import LarvaOS.Fs.DirectoryLoads

namespace LarvaOS
namespace Fs

open Library Disk Memory

/-!
# Items of directory entries

The item of a file points to a copy of its entry, and the item of a directory to a record with
the slots that were loaded for it.  An item comes about as it should only if the heap serves
everything that belongs to it and, for a directory, the disk lets the slots be loaded.
Otherwise it points to nothing, or to memory that was released again.
-/

/-! ## What an item holds -/

/-- The slot with this index, as the clusters behind the entry have it. -/
def chainSlot (kernel : Kernel) (slot : Slot) (index : Nat) : Slot := fun place =>
  chainByte kernel (fat16GetFirstCluster slot).toNat (slotSize * index + place)

/-- The directory of an entry in memory: a record with the number of entries that the scan
counts, and as many slots, as the clusters have them. -/
structure HoldsDirectory (kernel : Kernel) (slot : Slot) (directory : Word) : Prop where
  live : LiveDirectory kernel directory
  counted : exists mark, DirectoryEnds (driveOf kernel) (directoryStart kernel slot) mark ∧
    (kernel.fatDirectories directory).total = slotsInUse (driveOf kernel) (directoryStart kernel slot) mark
  slots : forall index, index < (kernel.fatDirectories directory).total.toNat ->
    SameSlot (memorySlot kernel (kernel.fatDirectories directory) index) (chainSlot kernel slot index)

/-- The item stands for the entry: its type tells a directory from a file, the item of a file
has a copy of the entry, and the item of a directory has the directory. -/
structure IsItemOf (slot : Slot) (item : Word) (kernel : Kernel) : Prop where
  type : (kernel.fatItems item).type = if slot.isSubdirectory then FAT_ITEM_TYPE_DIRECTORY else FAT_ITEM_TYPE_FILE
  entry : slot.isSubdirectory = false -> Live kernel (kernel.fatItems item).pointer ∧
    SameSlot (slotAt kernel (kernel.fatItems item).pointer) slot
  directory : slot.isSubdirectory = true -> HoldsDirectory kernel slot (kernel.fatItems item).pointer

theorem SameSlot.directoryStart {slot slot' : Slot} (same : SameSlot slot slot') (kernel : Kernel) :
    Fs.directoryStart kernel slot = Fs.directoryStart kernel slot' := by
  unfold Fs.directoryStart
  rw [same.firstCluster]

theorem SameSlot.chainSlot {slot slot' : Slot} (same : SameSlot slot slot') (kernel : Kernel) :
    Fs.chainSlot kernel slot = Fs.chainSlot kernel slot' := by
  unfold Fs.chainSlot
  rw [same.firstCluster]

theorem HoldsDirectory.congr {slot slot' : Slot} (same : SameSlot slot slot') {kernel : Kernel} {directory : Word}
    (holds : HoldsDirectory kernel slot directory) : HoldsDirectory kernel slot' directory where
  live := holds.live
  counted := by
    rw [← same.directoryStart]
    exact holds.counted
  slots := by
    rw [← same.chainSlot]
    exact holds.slots

theorem IsItemOf.congr {slot slot' : Slot} (same : SameSlot slot slot') {item : Word} {kernel : Kernel}
    (isItem : IsItemOf slot item kernel) : IsItemOf slot' item kernel where
  type := by
    rw [← same.isSubdirectory]
    exact isItem.type
  entry := fun file =>
    have copied := isItem.entry (same.isSubdirectory.trans file)
    ⟨copied.1, copied.2.trans same⟩
  directory := fun isDirectory => (isItem.directory (same.isSubdirectory.trans isDirectory)).congr same

theorem directoryStart_sameVolume {kernel after : Kernel} (same : SameVolume kernel after) (slot : Slot) :
    directoryStart after slot = directoryStart kernel slot := by
  unfold directoryStart
  rw [same.fatPrivate]

theorem chainSlot_sameVolume {kernel after : Kernel} (same : SameVolume kernel after) (slot : Slot) (index : Nat) :
    chainSlot after slot index = chainSlot kernel slot index :=
  funext fun _ => chainByte_sameVolume same _ _

/-! ## The slots of a load -/

section Loading

variable {kernel : Kernel} (held : VolumeHeld kernel) {slot : Slot} (served : (kzalloc kernel 16#32).1 ≠ 0#32)
  {counted : Int × Kernel}
  (count : fat16GetTotalItemsForDirectory (kzalloc kernel 16#32).2
    (fat16ClusterToSector (privateOf (kzalloc kernel 16#32).2) (fat16GetFirstCluster slot)) = some counted)
  (full : (slotBuffer counted.2 (kzalloc kernel 16#32).1 counted.1).1 ≠ 0#32) {reading : Reading}
  (read : fat16ReadInternal (slotBuffer counted.2 (kzalloc kernel 16#32).1 counted.1).2 (fat16GetFirstCluster slot) 0x00
    (directorySize counted.1) (slotBuffer counted.2 (kzalloc kernel 16#32).1 counted.1).1 = some reading)
  (succeeds : 0 ≤ reading.res)
include held served count full read succeeds

/-- A load that succeeds has read the slots from the clusters. -/
theorem load_filled : directorySize counted.1 = counted.1 * slotSize ∧
    Filled (slotBuffer counted.2 (kzalloc kernel 16#32).1 counted.1).2 reading.kernel
      (slotBuffer counted.2 (kzalloc kernel 16#32).1 counted.1).1 (directorySize counted.1).toNat
      fun place => chainByte kernel (fat16GetFirstCluster slot).toNat place := by
  have later := (Later.refl kernel).slotBuffer held served count
  have volume : SameVolume kernel (slotBuffer counted.2 (kzalloc kernel 16#32).1 counted.1).2 :=
    ⟨later.fatPrivate held, later.drive⟩
  have fits := (slotBuffer_served_iff held served count).mp full
  rcases (slotRead_succeeds_iff held served count fits).mp ⟨reading, read, succeeds⟩ with ⟨sized, serves⟩
  rcases fat16GetTotalItemsForDirectory_total count with ⟨number, same, few⟩
  rcases fits with ⟨record, slots, _, hands⟩
  have marked : (kernel.heap.withEntries (markExtent kernel.heap.table.entries record)).IsKernelHeap :=
    held.kernelHeap.samePool ⟨rfl, rfl⟩
  rw [same] at hands
  rcases directorySize_served marked few hands with ⟨straight, asked, _⟩
  rw [← same] at straight asked
  refine ⟨straight, ?_⟩
  have bound := directorySize_lt counted.1
  have positive : 0 < sizeOfClusterBytes (privateOf (slotBuffer counted.2 (kzalloc kernel 16#32).1 counted.1).2) := by
    have nonnegative := sizeOfClusterBytes_nonneg (privateOf kernel)
    rw [volume.fatPrivate]
    omega
  have start : sizeOfClusterBytes (privateOf (slotBuffer counted.2 (kzalloc kernel 16#32).1 counted.1).2) *
      ((0 : Nat) : Int) = 0 := Int.mul_zero _
  have whole := readClusters_whole (directorySize counted.1).toNat positive (fat16GetFirstCluster slot).toNat 0 asked
    (by omega) (by rw [start]; omega) ((ChainServes.congr volume).mpr serves)
    (privateOf (slotBuffer counted.2 (kzalloc kernel 16#32).1 counted.1).2).clusterReadStream
    (slotBuffer counted.2 (kzalloc kernel 16#32).1 counted.1).1
  rw [start, ← fat16GetFirstCluster_natCast] at whole
  rcases whole with ⟨reading', read', _, filled⟩
  obtain rfl := Option.some.inj (read'.symm.trans read)
  refine ⟨filled.transferred, filled.bytes.congr fun place _ => ?_⟩
  rw [Nat.mul_zero, Nat.zero_add, chainByte_sameVolume volume]

/-- The directory is in memory. -/
theorem load_holds : HoldsDirectory reading.kernel slot (kzalloc kernel 16#32).1 := by
  rcases load_gained held served count full read with ⟨_, _, live, _⟩
  rcases load_filled held served count full read succeeds with ⟨straight, filled⟩
  have placed := held.kernelHeap.wellPlaced
  have later := (Later.refl kernel).slotBuffer held served count
  have volume : SameVolume kernel reading.kernel := SameVolume.trans ⟨later.fatPrivate held, later.drive⟩ filled.sameVolume
  rcases counted_eq held count with ⟨mark, ends, number⟩
  rcases (KeepsObjects.refl (fun _ => True) kernel).acquired placed served with ⟨record, acquired, _⟩
  have scanned := fat16GetTotalItemsForDirectory_readsFresh
    ⟨Transferred.refl _, (KeepsObjects.refl (fun _ => True) kernel).kzalloc placed 16#32⟩ count
  have item := slotBuffer_item counted.2 (kzalloc kernel 16#32).1 counted.1
  have total := slotBuffer_total (scanned.keeps.pool.wellPlaced placed) (acquired.of_heap scanned.transferred.heap) counted.1
  rw [← filled.transferred.fatDirectories] at item total
  refine ⟨live, ⟨mark, ?_, ?_⟩, fun index below place within => ?_⟩
  · rw [volume.drive, directoryStart_sameVolume volume]
    exact ends
  · rw [volume.drive, directoryStart_sameVolume volume, total]
    exact number
  · rw [total] at below
    rw [chainSlot_sameVolume volume, memorySlot, slotAt, slotAddress_place, item]
    refine filled.bytes.inside (slotSize * index + place) ?_
    rw [straight]
    unfold slotSize at *
    omega

end Loading

/-! ## A load that fails -/

/-- Nothing begins where an allocation was released. -/
theorem not_live_kfree {kernel : Kernel} (kernelHeap : kernel.heap.IsKernelHeap) {extent : Extent}
    (owned : kernel.heap.Owns extent) :
    ¬ Live (kfree kernel (kernel.heap.addressOf extent.first)) (kernel.heap.addressOf extent.first) := by
  have placed := kernelHeap.wellPlaced
  have freed : (kfree kernel (kernel.heap.addressOf extent.first)).heap =
      kernel.heap.withEntries (clearExtent kernel.heap.table.entries extent) :=
    free_spec placed extent owned.recorded owned.within (kernelHeap.low owned.address_inside)
  rintro ⟨other, otherOwned, address⟩
  rw [freed] at otherOwned address
  have first := placed.addressOf_injective owned.address_inside otherOwned.address_inside address
  have taken := otherOwned.recorded.not_free other.covers_first
  have cleared : (kernel.heap.withEntries (clearExtent kernel.heap.table.entries extent)).blocks other.first =
      heapBlockTableEntryFree := clearExtent_of_covers _ (first ▸ extent.covers_first)
  rw [cleared] at taken
  exact absurd taken (by decide)

/-- Nor does a directory that was released. -/
theorem not_live_fat16FreeDirectory {kernel : Kernel} (kernelHeap : kernel.heap.IsKernelHeap) {directory : Word}
    {record : Extent} (owned : kernel.heap.Owns record) (address : directory = kernel.heap.addressOf record.first)
    (slots : (kernel.fatDirectories directory).item = 0#32 ∨ exists extent, kernel.heap.Owns extent ∧
      (kernel.fatDirectories directory).item = kernel.heap.addressOf extent.first ∧ record.Apart extent) :
    ¬ Live (fat16FreeDirectory kernel directory) directory := by
  have notNull : directory ≠ 0#32 := by
    rw [address]
    exact kernelHeap.wellPlaced.addressOf_ne_null owned.address_inside
  unfold fat16FreeDirectory
  rw [if_neg notNull]
  rcases slots with none | ⟨extent, extentOwned, begins, apart⟩
  · simp only [none, ne_eq, not_true_eq_false, if_false]
    rw [address]
    exact not_live_kfree kernelHeap owned
  · have some : (kernel.fatDirectories directory).item ≠ 0#32 := by
      rw [begins]
      exact kernelHeap.wellPlaced.addressOf_ne_null extentOwned.address_inside
    have kept := kfree_keepsApart kernelHeap extentOwned begins
    have last := not_live_kfree (kernelHeap.samePool kept.pool) (kept.owns record apart owned)
    rw [kept.pool.addressOf, ← address] at last
    simp only [some, ne_eq, not_false_eq_true, if_true]
    exact last

section Loading

variable {kernel : Kernel} (held : VolumeHeld kernel) {slot : Slot} (served : (kzalloc kernel 16#32).1 ≠ 0#32)
  {counted : Int × Kernel}
  (count : fat16GetTotalItemsForDirectory (kzalloc kernel 16#32).2
    (fat16ClusterToSector (privateOf (kzalloc kernel 16#32).2) (fat16GetFirstCluster slot)) = some counted)
include held served count

/-- The record of a directory without slots is released. -/
theorem load_released (refused : (slotBuffer counted.2 (kzalloc kernel 16#32).1 counted.1).1 = 0#32) :
    ¬ Live (fat16FreeDirectory (slotBuffer counted.2 (kzalloc kernel 16#32).1 counted.1).2 (kzalloc kernel 16#32).1)
      (kzalloc kernel 16#32).1 := by
  have placed := held.kernelHeap.wellPlaced
  have nothing := KeepsObjects.refl (fun _ => True) kernel
  rcases nothing.acquired placed served with ⟨record, acquired, _⟩
  have scanned := fat16GetTotalItemsForDirectory_readsFresh ⟨Transferred.refl _, nothing.kzalloc placed 16#32⟩ count
  have recorded := acquired.of_heap scanned.transferred.heap
  have kept := slotBuffer_acquired (scanned.keeps.pool.wellPlaced placed) recorded counted.1
  have filled := slotBuffer_keeps placed scanned.keeps (recorded.fresh_pointer placed scanned.keeps.pool) counted.1
  have item := slotBuffer_item counted.2 (kzalloc kernel 16#32).1 counted.1
  exact not_live_fat16FreeDirectory (held.kernelHeap.samePool filled.pool) kept.owned kept.address
    (Or.inl (item.trans refused))

/-- So are the record and the slots behind a read that fails. -/
theorem load_cut_released (full : (slotBuffer counted.2 (kzalloc kernel 16#32).1 counted.1).1 ≠ 0#32) {reading : Reading}
    (read : fat16ReadInternal (slotBuffer counted.2 (kzalloc kernel 16#32).1 counted.1).2 (fat16GetFirstCluster slot) 0x00
      (directorySize counted.1) (slotBuffer counted.2 (kzalloc kernel 16#32).1 counted.1).1 = some reading) :
    ¬ Live (fat16FreeDirectory reading.kernel (kzalloc kernel 16#32).1) (kzalloc kernel 16#32).1 := by
  rcases load_gained held served count full read with ⟨kernelHeap, _, _, slots, record, gained⟩
  rcases gained.allocated.head with ⟨_, _, same, slotsOwned, slotsAddress, rest, apart⟩
  obtain ⟨rfl, rfl⟩ := List.cons.inj same
  rcases rest.head with ⟨_, _, same', recordOwned, recordAddress, _, _⟩
  obtain ⟨rfl, _⟩ := List.cons.inj same'
  exact not_live_fat16FreeDirectory kernelHeap recordOwned recordAddress
    (Or.inr ⟨_, slotsOwned, slotsAddress, (apart record List.mem_cons_self).symm⟩)

end Loading

/-- Room for a directory is room for its record. -/
theorem SlotsFit.record_served {kernel : Kernel} (placed : kernel.heap.WellPlaced) {total : Int}
    (fits : SlotsFit kernel.heap total) : (kzalloc kernel 16#32).1 ≠ 0#32 := by
  rcases fits with ⟨record, _, hands, _⟩
  rcases kzalloc_cases placed 16#32 with ⟨_, hands', result⟩ | ⟨refuses, _⟩
  · rw [result]
    exact placed.addressOf_ne_null hands'.inside
  · exact absurd hands.fits (refuses hands.nonzero _)

theorem not_live_null {kernel : Kernel} (placed : kernel.heap.WellPlaced) : ¬ Live kernel 0#32 :=
  fun ⟨_, owned, address⟩ => placed.addressOf_ne_null owned.address_inside address.symm

/-- An attempt succeeds with the directory in memory, or fails and leaves nothing where the
pointer leads that is returned. -/
theorem loadAttempt_cases {kernel : Kernel} (held : VolumeHeld kernel) {slot : Slot} {attempt : LoadAttempt}
    (directory : slot.isSubdirectory = true) (attempts : loadAttempt kernel slot = some attempt) :
    (0 ≤ attempt.res ∧ LoadsDirectory kernel slot ∧ HoldsDirectory attempt.kernel slot attempt.directory) ∨
      (attempt.res < 0 ∧ ¬ LoadsDirectory kernel slot ∧ ¬ Live attempt.out.2 attempt.out.1) := by
  have placed := held.kernelHeap.wellPlaced
  have file : ¬ (!slot.isSubdirectory) = true := by simpa using directory
  unfold loadAttempt at attempts
  rw [if_neg file] at attempts
  by_cases served : (kzalloc kernel 16#32).1 = 0#32
  · simp only [served, if_true] at attempts
    obtain rfl := Option.some.inj attempts
    have kept := (KeepsObjects.refl (fun _ => True) kernel).kzalloc placed 16#32
    refine Or.inr ⟨show - ENOMEM < 0 by decide, fun loads => ?_, not_live_null (kept.pool.wellPlaced placed)⟩
    rcases loads.whole with ⟨_, _, fits, _⟩
    exact fits.record_served placed served
  · simp only [served, if_false] at attempts
    rcases Option.bind_eq_some_iff.mp attempts with ⟨counted, count, rest⟩
    rcases counted_eq held count with ⟨mark, ends, total⟩
    have begun : forall other, DirectoryEnds (driveOf kernel) (directoryStart kernel slot) other ->
        slotsInUse (driveOf kernel) (directoryStart kernel slot) other = counted.1 := by
      intro other otherEnds
      rw [otherEnds.unique ends]
      exact total.symm
    by_cases full : (slotBuffer counted.2 (kzalloc kernel 16#32).1 counted.1).1 = 0#32
    · simp only [full, if_true] at rest
      obtain rfl := Option.some.inj rest
      refine Or.inr ⟨show - ENOMEM < 0 by decide, fun loads => ?_, load_released held served count full⟩
      rcases loads.whole with ⟨other, otherEnds, fits, _⟩
      rw [begun other otherEnds] at fits
      exact (slotBuffer_served_iff held served count).mpr fits full
    · simp only [full, if_false] at rest
      rcases Option.map_eq_some_iff.mp rest with ⟨reading, read, rfl⟩
      have fits := (slotBuffer_served_iff held served count).mp full
      by_cases succeeds : 0 ≤ reading.res
      · rcases (slotRead_succeeds_iff held served count fits).mp ⟨reading, read, succeeds⟩ with ⟨sized, serves⟩
        rw [total] at fits serves
        exact Or.inl ⟨succeeds, ⟨sized, mark, ends, fits, serves⟩, load_holds held served count full read succeeds⟩
      · have failed := Int.not_le.mp succeeds
        have out : LoadAttempt.out ⟨reading.res, (kzalloc kernel 16#32).1, reading.kernel⟩ =
            ((kzalloc kernel 16#32).1, fat16FreeDirectory reading.kernel (kzalloc kernel 16#32).1) :=
          congrArg (Prod.mk _) (if_pos failed)
        rw [out]
        refine Or.inr ⟨failed, fun loads => ?_, load_cut_released held served count full read⟩
        rcases loads.whole with ⟨other, otherEnds, _, serves⟩
        rw [begun other otherEnds] at serves
        rcases (slotRead_succeeds_iff held served count fits).mpr ⟨loads.sized, serves⟩ with ⟨reading', read', succeeds'⟩
        obtain rfl := Option.some.inj (read'.symm.trans read)
        exact succeeds succeeds'

theorem LiveDirectory.live {kernel : Kernel} {directory : Word} (live : LiveDirectory kernel directory) :
    Live kernel directory := by
  rcases live with ⟨slots, record, allocated, _⟩
  rcases allocated.exists_extent (List.mem_cons_of_mem _ List.mem_cons_self) with ⟨extent, _, owned, address⟩
  exact ⟨extent, owned, address⟩

/-- What is returned leads to the directory exactly if the disk and the heap let it be
loaded. -/
theorem fat16LoadFatDirectory_holds_iff {kernel : Kernel} (held : VolumeHeld kernel) {slot : Slot}
    (directory : slot.isSubdirectory = true) {loaded : Word × Kernel} (load : fat16LoadFatDirectory kernel slot = some loaded) :
    HoldsDirectory loaded.2 slot loaded.1 ↔ LoadsDirectory kernel slot := by
  rw [fat16LoadFatDirectory_eq] at load
  rcases Option.map_eq_some_iff.mp load with ⟨attempt, attempts, rfl⟩
  rcases loadAttempt_cases held directory attempts with ⟨succeeds, loads, holds⟩ | ⟨_, refuses, dead⟩
  · have out : attempt.out = (attempt.directory, attempt.kernel) := congrArg (Prod.mk _) (if_neg (Int.not_lt.mpr succeeds))
    rw [out]
    exact ⟨fun _ => loads, fun _ => holds⟩
  · exact ⟨fun holds => absurd holds.live.live dead, fun loads => absurd loads refuses⟩

/-! ## Making an item -/

section Making

variable {kernel current : Kernel} (held : VolumeHeld kernel) (later : Later kernel current)
  {slot : Slot}
include held later

/-- A directory whose scan ends is loaded, or the load fails. -/
theorem fat16LoadFatDirectory_returns (sized : sizeOfClusterBytes (privateOf kernel) ≠ 0) (ends : Countable kernel slot) :
    exists loaded, fat16LoadFatDirectory current slot = some loaded := by
  unfold fat16LoadFatDirectory
  by_cases file : (!slot.isSubdirectory) = true
  · rw [if_pos file]
    exact ⟨_, rfl⟩
  · rw [if_neg file]
    by_cases refused : (kzalloc current 16#32).1 = 0#32
    · simp only [refused, if_true]
      exact ⟨_, rfl⟩
    · simp only [refused, if_false]
      have directory := later.kzalloc held 16#32
      rcases ends (by simpa using file) with ⟨last, ended⟩
      rw [← directory.drive, ← directory.fatPrivate held] at ended
      have count := fat16GetTotalItemsForDirectory_ends _ _ ended
      have buffer := later.slotBuffer held refused count
      rw [count, Option.bind_some, loadSlots]
      generalize slotBuffer _ _ _ = items at *
      by_cases full : items.1 = 0#32
      · rw [if_pos full]
        exact ⟨_, rfl⟩
      · have sizedBuffer : sizeOfClusterBytes (privateOf items.2) ≠ 0 := by
          rw [buffer.fatPrivate held]
          exact sized
        rcases fat16ReadInternal_returns sizedBuffer (fat16GetFirstCluster slot) 0x00 (directorySize _) items.1 with
          ⟨reading, read⟩
        rw [if_neg full, read]
        exact ⟨_, rfl⟩

theorem fat16MakeNewFatItemForDirectoryItem_returns (sized : sizeOfClusterBytes (privateOf kernel) ≠ 0)
    (ends : Countable kernel slot) : exists made, fat16MakeNewFatItemForDirectoryItem current slot = some made := by
  unfold fat16MakeNewFatItemForDirectoryItem
  by_cases refused : (kzalloc current 8#32).1 = 0#32
  · simp only [refused, if_true]
    exact ⟨_, rfl⟩
  · simp only [refused, if_false]
    rcases fat16LoadFatDirectory_returns held (later.kzalloc held 8#32) sized ends with ⟨loaded, load⟩
    by_cases directory : slot.isSubdirectory = true
    · rw [if_pos directory, load]
      exact ⟨_, rfl⟩
    · rw [if_neg directory]
      exact ⟨_, rfl⟩

end Making

/-- The heap serves the item and all that belongs to it, and the disk lets a directory be
loaded. -/
def MakesItem (kernel : Kernel) (heap : Heap) (slot : Slot) : Prop :=
  let item := malloc heap 8#32
  item.1 ≠ 0#32 ∧
    if slot.isSubdirectory then LoadsDirectory (kernel.withHeap item.2) slot else (malloc item.2 32#32).1 ≠ 0#32

theorem LoadsDirectory.congr {kernel after : Kernel} (same : SameVolume kernel after) (heap : after.heap = kernel.heap)
    {slot : Slot} : LoadsDirectory after slot ↔ LoadsDirectory kernel slot := by
  have equivalent {kernel after : Kernel} (same : SameVolume kernel after) (heap : after.heap = kernel.heap)
      (loads : LoadsDirectory after slot) : LoadsDirectory kernel slot := by
    rcases loads with ⟨sized, mark, ends, fits, serves⟩
    rw [same.fatPrivate] at sized
    rw [directoryStart_sameVolume same, same.drive] at ends fits serves
    rw [heap] at fits
    exact ⟨sized, mark, ends, fits, (ChainServes.congr same).mp serves⟩
  exact ⟨equivalent same heap, equivalent ⟨same.fatPrivate.symm, same.drive.symm⟩ heap.symm⟩

theorem LoadsDirectory.ofSameSlot {kernel : Kernel} {slot slot' : Slot} (same : SameSlot slot slot')
    (loads : LoadsDirectory kernel slot) : LoadsDirectory kernel slot' := by
  rcases loads with ⟨sized, whole⟩
  rw [same.directoryStart, same.firstCluster] at whole
  exact ⟨sized, whole⟩

theorem MakesItem.sameVolume {kernel after : Kernel} (same : SameVolume kernel after) {heap : Heap} {slot : Slot} :
    MakesItem after heap slot ↔ MakesItem kernel heap slot := by
  have volume : SameVolume (kernel.withHeap (malloc heap 8#32).2) (after.withHeap (malloc heap 8#32).2) :=
    ⟨same.fatPrivate, same.drive⟩
  unfold MakesItem
  dsimp only
  rw [LoadsDirectory.congr volume rfl]

theorem MakesItem.congr {kernel : Kernel} {heap : Heap} {slot slot' : Slot} (same : SameSlot slot slot') :
    MakesItem kernel heap slot ↔ MakesItem kernel heap slot' := by
  have loads : LoadsDirectory (kernel.withHeap (malloc heap 8#32).2) slot ↔
      LoadsDirectory (kernel.withHeap (malloc heap 8#32).2) slot' := ⟨fun here => here.ofSameSlot same, fun here => here.ofSameSlot same.symm⟩
  unfold MakesItem
  dsimp only
  rw [loads, same.isSubdirectory]

/-- The type and the pointer of an item do not matter to a directory in memory. -/
theorem holdsDirectory_storeItem {kernel : Kernel} {address : Word} {item : FatItem} {slot : Slot} {directory : Word} :
    HoldsDirectory (storeItem kernel address item) slot directory ↔ HoldsDirectory kernel slot directory := by
  have same : SameVolume kernel (storeItem kernel address item) := ⟨rfl, rfl⟩
  have slots := chainSlot_sameVolume same slot
  have start := directoryStart_sameVolume same slot
  constructor
  · rintro ⟨⟨items, record, allocated, room⟩, counted, copied⟩
    refine ⟨⟨items, record, allocated.of_heap rfl, room⟩, ?_, fun index below => ?_⟩
    · rw [← start, ← same.drive]
      exact counted
    · rw [← slots]
      exact copied index below
  · rintro ⟨⟨items, record, allocated, room⟩, counted, copied⟩
    refine ⟨⟨items, record, allocated.of_heap rfl, room⟩, ?_, fun index below => ?_⟩
    · rw [start, same.drive]
      exact counted
    · rw [slots]
      exact copied index below

/-- The copy of an entry. -/
theorem fat16CloneDirectoryItem_copies_iff {kernel : Kernel} (placed : kernel.heap.WellPlaced) (slot : Slot) :
    (Live (fat16CloneDirectoryItem kernel slot).2 (fat16CloneDirectoryItem kernel slot).1 ∧
      SameSlot (slotAt (fat16CloneDirectoryItem kernel slot).2 (fat16CloneDirectoryItem kernel slot).1) slot) ↔
        (kzalloc kernel 32#32).1 ≠ 0#32 := by
  have nothing := KeepsObjects.refl (fun _ => True) kernel
  unfold fat16CloneDirectoryItem
  by_cases refused : (kzalloc kernel 32#32).1 = 0#32
  · simp only [refused, if_true]
    exact ⟨fun copied => absurd copied.1 (not_live_null ((nothing.kzalloc placed 32#32).pool.wellPlaced placed)),
      fun served => absurd rfl served⟩
  · simp only [refused, if_false]
    rcases nothing.acquired placed refused with ⟨extent, acquired, _⟩
    refine ⟨fun _ => refused, fun _ => ⟨⟨extent, acquired.owned, acquired.address⟩, fun place within => ?_⟩⟩
    rw [slotAt, storeBytes_bytes, offset_toNat _ (Nat.lt_trans within (by decide)), List.getElem?_map,
      List.getElem?_range within]
    rfl

/-- An item is made as it should be exactly if the disk and the heap let it. -/
theorem fat16MakeNewFatItemForDirectoryItem_isItem_iff {kernel : Kernel} (held : VolumeHeld kernel) {slot : Slot}
    {made : Word × Kernel} (make : fat16MakeNewFatItemForDirectoryItem kernel slot = some made) :
    made.1 ≠ 0#32 ∧ IsItemOf slot made.1 made.2 ↔ MakesItem kernel kernel.heap slot := by
  have placed := held.kernelHeap.wellPlaced
  have itemLater := (Later.refl kernel).kzalloc held 8#32
  unfold MakesItem
  dsimp only
  rw [← kzalloc_heap, ← kzalloc_pointer]
  unfold fat16MakeNewFatItemForDirectoryItem at make
  by_cases refused : (kzalloc kernel 8#32).1 = 0#32
  · simp only [refused, if_true] at make
    obtain rfl := Option.some.inj make
    exact ⟨fun isItem => absurd refused isItem.1, fun makes => absurd refused makes.1⟩
  · simp only [refused, if_false] at make
    by_cases directory : slot.isSubdirectory = true
    · rw [if_pos directory] at make ⊢
      rcases Option.map_eq_some_iff.mp make with ⟨loaded, load, rfl⟩
      have heldNow := itemLater.volumeHeld held
      have same : SameVolume (kzalloc kernel 8#32).2 (kernel.withHeap (kzalloc kernel 8#32).2.heap) :=
        ⟨(itemLater.fatPrivate held).symm, itemLater.drive.symm⟩
      rw [LoadsDirectory.congr same rfl, ← fat16LoadFatDirectory_holds_iff heldNow directory load]
      constructor
      · rintro ⟨notNull, isItem⟩
        have holds := isItem.directory directory
        rw [storeItem_self] at holds
        exact ⟨notNull, holdsDirectory_storeItem.mp holds⟩
      · rintro ⟨notNull, holds⟩
        refine ⟨notNull, ⟨?_, fun file => absurd (directory.symm.trans file) Bool.noConfusion, fun _ => ?_⟩⟩
        · rw [storeItem_self, directory]
          rfl
        · rw [storeItem_self]
          exact holdsDirectory_storeItem.mpr holds
    · rw [if_neg directory] at make ⊢
      obtain rfl := Option.some.inj make
      have file : slot.isSubdirectory = false := by simpa using directory
      have copies := fat16CloneDirectoryItem_copies_iff (itemLater.keeps.pool.wellPlaced placed) slot
      rw [kzalloc_pointer (kzalloc kernel 8#32).2] at copies
      rw [← copies]
      generalize fat16CloneDirectoryItem (kzalloc kernel 8#32).2 slot = copy
      constructor
      · rintro ⟨notNull, isItem⟩
        have copied := isItem.entry file
        rw [storeItem_self] at copied
        exact ⟨notNull, copied⟩
      · rintro ⟨notNull, copied⟩
        refine ⟨notNull, ⟨?_, fun _ => ?_, fun isDirectory => absurd isDirectory directory⟩⟩
        · rw [storeItem_self, if_neg directory]
        · rw [storeItem_self]
          exact copied

/-- An item that can be made is made. -/
theorem MakesItem.returns {kernel : Kernel} (held : VolumeHeld kernel) {slot : Slot}
    (makes : MakesItem kernel kernel.heap slot) : exists made, fat16MakeNewFatItemForDirectoryItem kernel slot = some made := by
  unfold MakesItem at makes
  dsimp only at makes
  by_cases directory : slot.isSubdirectory = true
  · rw [if_pos directory] at makes
    rcases makes.2 with ⟨sized, mark, ends, _⟩
    exact fat16MakeNewFatItemForDirectoryItem_returns held (Later.refl kernel) sized fun _ => ⟨mark, ends⟩
  · unfold fat16MakeNewFatItemForDirectoryItem
    rw [← kzalloc_pointer] at makes
    dsimp only
    rw [if_neg makes.1, if_neg directory]
    exact ⟨_, rfl⟩

theorem fat16MakeNewFatItemForDirectoryItem_refused {kernel : Kernel} {slot : Slot}
    (refused : (malloc kernel.heap 8#32).1 = 0#32) : exists made, fat16MakeNewFatItemForDirectoryItem kernel slot = some made := by
  unfold fat16MakeNewFatItemForDirectoryItem
  rw [← kzalloc_pointer] at refused
  dsimp only
  rw [if_pos refused]
  exact ⟨_, rfl⟩

/-- Nothing is returned exactly if the item itself is refused. -/
theorem fat16MakeNewFatItemForDirectoryItem_null_iff {kernel : Kernel} {slot : Slot} {made : Word × Kernel}
    (make : fat16MakeNewFatItemForDirectoryItem kernel slot = some made) :
    made.1 = 0#32 ↔ (malloc kernel.heap 8#32).1 = 0#32 := by
  rw [← kzalloc_pointer]
  unfold fat16MakeNewFatItemForDirectoryItem at make
  by_cases refused : (kzalloc kernel 8#32).1 = 0#32
  · simp only [refused, if_true] at make
    obtain rfl := Option.some.inj make
    exact ⟨fun _ => refused, fun _ => refused⟩
  · simp only [refused, if_false] at make
    by_cases directory : slot.isSubdirectory = true
    · rw [if_pos directory] at make
      rcases Option.map_eq_some_iff.mp make with ⟨loaded, _, rfl⟩
      exact Iff.rfl
    · rw [if_neg directory] at make
      obtain rfl := Option.some.inj make
      exact Iff.rfl

/-! ## Without a refusal -/

theorem fat16FreeDirectory_refused (kernel : Kernel) (directory : Word) :
    (fat16FreeDirectory kernel directory).refused = kernel.refused := by
  unfold fat16FreeDirectory
  by_cases null : directory = 0#32
  · rw [if_pos null]
  · rw [if_neg null]
    by_cases none : (kernel.fatDirectories directory).item = 0#32
    · simp only [none, ne_eq, not_true_eq_false, if_false]
      rfl
    · simp only [none, ne_eq, not_false_eq_true, if_true]
      rfl

theorem storeItem_refused (kernel : Kernel) (address : Word) (item : FatItem) :
    (storeItem kernel address item).refused = kernel.refused := rfl

/-- The clusters behind the entry of a directory have all the slots that are counted. -/
def ChainLoads (kernel : Kernel) (slot : Slot) : Prop :=
  slot.isSubdirectory = true -> exists mark, DirectoryEnds (driveOf kernel) (directoryStart kernel slot) mark ∧
    ChainServes kernel (fat16GetFirstCluster slot).toNat 0
      (directorySize (slotsInUse (driveOf kernel) (directoryStart kernel slot) mark))

theorem ChainLoads.congr {kernel : Kernel} {slot slot' : Slot} (same : SameSlot slot slot') :
    ChainLoads kernel slot ↔ ChainLoads kernel slot' := by
  unfold ChainLoads directoryStart
  rw [same.isSubdirectory, same.firstCluster]

theorem ChainLoads.sameVolume {kernel after : Kernel} (same : SameVolume kernel after) {slot : Slot} :
    ChainLoads after slot ↔ ChainLoads kernel slot := by
  unfold ChainLoads
  simp only [same.drive, directoryStart_sameVolume same, ChainServes.congr same]

/-- A directory that was loaded without a refusal was counted, and the heap had room for its
slots. -/
theorem fat16LoadFatDirectory_served {kernel : Kernel} (held : VolumeHeld kernel) {slot : Slot} {loaded : Word × Kernel}
    (directory : slot.isSubdirectory = true) (load : fat16LoadFatDirectory kernel slot = some loaded)
    (served : loaded.2.refused = kernel.refused) :
    exists mark, DirectoryEnds (driveOf kernel) (directoryStart kernel slot) mark ∧
      SlotsFit kernel.heap (slotsInUse (driveOf kernel) (directoryStart kernel slot) mark) := by
  have file : ¬ (!slot.isSubdirectory) = true := by simpa using directory
  unfold fat16LoadFatDirectory at load
  rw [if_neg file] at load
  have recordCount := kzalloc_refused_count kernel 16#32
  by_cases refused : (kzalloc kernel 16#32).1 = 0#32
  · simp only [refused, if_true] at load
    obtain rfl := Option.some.inj load
    exact absurd refused ((Requests.refl _).served served)
  · rw [if_neg refused, Nat.add_zero] at recordCount
    simp only [refused, if_false] at load
    rcases Option.bind_eq_some_iff.mp load with ⟨counted, count, slots⟩
    rcases counted_eq held count with ⟨mark, ends, total⟩
    refine ⟨mark, ends, ?_⟩
    rw [← total]
    refine (slotBuffer_served_iff held refused count).mp fun full => ?_
    unfold loadSlots at slots
    simp only [full, if_true] at slots
    obtain rfl := Option.some.inj slots
    have scanned := (fat16GetTotalItemsForDirectory_transferred count).refused
    have slotsCount := kzalloc_refused_count (storeDirectory counted.2 (kzalloc kernel 16#32).1
      { counted.2.fatDirectories (kzalloc kernel 16#32).1 with total := counted.1 }) (intToWord (directorySize counted.1))
    have same : (slotBuffer counted.2 (kzalloc kernel 16#32).1 counted.1).2.refused = counted.2.refused + 1 :=
      slotsCount.trans (congrArg (counted.2.refused + ·) (if_pos full))
    have last : (fat16FreeDirectory (slotBuffer counted.2 (kzalloc kernel 16#32).1 counted.1).2 (kzalloc kernel 16#32).1).refused =
        kernel.refused := served
    rw [fat16FreeDirectory_refused] at last
    omega

/-- An item that was made without a refusal was counted, and is as it should be if the
clusters have all that was counted. -/
theorem fat16MakeNewFatItemForDirectoryItem_served {kernel : Kernel} (held : VolumeHeld kernel)
    (sized : sizeOfClusterBytes (privateOf kernel) ≠ 0) {slot : Slot} {made : Word × Kernel}
    (make : fat16MakeNewFatItemForDirectoryItem kernel slot = some made) (served : made.2.refused = kernel.refused) :
    made.1 ≠ 0#32 ∧ Countable kernel slot ∧ (IsItemOf slot made.1 made.2 ↔ ChainLoads kernel slot) := by
  have isItem := fat16MakeNewFatItemForDirectoryItem_isItem_iff held make
  have itemLater := (Later.refl kernel).kzalloc held 8#32
  have itemCount := kzalloc_refused_count kernel 8#32
  unfold MakesItem at isItem
  dsimp only at isItem
  rw [← kzalloc_heap, ← kzalloc_pointer] at isItem
  unfold fat16MakeNewFatItemForDirectoryItem at make
  by_cases refused : (kzalloc kernel 8#32).1 = 0#32
  · simp only [refused, if_true] at make
    obtain rfl := Option.some.inj make
    exact absurd refused ((Requests.refl _).served served)
  · rw [if_neg refused, Nat.add_zero] at itemCount
    simp only [refused, if_false] at make
    by_cases directory : slot.isSubdirectory = true
    · rw [if_pos directory] at make isItem
      rcases Option.map_eq_some_iff.mp make with ⟨loaded, load, rfl⟩
      rcases fat16LoadFatDirectory_served (itemLater.volumeHeld held) directory load (served.trans itemCount.symm) with
        ⟨mark, ends, fits⟩
      rw [itemLater.drive, directoryStart_sameVolume (itemLater.sameVolume held)] at ends fits
      refine ⟨refused, fun _ => ⟨mark, ends⟩, ?_⟩
      have whole : IsItemOf slot (kzalloc kernel 8#32).1 (storeItem loaded.2 (kzalloc kernel 8#32).1
          ⟨loaded.1, FAT_ITEM_TYPE_DIRECTORY⟩) ↔ LoadsDirectory (kernel.withHeap (kzalloc kernel 8#32).2.heap) slot :=
        ⟨fun isItem' => (isItem.mp ⟨refused, isItem'⟩).2, fun loads => (isItem.mpr ⟨refused, loads⟩).2⟩
      have same : SameVolume kernel (kernel.withHeap (kzalloc kernel 8#32).2.heap) := ⟨rfl, rfl⟩
      rw [whole]
      constructor
      · rintro ⟨_, mark', ends', _, serves⟩ _
        exact ⟨mark', ends', (ChainServes.congr same).mp serves⟩
      · intro chain
        rcases chain directory with ⟨mark', ends', serves⟩
        obtain rfl := ends'.unique ends
        exact ⟨sized, mark', ends, fits, (ChainServes.congr same).mpr serves⟩
    · rw [if_neg directory] at make isItem
      obtain rfl := Option.some.inj make
      refine ⟨refused, fun isDirectory => absurd isDirectory directory, ?_⟩
      have copied : (kzalloc (kzalloc kernel 8#32).2 32#32).1 ≠ 0#32 := by
        rw [storeItem_refused, ← itemCount] at served
        unfold fat16CloneDirectoryItem at served
        intro none
        rw [if_pos none, kzalloc_refused_count, if_pos none] at served
        omega
      rw [kzalloc_pointer] at copied
      exact ⟨fun _ isDirectory => absurd isDirectory directory, fun _ => (isItem.mpr ⟨refused, copied⟩).2⟩

end Fs
end LarvaOS
