import LarvaOS.Fs.ChainReads
import LarvaOS.Fs.FileObjects
import LarvaOS.Fs.Mounted

namespace LarvaOS
namespace Fs

open Library Disk Memory

/-!
# The slots of a subdirectory

`fat16_load_fat_directory` counts the entries of a directory, allocates a record and as
many slots, and reads the slots from the chain of its clusters.  The disk and the heap
decide together whether that succeeds: the scan has to end, the heap to have room for the
entries, and the chain to lead to all of them.
-/

/-! ## Entries that can be counted -/

/-- The scan of the directory of this entry comes to an end. -/
def ScanEnds (kernel : Kernel) (slot : Slot) : Prop :=
  exists mark, DirectoryEnds (driveOf kernel)
    (fat16ClusterToSector (privateOf kernel) (fat16GetFirstCluster slot) * DISK_SECTOR_SIZE) mark

/-- The scan ends, if there is one. -/
def Countable (kernel : Kernel) (slot : Slot) : Prop := slot.isSubdirectory = true -> ScanEnds kernel slot

theorem Countable.congr {kernel : Kernel} {slot slot' : Slot} (same : SameSlot slot slot') :
    Countable kernel slot ↔ Countable kernel slot' := by
  unfold Countable ScanEnds
  rw [same.isSubdirectory, same.firstCluster]

theorem Countable.sameVolume {kernel after : Kernel} (same : SameVolume kernel after) {slot : Slot} :
    Countable after slot ↔ Countable kernel slot := by
  unfold Countable ScanEnds
  rw [same.drive, same.fatPrivate]

/-! ## The attempt -/

/-- What `fat16_load_fat_directory` has come to at its label `out`. -/
structure LoadAttempt where
  res : Int
  directory : Word
  kernel : Kernel

/-- `fat16_load_fat_directory` up to the label. -/
def loadAttempt (kernel : Kernel) (slot : Slot) : Option LoadAttempt :=
  if !slot.isSubdirectory then some ⟨- EINVAL, 0#32, kernel⟩
  else
    let directory := kzalloc kernel 16#32
    if directory.1 = 0#32 then some ⟨- ENOMEM, 0#32, directory.2⟩
    else
      let cluster := fat16GetFirstCluster slot
      let clusterSector := fat16ClusterToSector (privateOf directory.2) cluster
      (fat16GetTotalItemsForDirectory directory.2 clusterSector).bind fun totalItems =>
        let items := slotBuffer totalItems.2 directory.1 totalItems.1
        if items.1 = 0#32 then some ⟨- ENOMEM, directory.1, items.2⟩
        else
          (fat16ReadInternal items.2 cluster 0x00 (directorySize totalItems.1) items.1).map fun reading =>
            ⟨reading.res, directory.1, reading.kernel⟩

/-- The end of the function. -/
def LoadAttempt.out (attempt : LoadAttempt) : Word × Kernel :=
  (attempt.directory, if attempt.res < 0 then fat16FreeDirectory attempt.kernel attempt.directory else attempt.kernel)

/-- It is the function of the source. -/
theorem fat16LoadFatDirectory_eq (kernel : Kernel) (slot : Slot) :
    fat16LoadFatDirectory kernel slot = (loadAttempt kernel slot).map LoadAttempt.out := by
  unfold fat16LoadFatDirectory loadAttempt
  by_cases file : (!slot.isSubdirectory) = true
  · rw [if_pos file, if_pos file]
    rfl
  · rw [if_neg file, if_neg file]
    dsimp only
    by_cases refused : (kzalloc kernel 16#32).1 = 0#32
    · rw [if_pos refused, if_pos refused]
      rfl
    · rw [if_neg refused, if_neg refused]
      cases fat16GetTotalItemsForDirectory (kzalloc kernel 16#32).2
          (fat16ClusterToSector (privateOf (kzalloc kernel 16#32).2) (fat16GetFirstCluster slot)) with
      | none => rfl
      | some counted =>
          rw [Option.bind_some, Option.bind_some, loadSlots]
          by_cases full : (slotBuffer counted.2 (kzalloc kernel 16#32).1 counted.1).1 = 0#32
          · rw [if_pos full, if_pos full]
            rfl
          · rw [if_neg full, if_neg full, Option.map_map]
            rfl

/-! ## The condition -/

/-- The record and the slots are allocations that are large enough. -/
def LiveDirectory (kernel : Kernel) (directory : Word) : Prop :=
  exists slots record,
    Allocated kernel [(kernel.fatDirectories directory).item, directory] [slots, record] ∧
      0 ≤ (kernel.fatDirectories directory).total ∧
        (kernel.fatDirectories directory).total * slotSize ≤ heapBlockSizeBytes * slots.count

/-- The position of the directory of an entry. -/
def directoryStart (kernel : Kernel) (slot : Slot) : Int :=
  fat16ClusterToSector (privateOf kernel) (fat16GetFirstCluster slot) * DISK_SECTOR_SIZE

/-- The heap has room for a record and, behind it, for the slots. -/
def SlotsFit (heap : Heap) (total : Int) : Prop :=
  exists record slots, heap.Hands 16#32 record ∧
    (heap.withEntries (markExtent heap.table.entries record)).Hands (intToWord (directorySize total)) slots

/-- The disk and the heap let the directory be loaded: its scan ends, the heap has room
for the entries that are counted, and the chain leads to all of them. -/
structure LoadsDirectory (kernel : Kernel) (slot : Slot) : Prop where
  sized : sizeOfClusterBytes (privateOf kernel) ≠ 0
  whole : exists mark, DirectoryEnds (driveOf kernel) (directoryStart kernel slot) mark ∧
    SlotsFit kernel.heap (slotsInUse (driveOf kernel) (directoryStart kernel slot) mark) ∧
      ChainServes kernel (fat16GetFirstCluster slot).toNat 0
        (directorySize (slotsInUse (driveOf kernel) (directoryStart kernel slot) mark))

theorem halfWordAt_range (bytes : Nat -> Byte) (offset : Nat) : 0 ≤ halfWordAt bytes offset ∧ halfWordAt bytes offset < 2 ^ 16 := by
  have first := (bytes offset).isLt
  have second := (bytes (offset + 1)).isLt
  unfold halfWordAt littleEndian littleEndian littleEndian
  omega

theorem fat16GetFirstCluster_natCast (slot : Slot) :
    fat16GetFirstCluster slot = ((fat16GetFirstCluster slot).toNat : Int) := by
  have high := halfWordAt_range slot 20
  have low := halfWordAt_range slot 26
  have joined : (intToWord slot.high16BitsFirstCluster ||| intToWord slot.low16BitsFirstCluster).toNat < 2 ^ 16 := by
    rw [BitVec.toNat_or]
    refine Nat.or_lt_two_pow ?_ ?_
    · rw [intToWord, BitVec.toNat_ofInt, Slot.high16BitsFirstCluster]
      omega
    · rw [intToWord, BitVec.toNat_ofInt, Slot.low16BitsFirstCluster]
      omega
  have lower : 0 ≤ fat16GetFirstCluster slot := by
    unfold fat16GetFirstCluster
    rw [wordToInt_of_small (by omega)]
    exact Int.natCast_nonneg _
  exact (Int.toNat_of_nonneg lower).symm

/-- A count that the heap serves has the size that it should have. -/
theorem directorySize_served {heap : Heap} (kernelHeap : heap.IsKernelHeap) {total : Nat} (few : total < scanReads)
    {extent : Extent} (hands : heap.Hands (intToWord (directorySize total)) extent) :
    directorySize total = total * slotSize ∧ 0 < directorySize total ∧
      directorySize total ≤ heapBlockSizeBytes * extent.count := by
  have within := hands.within
  have blocks : (25600#32).toNat = 25600 := rfl
  rw [kernelHeap.total, blocks] at within
  have count := hands.count
  have size := directorySize_lt total
  have nonzero : (intToWord (directorySize total)).toNat ≠ 0 := fun zero => hands.nonzero (BitVec.eq_of_toNat_eq zero)
  rw [blocksFor] at count
  have word : intToWord (directorySize total) = intToWord (total * slotSize) := intToWord_wrapInt _
  have value : (intToWord (directorySize total)).toNat = total * 32 := by
    rw [word, intToWord, BitVec.toNat_ofInt]
    unfold scanReads slotSize at *
    omega
  have straight : directorySize total = total * slotSize := by
    refine wrapInt_of_small ?_ ?_
    · unfold slotSize
      omega
    · unfold slotSize
      omega
  refine ⟨straight, ?_, ?_⟩
  · rw [straight]
    unfold slotSize
    omega
  · rw [straight]
    unfold slotSize heapBlockSizeBytes
    omega

/-! ## The load -/

/-- The record of a directory keeps its count while the slots are allocated. -/
theorem slotBuffer_total {guard : Extent -> Prop} {first kernel : Kernel} {directory : Word} {extent : Extent}
    (placed : kernel.heap.WellPlaced) (acquired : Acquired guard first kernel directory extent) (totalItems : Int) :
    ((slotBuffer kernel directory totalItems).2.fatDirectories directory).total = totalItems := by
  have held : Held (storeDirectory kernel directory { kernel.fatDirectories directory with total := totalItems })
      directory := Or.inr ⟨extent, acquired.owned, acquired.address⟩
  have same := (held.kzalloc placed (intToWord (directorySize totalItems))).2.fatDirectories
  unfold slotBuffer
  simp only [storeDirectory_self]
  rw [same, storeDirectory_self]

/-- The kernel in which the slots of a directory are read. -/
theorem Later.slotBuffer {kernel current : Kernel} (held : VolumeHeld kernel) (later : Later kernel current)
    {counted : Int × Kernel} {sector : Int} (served : (Memory.kzalloc current 16#32).1 ≠ 0#32)
    (count : fat16GetTotalItemsForDirectory (Memory.kzalloc current 16#32).2 sector = some counted) :
    Later kernel (Fs.slotBuffer counted.2 (Memory.kzalloc current 16#32).1 counted.1).2 := by
  have placed := held.kernelHeap.wellPlaced
  rcases later.keeps.acquired placed served with ⟨extent, acquired, _⟩
  have directory := later.kzalloc held 16#32
  have reads := fat16GetTotalItemsForDirectory_readsFresh ⟨Transferred.refl _, directory.keeps⟩ count
  have held := acquired.of_heap reads.transferred.heap
  refine ⟨slotBuffer_keeps placed reads.keeps (held.fresh_pointer placed reads.keeps.pool) _, ?_⟩
  exact slotBuffer_requests (directory.requests.trans reads.transferred.requests) _ _

section Loading

variable {kernel : Kernel} (held : VolumeHeld kernel) {slot : Slot} (served : (kzalloc kernel 16#32).1 ≠ 0#32)
  {counted : Int × Kernel}
  (count : fat16GetTotalItemsForDirectory (kzalloc kernel 16#32).2
    (fat16ClusterToSector (privateOf (kzalloc kernel 16#32).2) (fat16GetFirstCluster slot)) = some counted)

include held count

omit served in
/-- The count is that of the disk. -/
theorem counted_eq : exists mark, DirectoryEnds (driveOf kernel) (directoryStart kernel slot) mark ∧
    counted.1 = slotsInUse (driveOf kernel) (directoryStart kernel slot) mark := by
  have later := (Later.refl kernel).kzalloc held 16#32
  rcases fat16GetTotalItemsForDirectory_some count with ⟨mark, ends⟩
  rw [fat16GetTotalItemsForDirectory_ends _ _ ends] at count
  have same := congrArg Prod.fst (Option.some.inj count)
  rw [later.drive, later.fatPrivate held] at ends same
  exact ⟨mark, ends, same.symm⟩

include served

/-- The slots are served when the heap has room for them. -/
theorem slotBuffer_served_iff :
    (slotBuffer counted.2 (kzalloc kernel 16#32).1 counted.1).1 ≠ 0#32 ↔ SlotsFit kernel.heap counted.1 := by
  have placed := held.kernelHeap.wellPlaced
  have scanned := (fat16GetTotalItemsForDirectory_transferred count).heap
  rcases kzalloc_cases placed 16#32 with ⟨record, hands, result⟩ | ⟨_, result⟩
  · have marked : (kzalloc kernel 16#32).2.heap =
        kernel.heap.withEntries (markExtent kernel.heap.table.entries record) := by
      rw [result]
      rfl
    rw [marked] at scanned
    unfold slotBuffer
    generalize storeEq : storeDirectory counted.2 (kzalloc kernel 16#32).1
      { counted.2.fatDirectories (kzalloc kernel 16#32).1 with total := counted.1 } = stored
    have heap : stored.heap = kernel.heap.withEntries (markExtent kernel.heap.table.entries record) := by
      rw [← storeEq, storeDirectory_heap, scanned]
    have placed' : stored.heap.WellPlaced := by
      rw [heap]
      exact placed.withEntries _
    change (kzalloc stored (intToWord (directorySize counted.1))).1 ≠ 0#32 ↔ _
    rcases kzalloc_cases placed' (intToWord (directorySize counted.1)) with ⟨slots, slotsHands, result'⟩ | ⟨refuses, result'⟩
    · have notNull : stored.heap.addressOf slots.first ≠ 0#32 := placed'.addressOf_ne_null slotsHands.inside
      rw [result']
      refine ⟨fun _ => ⟨record, slots, hands, ?_⟩, fun _ => notNull⟩
      rw [← heap]
      exact slotsHands
    · rw [result']
      refine ⟨fun impossible => absurd rfl impossible, fun fits => ?_⟩
      rcases fits with ⟨record', slots, hands', slotsHands⟩
      obtain rfl := hands.unique hands'
      rw [← heap] at slotsHands
      exact absurd slotsHands.fits (refuses slotsHands.nonzero _)
  · rw [result] at served
    exact absurd rfl served

/-- The read of the slots succeeds when the chain is long enough. -/
theorem slotRead_succeeds_iff (fits : SlotsFit kernel.heap counted.1) :
    (exists reading, fat16ReadInternal (slotBuffer counted.2 (kzalloc kernel 16#32).1 counted.1).2
        (fat16GetFirstCluster slot) 0x00 (directorySize counted.1) (slotBuffer counted.2 (kzalloc kernel 16#32).1 counted.1).1 =
          some reading ∧ 0 ≤ reading.res) ↔
      sizeOfClusterBytes (privateOf kernel) ≠ 0 ∧
        ChainServes kernel (fat16GetFirstCluster slot).toNat 0 (directorySize counted.1) := by
  have later := ((Later.refl kernel).slotBuffer held served count)
  have volume : SameVolume kernel (slotBuffer counted.2 (kzalloc kernel 16#32).1 counted.1).2 :=
    ⟨later.fatPrivate held, later.drive⟩
  rcases counted_eq held count with ⟨mark, ends, total⟩
  rcases fat16GetTotalItemsForDirectory_total count with ⟨number, same, few⟩
  rcases fits with ⟨record, slots, _, hands⟩
  have asked : 0 < directorySize counted.1 := by
    rw [same] at hands ⊢
    have marked : (kernel.heap.withEntries (markExtent kernel.heap.table.entries record)).IsKernelHeap :=
      held.kernelHeap.samePool ⟨rfl, rfl⟩
    exact (directorySize_served marked few hands).2.1
  have bound := directorySize_lt counted.1
  generalize slotBuffer counted.2 (kzalloc kernel 16#32).1 counted.1 = buffer at *
  generalize directorySize counted.1 = bytes at *
  rw [fat16GetFirstCluster_natCast, Int.toNat_natCast]
  generalize (fat16GetFirstCluster slot).toNat = cluster
  unfold fat16ReadInternal fat16ReadInternalFromStream
  by_cases sized : sizeOfClusterBytes (privateOf kernel) = 0
  · have unsized : sizeOfClusterBytes (privateOf buffer.2) = 0 := by
      rw [volume.fatPrivate]
      exact sized
    refine ⟨fun ⟨reading, read, _⟩ => ?_, fun serves => absurd sized serves.1⟩
    rw [readClusters_unsized unsized] at read
    exact absurd read (by simp)
  · have nonnegative := sizeOfClusterBytes_nonneg (privateOf kernel)
    have positive : 0 < sizeOfClusterBytes (privateOf buffer.2) := by
      rw [volume.fatPrivate]
      omega
    have start : sizeOfClusterBytes (privateOf buffer.2) * ((0 : Nat) : Int) = 0 := Int.mul_zero _
    have succeeds := readClusters_succeeds_iff bytes.toNat positive cluster 0 asked (by omega) (by rw [start]; omega)
      (privateOf buffer.2).clusterReadStream buffer.1
    rw [start, ChainServes.congr volume] at succeeds
    rw [succeeds]
    exact ⟨fun serves => ⟨sized, serves⟩, fun serves => serves.2⟩

/-- What a load that succeeds leaves: the record and the slots are new allocations. -/
theorem load_gained (full : (slotBuffer counted.2 (kzalloc kernel 16#32).1 counted.1).1 ≠ 0#32) {reading : Reading}
    (read : fat16ReadInternal (slotBuffer counted.2 (kzalloc kernel 16#32).1 counted.1).2 (fat16GetFirstCluster slot) 0x00
      (directorySize counted.1) (slotBuffer counted.2 (kzalloc kernel 16#32).1 counted.1).1 = some reading) :
    reading.kernel.heap.IsKernelHeap ∧ KeepsObjects (fun _ => True) kernel reading.kernel ∧
      LiveDirectory reading.kernel (kzalloc kernel 16#32).1 ∧ exists slots record, Gained kernel reading.kernel
        [(reading.kernel.fatDirectories (kzalloc kernel 16#32).1).item, (kzalloc kernel 16#32).1] [slots, record] := by
  have placed := held.kernelHeap.wellPlaced
  have nothing := KeepsObjects.refl (fun _ => True) kernel
  rcases nothing.acquired placed served with ⟨record, acquired, _⟩
  have scanned := fat16GetTotalItemsForDirectory_readsFresh ⟨Transferred.refl _, nothing.kzalloc placed 16#32⟩ count
  have recorded := acquired.of_heap scanned.transferred.heap
  rcases slotBuffer_served placed scanned.keeps recorded full with ⟨slots, slotsAcquired, enough, apart⟩
  have filled := slotBuffer_keeps placed scanned.keeps (recorded.fresh_pointer placed scanned.keeps.pool) counted.1
  have fresh := slotsAcquired.freshRange placed filled.pool
  have reads := fat16ReadInternal_readsFresh ⟨Transferred.refl _, filled⟩ (directorySize_lt counted.1)
    (fresh.mono (directorySize_le enough)) read
  have recordKept := (slotBuffer_acquired (scanned.keeps.pool.wellPlaced placed) recorded counted.1).of_heap
    reads.transferred.heap
  have slotsKept := slotsAcquired.of_heap reads.transferred.heap
  have item := slotBuffer_item counted.2 (kzalloc kernel 16#32).1 counted.1
  have total := slotBuffer_total (scanned.keeps.pool.wellPlaced placed) recorded counted.1
  rw [← reads.transferred.fatDirectories] at item total
  have gained : Gained kernel reading.kernel
      [(reading.kernel.fatDirectories (kzalloc kernel 16#32).1).item, (kzalloc kernel 16#32).1] [slots, record] := by
    rw [item]
    exact Gained.of_two slotsKept recordKept apart.symm
  refine ⟨held.kernelHeap.samePool reads.keeps.pool, reads.keeps, ⟨slots, record, gained.allocated, ?_⟩, slots, record, gained⟩
  rcases fat16GetTotalItemsForDirectory_total count with ⟨number, same, few⟩
  rcases (slotBuffer_served_iff held served count).mp full with ⟨_, handed, _, hands⟩
  rw [same] at hands
  have marked {marks : Int -> Byte} : (kernel.heap.withEntries marks).IsKernelHeap := held.kernelHeap.samePool ⟨rfl, rfl⟩
  rcases directorySize_served marked few hands with ⟨straight, asked, _⟩
  rw [total, same]
  refine ⟨Int.natCast_nonneg _, ?_⟩
  rw [← straight, ← same]
  have size := directorySize_le enough
  omega

end Loading

/-- The entries of a directory that ends are counted. -/
theorem count_of_ends {kernel : Kernel} (held : VolumeHeld kernel) {slot : Slot} {mark : Nat}
    (ends : DirectoryEnds (driveOf kernel) (directoryStart kernel slot) mark) :
    exists counted, fat16GetTotalItemsForDirectory (kzalloc kernel 16#32).2
      (fat16ClusterToSector (privateOf (kzalloc kernel 16#32).2) (fat16GetFirstCluster slot)) = some counted ∧
        counted.1 = slotsInUse (driveOf kernel) (directoryStart kernel slot) mark := by
  have later := (Later.refl kernel).kzalloc held 16#32
  have start : directoryStart (kzalloc kernel 16#32).2 slot = directoryStart kernel slot := by
    rw [directoryStart, directoryStart, later.fatPrivate held]
  rw [← later.drive, ← start] at ends ⊢
  exact ⟨_, fat16GetTotalItemsForDirectory_ends _ _ ends, rfl⟩

/-- A load that the disk and the heap let through. -/
theorem LoadsDirectory.attempt {kernel : Kernel} (held : VolumeHeld kernel) {slot : Slot} (loads : LoadsDirectory kernel slot)
    (served : (kzalloc kernel 16#32).1 ≠ 0#32) (directory : (!slot.isSubdirectory) ≠ true) :
    exists reading : Reading, loadAttempt kernel slot = some ⟨reading.res, (kzalloc kernel 16#32).1, reading.kernel⟩ ∧
      0 ≤ reading.res ∧ reading.kernel.heap.IsKernelHeap ∧ KeepsObjects (fun _ => True) kernel reading.kernel ∧
        LiveDirectory reading.kernel (kzalloc kernel 16#32).1 ∧ exists slots record, Gained kernel reading.kernel
          [(reading.kernel.fatDirectories (kzalloc kernel 16#32).1).item, (kzalloc kernel 16#32).1] [slots, record] := by
  rcases loads.whole with ⟨mark, ends, fits, serves⟩
  rcases count_of_ends held ends with ⟨counted, count, total⟩
  rw [← total] at fits serves
  have full := (slotBuffer_served_iff held served count).mpr fits
  rcases (slotRead_succeeds_iff held served count fits).mpr ⟨loads.sized, serves⟩ with ⟨reading, read, succeeds⟩
  refine ⟨reading, ?_, succeeds, load_gained held served count full read⟩
  rw [loadAttempt, if_neg directory]
  dsimp only
  rw [if_neg served, count, Option.bind_some, if_neg full, read]
  rfl

end Fs
end LarvaOS
