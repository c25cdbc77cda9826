import LarvaOS.Fs.DirectoryItems

namespace LarvaOS
namespace Fs

open Library Disk Libc Memory

/-!
# The heap behind an item

What an item takes from the heap is told by the disk and by the heap before it: the item
itself, the copy of a file's entry, the record of a directory and its slots.  A load that fails
gives its part back.  A search makes one item after the other, and the heap in which the last of
them is made follows from the entries before it.
-/

/-! ## The heap behind a load -/

/-- What the load of a directory leaves of the heap. -/
def LoadHeap (kernel : Kernel) (slot : Slot) (heap behind : Heap) : Prop :=
  let record := malloc heap 16#32
  if record.1 = 0#32 then behind = record.2
  else exists mark, DirectoryEnds (driveOf kernel) (directoryStart kernel slot) mark ∧
    let bytes := directorySize (slotsInUse (driveOf kernel) (directoryStart kernel slot) mark)
    let slots := malloc record.2 (intToWord bytes)
    if slots.1 = 0#32 then behind = free slots.2 record.1
    else sizeOfClusterBytes (privateOf kernel) ≠ 0 ∧
      (ChainServes kernel (fat16GetFirstCluster slot).toNat 0 bytes -> behind = slots.2) ∧
      (¬ ChainServes kernel (fat16GetFirstCluster slot).toNat 0 bytes -> behind = free (free slots.2 slots.1) record.1)

/-- What the making of an item leaves of the heap. -/
def ItemHeap (kernel : Kernel) (slot : Slot) (heap behind : Heap) : Prop :=
  let item := malloc heap 8#32
  if item.1 = 0#32 then behind = item.2
  else if slot.isSubdirectory then LoadHeap kernel slot item.2 behind
  else behind = (malloc item.2 32#32).2

theorem LoadHeap.sameVolume {kernel after : Kernel} (same : SameVolume kernel after) {slot : Slot} {heap behind : Heap} :
    LoadHeap after slot heap behind ↔ LoadHeap kernel slot heap behind := by
  unfold LoadHeap
  simp only [same.drive, same.fatPrivate, directoryStart_sameVolume same, ChainServes.congr same]

theorem ItemHeap.sameVolume {kernel after : Kernel} (same : SameVolume kernel after) {slot : Slot} {heap behind : Heap} :
    ItemHeap after slot heap behind ↔ ItemHeap kernel slot heap behind := by
  unfold ItemHeap
  simp only [LoadHeap.sameVolume same]

theorem ItemHeap.congr {kernel : Kernel} {slot slot' : Slot} (same : SameSlot slot slot') {heap behind : Heap} :
    ItemHeap kernel slot heap behind ↔ ItemHeap kernel slot' heap behind := by
  unfold ItemHeap LoadHeap
  rw [same.isSubdirectory, same.directoryStart, same.firstCluster]

theorem slotBuffer_heap (kernel : Kernel) (directory : Word) (totalItems : Int) :
    (slotBuffer kernel directory totalItems).1 = (malloc kernel.heap (intToWord (directorySize totalItems))).1 ∧
      (slotBuffer kernel directory totalItems).2.heap = (malloc kernel.heap (intToWord (directorySize totalItems))).2 := by
  unfold slotBuffer
  dsimp only
  rw [storeDirectory_heap, kzalloc_pointer, kzalloc_heap, storeDirectory_heap]
  exact ⟨rfl, rfl⟩

theorem fat16FreeDirectory_record {kernel : Kernel} {directory : Word} (some : directory ≠ 0#32)
    (none : (kernel.fatDirectories directory).item = 0#32) :
    (fat16FreeDirectory kernel directory).heap = free kernel.heap directory := by
  unfold fat16FreeDirectory
  simp only [some, none, ne_eq, not_true_eq_false, if_false]
  rfl

theorem fat16FreeDirectory_both {kernel : Kernel} {directory : Word} (some : directory ≠ 0#32)
    (slots : (kernel.fatDirectories directory).item ≠ 0#32) :
    (fat16FreeDirectory kernel directory).heap =
      free (free kernel.heap (kernel.fatDirectories directory).item) directory := by
  unfold fat16FreeDirectory
  simp only [some, slots, ne_eq, not_false_eq_true, if_true, if_false]
  rfl

/-- A read that returns has clusters. -/
theorem readInternal_sized {kernel : Kernel} {cluster offset total : Int} {out : Word} {reading : Reading}
    (read : fat16ReadInternal kernel cluster offset total out = some reading) : sizeOfClusterBytes (privateOf kernel) ≠ 0 := by
  intro unsized
  unfold fat16ReadInternal fat16ReadInternalFromStream at read
  rw [readClusters_unsized unsized] at read
  exact absurd read (Option.some_ne_none _).symm

section Loading

variable {kernel : Kernel} (held : VolumeHeld kernel) {slot : Slot} (served : (kzalloc kernel 16#32).1 ≠ 0#32)
  {counted : Int × Kernel}
  (count : fat16GetTotalItemsForDirectory (kzalloc kernel 16#32).2
    (fat16ClusterToSector (privateOf (kzalloc kernel 16#32).2) (fat16GetFirstCluster slot)) = some counted)
include held served count

/-- The read of the slots gives the record and the slots back if it fails. -/
theorem slotRead_heap (full : (slotBuffer counted.2 (kzalloc kernel 16#32).1 counted.1).1 ≠ 0#32) {reading : Reading}
    (read : fat16ReadInternal (slotBuffer counted.2 (kzalloc kernel 16#32).1 counted.1).2 (fat16GetFirstCluster slot) 0x00
      (directorySize counted.1) (slotBuffer counted.2 (kzalloc kernel 16#32).1 counted.1).1 = some reading) :
    let left := if reading.res < 0 then fat16FreeDirectory reading.kernel (kzalloc kernel 16#32).1 else reading.kernel
    let slots := slotBuffer counted.2 (kzalloc kernel 16#32).1 counted.1
    (ChainServes kernel (fat16GetFirstCluster slot).toNat 0 (directorySize counted.1) -> left.heap = slots.2.heap) ∧
      (¬ ChainServes kernel (fat16GetFirstCluster slot).toNat 0 (directorySize counted.1) ->
        left.heap = free (free slots.2.heap slots.1) (kzalloc kernel 16#32).1) := by
  have succeeds := slotRead_succeeds_iff held served count ((slotBuffer_served_iff held served count).mp full)
  have transferred := fat16ReadInternal_transferred (directorySize_lt counted.1) read
  have item := slotBuffer_item counted.2 (kzalloc kernel 16#32).1 counted.1
  rw [← transferred.fatDirectories] at item
  dsimp only
  by_cases failed : reading.res < 0
  · rw [if_pos failed, fat16FreeDirectory_both served (by rw [item]; exact full), item, transferred.heap]
    refine ⟨fun serves => ?_, fun _ => rfl⟩
    have sized := readInternal_sized read
    rw [((Later.refl kernel).slotBuffer held served count).fatPrivate held] at sized
    rcases succeeds.mpr ⟨sized, serves⟩ with ⟨reading', read', nonnegative⟩
    obtain rfl := Option.some.inj (read.symm.trans read')
    exact absurd nonnegative (Int.not_le.mpr failed)
  · rw [if_neg failed]
    refine ⟨fun _ => transferred.heap, fun refuses => ?_⟩
    exact absurd (succeeds.mp ⟨reading, read, Int.not_lt.mp failed⟩).2 refuses

/-- The part behind the scan leaves the heap as it is told. -/
theorem loadSlots_heap_iff (behind : Heap) :
    (exists loaded, loadSlots counted.2 (kzalloc kernel 16#32).1 (fat16GetFirstCluster slot) counted.1 = some loaded ∧
      loaded.2.heap = behind) ↔
    let slots := malloc (kzalloc kernel 16#32).2.heap (intToWord (directorySize counted.1))
    if slots.1 = 0#32 then behind = free slots.2 (kzalloc kernel 16#32).1
    else sizeOfClusterBytes (privateOf kernel) ≠ 0 ∧
      (ChainServes kernel (fat16GetFirstCluster slot).toNat 0 (directorySize counted.1) -> behind = slots.2) ∧
      (¬ ChainServes kernel (fat16GetFirstCluster slot).toNat 0 (directorySize counted.1) ->
        behind = free (free slots.2 slots.1) (kzalloc kernel 16#32).1) := by
  have scanned := (fat16GetTotalItemsForDirectory_transferred count).heap
  have item := slotBuffer_item counted.2 (kzalloc kernel 16#32).1 counted.1
  rcases slotBuffer_heap counted.2 (kzalloc kernel 16#32).1 counted.1 with ⟨pointer, heap⟩
  rw [scanned] at pointer heap
  dsimp only
  rw [← pointer, ← heap]
  unfold loadSlots
  dsimp only
  by_cases full : (slotBuffer counted.2 (kzalloc kernel 16#32).1 counted.1).1 = 0#32
  · rw [if_pos full, if_pos full]
    have released := fat16FreeDirectory_record served (item.trans full)
    constructor
    · rintro ⟨loaded, load, same⟩
      obtain rfl := Option.some.inj load
      exact same.symm.trans released
    · rintro rfl
      exact ⟨_, rfl, released⟩
  · rw [if_neg full, if_neg full]
    have same := ((Later.refl kernel).slotBuffer held served count).fatPrivate held
    constructor
    · rintro ⟨loaded, load, left⟩
      rcases Option.map_eq_some_iff.mp load with ⟨reading, read, rfl⟩
      have sized := readInternal_sized read
      rw [same] at sized
      rcases slotRead_heap held served count full read with ⟨whole, cut⟩
      exact ⟨sized, fun serves => left.symm.trans (whole serves), fun refuses => left.symm.trans (cut refuses)⟩
    · rintro ⟨sized, whole, cut⟩
      rw [← same] at sized
      rcases fat16ReadInternal_returns sized (fat16GetFirstCluster slot) 0x00 (directorySize counted.1)
        (slotBuffer counted.2 (kzalloc kernel 16#32).1 counted.1).1 with ⟨reading, read⟩
      rcases slotRead_heap held served count full read with ⟨wholeLeft, cutLeft⟩
      refine ⟨_, Option.map_eq_some_iff.mpr ⟨reading, read, rfl⟩, ?_⟩
      by_cases serves : ChainServes kernel (fat16GetFirstCluster slot).toNat 0 (directorySize counted.1)
      · exact (wholeLeft serves).trans (whole serves).symm
      · exact (cutLeft serves).trans (cut serves).symm

end Loading

/-- A load leaves the heap as it is told. -/
theorem fat16LoadFatDirectory_heap_iff {kernel : Kernel} (held : VolumeHeld kernel) {slot : Slot}
    (directory : slot.isSubdirectory = true) (behind : Heap) :
    (exists loaded, fat16LoadFatDirectory kernel slot = some loaded ∧ loaded.2.heap = behind) ↔
      LoadHeap kernel slot kernel.heap behind := by
  have file : ¬ (!slot.isSubdirectory) = true := by simpa using directory
  unfold LoadHeap fat16LoadFatDirectory
  dsimp only
  rw [if_neg file, ← kzalloc_pointer, ← kzalloc_heap]
  by_cases served : (kzalloc kernel 16#32).1 = 0#32
  · rw [if_pos served, if_pos served]
    constructor
    · rintro ⟨loaded, load, heap⟩
      obtain rfl := Option.some.inj load
      exact heap.symm
    · rintro rfl
      exact ⟨_, rfl, rfl⟩
  · rw [if_neg served, if_neg served]
    constructor
    · rintro ⟨loaded, load, heap⟩
      rcases Option.bind_eq_some_iff.mp load with ⟨counted, count, slots⟩
      rcases counted_eq held count with ⟨mark, ends, total⟩
      refine ⟨mark, ends, ?_⟩
      rw [← total]
      exact (loadSlots_heap_iff held served count behind).mp ⟨loaded, slots, heap⟩
    · rintro ⟨mark, ends, told⟩
      rcases count_of_ends held ends with ⟨counted, count, total⟩
      rw [← total] at told
      rcases (loadSlots_heap_iff held served count behind).mpr told with ⟨loaded, slots, heap⟩
      refine ⟨loaded, ?_, heap⟩
      rw [count]
      exact slots

/-- The copy of a file's entry takes what its allocation takes. -/
theorem fat16CloneDirectoryItem_heap (kernel : Kernel) (slot : Slot) :
    (fat16CloneDirectoryItem kernel slot).2.heap = (malloc kernel.heap 32#32).2 := by
  rw [← kzalloc_heap]
  unfold fat16CloneDirectoryItem
  by_cases refused : (kzalloc kernel 32#32).1 = 0#32
  · rw [if_pos refused]
  · rw [if_neg refused]
    rfl

/-- The making of an item leaves the heap as it is told. -/
theorem fat16MakeNewFatItemForDirectoryItem_heap_iff {kernel : Kernel} (held : VolumeHeld kernel) (slot : Slot)
    (behind : Heap) :
    (exists made, fat16MakeNewFatItemForDirectoryItem kernel slot = some made ∧ made.2.heap = behind) ↔
      ItemHeap kernel slot kernel.heap behind := by
  have itemLater := (Later.refl kernel).kzalloc held 8#32
  unfold ItemHeap fat16MakeNewFatItemForDirectoryItem
  dsimp only
  rw [← kzalloc_pointer, ← kzalloc_heap]
  by_cases refused : (kzalloc kernel 8#32).1 = 0#32
  · rw [if_pos refused, if_pos refused]
    constructor
    · rintro ⟨made, make, heap⟩
      obtain rfl := Option.some.inj make
      exact heap.symm
    · rintro rfl
      exact ⟨_, rfl, rfl⟩
  · rw [if_neg refused, if_neg refused]
    by_cases directory : slot.isSubdirectory = true
    · rw [if_pos directory, if_pos directory, ← LoadHeap.sameVolume (itemLater.sameVolume held),
        ← fat16LoadFatDirectory_heap_iff (itemLater.volumeHeld held) directory behind]
      constructor
      · rintro ⟨made, make, heap⟩
        rcases Option.map_eq_some_iff.mp make with ⟨loaded, load, rfl⟩
        exact ⟨loaded, load, heap⟩
      · rintro ⟨loaded, load, heap⟩
        exact ⟨_, Option.map_eq_some_iff.mpr ⟨loaded, load, rfl⟩, heap⟩
    · rw [if_neg directory, if_neg directory, ← fat16CloneDirectoryItem_heap _ slot]
      generalize fat16CloneDirectoryItem (kzalloc kernel 8#32).2 slot = copy
      constructor
      · rintro ⟨made, make, heap⟩
        obtain rfl := Option.some.inj make
        exact heap.symm
      · rintro rfl
        exact ⟨_, rfl, rfl⟩

/-! ## The heap behind a search -/

/-- What the items of the slots that are taken for the name leave of the heap, one after the
other. -/
def HeapAlong (kernel : Kernel) (slots : Nat -> Slot) (name : List Byte) : List Nat -> Heap -> Heap -> Prop
  | [], heap, behind => behind = heap
  | index :: rest, heap, behind =>
      if TakenFor name (slots index) then
        exists next, ItemHeap kernel (slots index) heap next ∧ HeapAlong kernel slots name rest next behind
      else HeapAlong kernel slots name rest heap behind

/-- The same volume and the same slots, as far as they are visited. -/
theorem HeapAlong.congr {kernel after : Kernel} (same : SameVolume kernel after) {slots slots' : Nat -> Slot}
    {name : List Byte} {indexes : List Nat}
    (sameSlots : forall index, index ∈ indexes -> SameSlot (slots index) (slots' index)) {heap behind : Heap} :
    HeapAlong after slots name indexes heap behind ↔ HeapAlong kernel slots' name indexes heap behind := by
  induction indexes generalizing heap with
  | nil => exact Iff.rfl
  | cons index rest inductionHypothesis =>
      have here := sameSlots index List.mem_cons_self
      have below {heap : Heap} := @inductionHypothesis (fun other member => sameSlots other (List.mem_cons_of_mem index member)) heap
      have taken : TakenFor name (slots index) ↔ TakenFor name (slots' index) := TakenFor.congr here
      rw [HeapAlong, HeapAlong]
      simp only [taken, below, ItemHeap.sameVolume same, ItemHeap.congr here]

/-- A search leaves the heap as it is told. -/
theorem searchFrom_heap_iff {kernel : Kernel} (held : VolumeHeld kernel) {guard : Extent -> Prop}
    {directory : FatDirectory} (owned : SlotsOwned guard kernel directory) {name : List Byte} {indexes : List Nat}
    (inside : forall index, index ∈ indexes -> index < directory.total.toNat) {search : Search}
    (later : Later kernel search.kernel) (behind : Heap) :
    (exists found, searchFrom directory name indexes search = some found ∧ found.kernel.heap = behind) ↔
      HeapAlong kernel (memorySlot kernel directory) name indexes search.kernel.heap behind := by
  induction indexes generalizing search with
  | nil =>
      constructor
      · rintro ⟨found, same, heap⟩
        obtain rfl := Option.some.inj same
        exact heap.symm
      · rintro rfl
        exact ⟨search, rfl, rfl⟩
  | cons index rest inductionHypothesis =>
      have insideRest : forall other, other ∈ rest -> other < directory.total.toNat :=
        fun other member => inside other (List.mem_cons_of_mem index member)
      have same := later.sameSlot owned (inside index List.mem_cons_self)
      rw [searchFrom, HeapAlong]
      by_cases taken : TakenFor name (memorySlot search.kernel directory index)
      · rw [if_pos taken, if_pos ((TakenFor.congr same).mp taken)]
        have item (next : Heap) := fat16MakeNewFatItemForDirectoryItem_heap_iff (later.volumeHeld held)
          (memorySlot search.kernel directory index) next
        simp only [ItemHeap.sameVolume (later.sameVolume held), ItemHeap.congr same] at item
        constructor
        · rintro ⟨found, search', heap⟩
          rcases Option.bind_eq_some_iff.mp search' with ⟨made, make, rest⟩
          refine ⟨made.2.heap, (item _).mp ⟨made, make, rfl⟩, ?_⟩
          exact (@inductionHypothesis insideRest ⟨some index, made.1, made.2⟩ (later.make held make)).mp ⟨found, rest, heap⟩
        · rintro ⟨next, itemHeap, along⟩
          rcases (item next).mpr itemHeap with ⟨made, make, rfl⟩
          rcases (@inductionHypothesis insideRest ⟨some index, made.1, made.2⟩ (later.make held make)).mpr along with ⟨found, rest, heap⟩
          refine ⟨found, ?_, heap⟩
          rw [make]
          exact rest
      · rw [if_neg taken, if_neg fun here => taken ((TakenFor.congr same).mpr here)]
        exact inductionHypothesis insideRest later

end Fs
end LarvaOS
