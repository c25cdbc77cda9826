import LarvaOS.Fs.ItemHeap
import LarvaOS.Fs.ResolveFailure

namespace LarvaOS
namespace Fs

open Library Disk Libc Memory

/-!
# Finding an item in a directory

The search of the source visits as many slots as are in use, but it begins with the first slot
of the buffer, and deleted slots are in the buffer like the others.  Whether it finds what the
directory holds is told by the first slots on the disk, as many as are in use, and by the heap,
from which the items are made.
-/

/-! ## The promise -/

/-- What the search of a directory promises: it returns, with an item exactly when a slot in
use has the name, and the item stands for such a slot. -/
def FindsHeld (stored : StoredDirectory) (kernel : Kernel) (directory : FatDirectory) (name : List Byte) : Prop :=
  exists found, searchFrom directory name (visitedSlots directory) (Search.start kernel) = some found ∧
    (found.item ≠ 0#32 ↔ exists index, stored.Holds name index) ∧
      (found.item ≠ 0#32 -> exists origin index, found.origin = some origin ∧ stored.Holds name index ∧
        SameSlot (memorySlot kernel directory origin) (stored.slots index) ∧
          IsItemOf (stored.slots index) found.item found.kernel)

/-- The last of the first slots that are taken for the name decides.  When it is visited, the
heap has no block left and no slot in use has the name, or its item can be made and it is a
slot in use with the name.  Without such a slot no slot in use has the name. -/
def SlotsTold (kernel : Kernel) (slots : Nat -> Slot) (total : Nat) (heap : Heap) (stored : StoredDirectory)
    (name : List Byte) : Prop :=
  (exists last behind, LastBelow (fun index => TakenFor name (slots index)) total last ∧
    HeapAlong kernel slots name (List.range last) heap behind ∧
      ((malloc behind 8#32).1 = 0#32 ∧ (¬ exists index, stored.Holds name index) ∨
        MakesItem kernel behind (slots last) ∧
          exists index, stored.Holds name index ∧ SameSlot (slots last) (stored.slots index))) ∨
  (forall index, index < total -> ¬ TakenFor name (slots index)) ∧ ¬ exists index, stored.Holds name index

section Searching

variable {kernel : Kernel} (held : VolumeHeld kernel) {guard : Extent -> Prop} {directory : FatDirectory}
  (owned : SlotsOwned guard kernel directory) (stored : StoredDirectory) {name : List Byte}
include held owned

/-- The promise for a directory with a slot that is taken for the name. -/
theorem findsHeld_iff_last {last : Nat} (lastTaken : LastTaken (memorySlot kernel directory) directory name last) :
    FindsHeld stored kernel directory name ↔
      exists behind, HeapAlong kernel (memorySlot kernel directory) name (List.range last) kernel.heap behind ∧
        ((malloc behind 8#32).1 = 0#32 ∧ (¬ exists index, stored.Holds name index) ∨
          MakesItem kernel behind (memorySlot kernel directory last) ∧
            exists index, stored.Holds name index ∧ SameSlot (memorySlot kernel directory last) (stored.slots index)) := by
  have decided := searchFrom_last held.kernelHeap owned lastTaken
  have inside : forall index, index ∈ List.range last -> index < directory.total.toNat :=
    fun index member => Nat.lt_trans (List.mem_range.mp member) lastTaken.below
  have heapOf (behind : Heap) :
      (exists reached, searchFrom directory name (List.range last) (Search.start kernel) = some reached ∧
        reached.kernel.heap = behind) ↔
      HeapAlong kernel (memorySlot kernel directory) name (List.range last) kernel.heap behind :=
    searchFrom_heap_iff held owned inside (Later.refl kernel) behind
  have reachedLater {reached : Search} (reach : searchFrom directory name (List.range last) (Search.start kernel) = some reached) :
      Later kernel reached.kernel :=
    ⟨searchFrom_keeps held.kernelHeap (KeepsObjects.refl _ kernel) reach, searchFrom_requests reach⟩
  -- an item is whole when the disk and the heap let it be made, told by the volume as it was
  have whole {reached : Search} {made : Word × Kernel}
      (reach : searchFrom directory name (List.range last) (Search.start kernel) = some reached)
      (make : fat16MakeNewFatItemForDirectoryItem reached.kernel (memorySlot reached.kernel directory last) = some made) :
      made.1 ≠ 0#32 ∧ IsItemOf (memorySlot kernel directory last) made.1 made.2 ↔
        MakesItem kernel reached.kernel.heap (memorySlot kernel directory last) := by
    have later := reachedLater reach
    have same := later.sameSlot owned lastTaken.below
    rw [← MakesItem.sameVolume (later.sameVolume held), ← MakesItem.congr same,
      ← fat16MakeNewFatItemForDirectoryItem_isItem_iff (later.volumeHeld held) make]
    exact ⟨fun isItem => ⟨isItem.1, isItem.2.congr same.symm⟩, fun isItem => ⟨isItem.1, isItem.2.congr same⟩⟩
  constructor
  · rintro ⟨found, search, exactly, built⟩
    rw [decided] at search
    rcases Option.bind_eq_some_iff.mp search with ⟨reached, reach, mapped⟩
    rcases Option.map_eq_some_iff.mp mapped with ⟨made, make, rfl⟩
    refine ⟨reached.kernel.heap, (heapOf _).mp ⟨reached, reach, rfl⟩, ?_⟩
    by_cases null : made.1 = 0#32
    · exact Or.inl ⟨(fat16MakeNewFatItemForDirectoryItem_null_iff make).mp null, fun holder => exactly.mpr holder null⟩
    · rcases built null with ⟨origin, index, same, holds, sameSlot, isItem⟩
      obtain rfl := Option.some.inj same
      exact Or.inr ⟨(whole reach make).mp ⟨null, isItem.congr sameSlot.symm⟩, index, holds, sameSlot⟩
  · rintro ⟨behind, along, told⟩
    rcases (heapOf behind).mpr along with ⟨reached, reach, rfl⟩
    have later := reachedLater reach
    have same := later.sameSlot owned lastTaken.below
    have returns : exists made,
        fat16MakeNewFatItemForDirectoryItem reached.kernel (memorySlot reached.kernel directory last) = some made := by
      rcases told with ⟨refused, _⟩ | ⟨makes, _⟩
      · exact fat16MakeNewFatItemForDirectoryItem_refused refused
      · rw [← MakesItem.sameVolume (later.sameVolume held), ← MakesItem.congr same] at makes
        exact makes.returns (later.volumeHeld held)
    rcases returns with ⟨made, make⟩
    have found : searchFrom directory name (visitedSlots directory) (Search.start kernel) =
        some ⟨some last, made.1, made.2⟩ := by
      rw [decided, reach, Option.bind_some, make]
      rfl
    refine ⟨_, found, ?_⟩
    rcases told with ⟨refused, none⟩ | ⟨makes, index, holds, sameSlot⟩
    · have null := (fat16MakeNewFatItemForDirectoryItem_null_iff make).mpr refused
      exact ⟨⟨fun item => absurd null item, fun holder => absurd holder none⟩, fun item => absurd null item⟩
    · rcases (whole reach make).mpr makes with ⟨nonNull, isItem⟩
      exact ⟨⟨fun _ => ⟨index, holds⟩, fun _ => nonNull⟩,
        fun _ => ⟨last, index, rfl, holds, sameSlot, isItem.congr sameSlot⟩⟩

/-- The promise is kept exactly as the slots in memory tell. -/
theorem findsHeld_iff_slotsTold (name : List Byte) :
    FindsHeld stored kernel directory name ↔
      SlotsTold kernel (memorySlot kernel directory) directory.total.toNat kernel.heap stored name := by
  by_cases taken : exists index, index < directory.total.toNat ∧ TakenFor name (memorySlot kernel directory index)
  · rcases exists_lastBelow taken with ⟨last, lastTaken⟩
    rw [findsHeld_iff_last held owned stored lastTaken]
    constructor
    · rintro ⟨behind, along, told⟩
      exact Or.inl ⟨last, behind, lastTaken, along, told⟩
    · rintro (⟨other, behind, otherTaken, along, told⟩ | ⟨untaken, _⟩)
      · obtain rfl := otherTaken.unique lastTaken
        exact ⟨behind, along, told⟩
      · exact absurd lastTaken.here (untaken last lastTaken.below)
  · have untaken : forall index, index < directory.total.toNat ->
        ¬ TakenFor name (memorySlot kernel directory index) :=
      fun index below here => taken ⟨index, below, here⟩
    have nothing := searchFrom_none untaken
    constructor
    · rintro ⟨found, same, exactly, _⟩
      obtain rfl := Option.some.inj (nothing.symm.trans same)
      exact Or.inr ⟨untaken, fun held => exactly.mpr held rfl⟩
    · rintro (⟨last, _, lastTaken, _⟩ | ⟨_, none⟩)
      · exact absurd lastTaken.here (untaken last lastTaken.below)
      · exact ⟨_, nothing, ⟨fun item => absurd rfl item, fun held => absurd held none⟩, fun item => absurd rfl item⟩

end Searching

/-- What is told depends on the volume and on the slots that are visited. -/
theorem SlotsTold.congr {kernel after : Kernel} (volume : SameVolume kernel after) {slots slots' : Nat -> Slot} {total : Nat}
    (same : forall index, index < total -> SameSlot (slots index) (slots' index)) {heap : Heap} {stored : StoredDirectory}
    {name : List Byte} (told : SlotsTold after slots total heap stored name) :
    SlotsTold kernel slots' total heap stored name := by
  rcases told with ⟨last, behind, lastTaken, along, ending⟩ | ⟨untaken, none⟩
  · have here := same last lastTaken.below
    have before : forall index, index ∈ List.range last -> SameSlot (slots index) (slots' index) :=
      fun index member => same index (Nat.lt_trans (List.mem_range.mp member) lastTaken.below)
    refine Or.inl ⟨last, behind, ⟨lastTaken.below, (TakenFor.congr here).mp lastTaken.here, ?_⟩,
      (HeapAlong.congr volume before).mp along, ?_⟩
    · intro index after below taken
      exact lastTaken.behind index after below ((TakenFor.congr (same index below)).mpr taken)
    · rcases ending with refused | ⟨makes, index, holds, sameSlot⟩
      · exact Or.inl refused
      · exact Or.inr ⟨(MakesItem.congr here).mp ((MakesItem.sameVolume volume).mp makes), index, holds, here.symm.trans sameSlot⟩
  · exact Or.inr ⟨fun index below taken => untaken index below ((TakenFor.congr (same index below)).mpr taken), none⟩

/-! ## The root directory -/

/-- An accepted disk has its private data in memory. -/
theorem fat16Resolve_served {kernel resolved : Kernel} (placed : kernel.heap.WellPlaced)
    (accepted : fat16Resolve kernel = some (0, resolved)) : privatePointer kernel ≠ 0#32 := by
  have one : blocksFor sizeofPrivateData = 1 := by decide
  rw [privatePointer, ne_eq, (kzalloc_freeBlocks placed one).1]
  intro exhausted
  have none : (bootStream kernel).1 = 0#32 := (bootStream_null_iff placed).mpr (by omega)
  rw [fat16Resolve_eq, if_pos none] at accepted
  have res : - ENOMEM = 0 := (finishResolve_failed (bootStream kernel).2 (bootStream kernel).1
    (privatePointer kernel) (by decide)).symm.trans (congrArg Prod.fst (Option.some.inj accepted))
  exact absurd res (by decide)

/-- The promise for the root directory is kept exactly as the slots on the disk tell. -/
theorem RootHeld.searched_iff {kernel : Kernel} {mark : Nat} (root : RootHeld kernel mark) (name : List Byte) :
    let stored := storedRoot (driveOf kernel) (privateOf kernel).header
    FindsHeld stored kernel (privateOf kernel).rootDir name ↔
      SlotsTold kernel stored.slots (countedBefore notDeleted (fun index => stored.slots index 0) mark) kernel.heap
        stored name := by
  rcases root.root with ⟨total, ⟨guard, owned⟩, same⟩
  have number : (privateOf kernel).rootDir.total.toNat = countedBefore notDeleted
      (fun index => (storedRoot (driveOf kernel) (privateOf kernel).header).slots index 0) mark := by
    rw [total, Int.toNat_natCast]
  have volume : SameVolume kernel kernel := ⟨rfl, rfl⟩
  dsimp only
  rw [findsHeld_iff_slotsTold root.held owned, ← number]
  exact ⟨SlotsTold.congr volume same, SlotsTold.congr volume fun index below => (same index below).symm⟩

/-! ## Subdirectories -/

/-- A directory that was loaded without an error keeps what the search promises. -/
def FindsInSubdirectory (stored : StoredDirectory) (kernel : Kernel) (slot : Slot) (name : List Byte) : Prop :=
  exists attempt, loadAttempt kernel slot = some attempt ∧ 0 ≤ attempt.res ∧
    FindsHeld stored attempt.out.2 (attempt.out.2.fatDirectories attempt.out.1) name

/-- The disk and the heap let the directory be loaded, and the first slots of its clusters, as
many as the scan counts, tell of the name.  The search has the heap that the record and the
slots leave. -/
def SubdirectoryTold (stored : StoredDirectory) (kernel : Kernel) (slot : Slot) (name : List Byte) : Prop :=
  slot.isSubdirectory = true ∧ LoadsDirectory kernel slot ∧
    exists mark, DirectoryEnds (driveOf kernel) (directoryStart kernel slot) mark ∧
      let total := slotsInUse (driveOf kernel) (directoryStart kernel slot) mark
      SlotsTold kernel (chainSlot kernel slot) total
        (malloc (malloc kernel.heap 16#32).2 (intToWord (directorySize total))).2 stored name

/-- The slots of a directory in memory lie in an allocation. -/
theorem LiveDirectory.slotsOwned {kernel : Kernel} (kernelHeap : kernel.heap.IsKernelHeap) {directory : Word}
    (live : LiveDirectory kernel directory) : SlotsOwned (fun _ => True) kernel (kernel.fatDirectories directory) := by
  rcases live with ⟨slots, record, allocated, _, room⟩
  rcases allocated.head with ⟨extent, _, same, owned, address, _⟩
  obtain ⟨rfl, _⟩ := List.cons.inj same
  intro index below place within
  refine ⟨slots, trivial, owned, kernelHeap.wellPlaced.inExtent_of_page owned ?_⟩
  have blocks : kernel.heap.table.total.toNat = 25600 := by
    rw [kernelHeap.total]
    rfl
  have pool := owned.within
  rw [blocks] at pool
  have inside : slotSize * index + place < heapBlockSizeBytes * slots.count := by
    unfold slotSize heapBlockSizeBytes at *
    omega
  rw [slotAddress_place, ← address, offset_toNat _ (by unfold heapBlockSizeBytes at inside; omega)]
  exact inside

section Loaded

variable {kernel : Kernel} (held : VolumeHeld kernel) {slot : Slot} (directory : slot.isSubdirectory = true)
  {loaded : Word × Kernel} (load : fat16LoadFatDirectory kernel slot = some loaded)
include held load

theorem loaded_later : Later kernel loaded.2 :=
  ⟨(fat16LoadFatDirectory_keeps held.kernelHeap (KeepsObjects.refl _ kernel) load).1,
    fat16LoadFatDirectory_requests (Requests.refl kernel) load⟩

include directory

/-- The record and the slots are all that a directory takes from the heap. -/
theorem loaded_heap (loads : LoadsDirectory kernel slot) {mark : Nat}
    (ends : DirectoryEnds (driveOf kernel) (directoryStart kernel slot) mark) :
    loaded.2.heap = (malloc (malloc kernel.heap 16#32).2
      (intToWord (directorySize (slotsInUse (driveOf kernel) (directoryStart kernel slot) mark)))).2 := by
  have told := (fat16LoadFatDirectory_heap_iff held directory loaded.2.heap).mp ⟨loaded, load, rfl⟩
  rcases loads.whole with ⟨mark', ends', fits, serves⟩
  obtain rfl := ends'.unique ends
  have served := fits.record_served held.kernelHeap.wellPlaced
  rcases count_of_ends held ends with ⟨counted, count, total⟩
  rw [← total] at fits serves ⊢
  have full := (slotBuffer_served_iff held served count).mpr fits
  have heap := (slotBuffer_heap counted.2 (kzalloc kernel 16#32).1 counted.1).1
  rw [(fat16GetTotalItemsForDirectory_transferred count).heap, kzalloc_heap] at heap
  unfold LoadHeap at told
  dsimp only at told
  rw [kzalloc_pointer] at served
  rw [if_neg served] at told
  rcases told with ⟨mark'', ends'', told⟩
  obtain rfl := ends''.unique ends
  rw [← total, if_neg (heap ▸ full)] at told
  exact told.2.1 serves

/-- The search in a directory that was loaded. -/
theorem loaded_findsHeld_iff (loads : LoadsDirectory kernel slot) (holds : HoldsDirectory loaded.2 slot loaded.1)
    (stored : StoredDirectory) (name : List Byte) :
    FindsHeld stored loaded.2 (loaded.2.fatDirectories loaded.1) name ↔
      exists mark, DirectoryEnds (driveOf kernel) (directoryStart kernel slot) mark ∧
        let total := slotsInUse (driveOf kernel) (directoryStart kernel slot) mark
        SlotsTold kernel (chainSlot kernel slot) total
          (malloc (malloc kernel.heap 16#32).2 (intToWord (directorySize total))).2 stored name := by
  have later := loaded_later held load
  have volume := later.sameVolume held
  rcases holds with ⟨live, ⟨mark, ends, total⟩, slots⟩
  rw [volume.drive, directoryStart_sameVolume volume] at ends total
  have number : (loaded.2.fatDirectories loaded.1).total.toNat =
      slotsInUse (driveOf kernel) (directoryStart kernel slot) mark := by
    rw [total, Int.toNat_natCast]
  have same : forall index, index < slotsInUse (driveOf kernel) (directoryStart kernel slot) mark ->
      SameSlot (memorySlot loaded.2 (loaded.2.fatDirectories loaded.1) index) (chainSlot kernel slot index) := by
    intro index below
    rw [← chainSlot_sameVolume volume]
    exact slots index (number ▸ below)
  rw [findsHeld_iff_slotsTold (later.volumeHeld held) (live.slotsOwned (later.volumeHeld held).kernelHeap), number,
    loaded_heap held directory load loads ends]
  constructor
  · exact fun told => ⟨mark, ends, told.congr volume same⟩
  · rintro ⟨mark', ends', told⟩
    obtain rfl := ends'.unique ends
    exact told.congr ⟨volume.fatPrivate.symm, volume.drive.symm⟩ fun index below => (same index below).symm

end Loaded

/-- What a load without an error returns. -/
theorem attempt_out {kernel : Kernel} {slot : Slot} {attempt : LoadAttempt}
    (attempts : loadAttempt kernel slot = some attempt) (succeeds : 0 ≤ attempt.res) :
    fat16LoadFatDirectory kernel slot = some (attempt.directory, attempt.kernel) ∧
      attempt.out = (attempt.directory, attempt.kernel) := by
  have out : attempt.out = (attempt.directory, attempt.kernel) :=
    congrArg (Prod.mk _) (if_neg (Int.not_lt.mpr succeeds))
  rw [fat16LoadFatDirectory_eq, attempts, Option.map_some, out]
  exact ⟨rfl, rfl⟩

/-- The promise for a subdirectory is kept exactly as the disk and the heap tell. -/
theorem findsInSubdirectory_iff {kernel : Kernel} (held : VolumeHeld kernel) (slot : Slot) (stored : StoredDirectory)
    (name : List Byte) : FindsInSubdirectory stored kernel slot name ↔ SubdirectoryTold stored kernel slot name := by
  constructor
  · rintro ⟨attempt, attempts, succeeds, finds⟩
    rcases attempt_out attempts succeeds with ⟨load, out⟩
    rw [out] at finds
    have directory : slot.isSubdirectory = true := by
      by_contra file
      rw [loadAttempt, if_pos (by simpa using file)] at attempts
      obtain rfl := Option.some.inj attempts
      exact absurd succeeds (show ¬ 0 ≤ - EINVAL by decide)
    rcases loadAttempt_cases held directory attempts with ⟨_, loads, holds⟩ | ⟨failed, _, _⟩
    · exact ⟨directory, loads, (loaded_findsHeld_iff held directory load loads holds stored name).mp finds⟩
    · exact absurd succeeds (Int.not_le.mpr failed)
  · rintro ⟨directory, loads, told⟩
    rcases loads.whole with ⟨_, _, fits, _⟩
    have served := fits.record_served held.kernelHeap.wellPlaced
    rcases loads.attempt held served (by simpa using directory) with ⟨reading, attempts, succeeds, _⟩
    refine ⟨_, attempts, succeeds, ?_⟩
    rcases loadAttempt_cases held directory attempts with ⟨_, _, holds⟩ | ⟨failed, _, _⟩
    · have out := attempt_out attempts succeeds
      rw [out.2]
      exact (loaded_findsHeld_iff held directory out.1 loads holds stored name).mpr told
    · exact absurd succeeds (Int.not_le.mpr failed)

/-! ## The condition -/

/-- An accepted disk has its root directory in memory.  From there on the promise is kept, for
the root directory and for every subdirectory, exactly as the slots on the disk and the heap
before the search tell. -/
theorem findsHeld_iff (name : List Byte) :
    (forall {kernel resolved : Kernel} {mark : Nat}, kernel.heap.IsKernelHeap ->
      fat16Resolve kernel = some (0, resolved) -> RootEnds (driveOf kernel) (bootSector kernel) mark ->
      RootHeld resolved mark) ∧
    (forall {kernel : Kernel} {mark : Nat}, RootHeld kernel mark ->
      let stored := storedRoot (driveOf kernel) (privateOf kernel).header
      (FindsHeld stored kernel (privateOf kernel).rootDir name ↔
        SlotsTold kernel stored.slots (countedBefore notDeleted (fun index => stored.slots index 0) mark) kernel.heap
          stored name)) ∧
    (forall {kernel : Kernel}, VolumeHeld kernel ->
      forall (slot : Slot) (chain : StoredChain (driveOf kernel) (privateOf kernel).header),
        chain.first = slot.low16BitsFirstCluster ->
        (FindsInSubdirectory chain.directory kernel slot name ↔ SubdirectoryTold chain.directory kernel slot name)) := by
  refine ⟨fun kernelHeap accepted ends => ?_, fun root => root.searched_iff name, fun held slot chain _ => ?_⟩
  · exact fat16Resolve_rootHeld kernelHeap accepted (fat16Resolve_served kernelHeap.wellPlaced accepted) ends
  · exact findsInSubdirectory_iff held slot chain.directory name

/-! ## A deleted file -/

/-- A volume with the file `B`, the directory `D`, a deleted slot and the file `A` in the root
directory.  The directory holds a deleted slot and a file `A` as well. -/
abbrev deletedVolume : Kernel :=
  kheapInit
    (Kernel.loaded Store.blank
      (fun sector place =>
        if sector = 0 then
          if place = 13 ∨ place = 14 ∨ place = 22 then 1#8 else if place = 16 then 2#8 else if place = 17 then 16#8
          else if place = 38 then FAT16_SIGNATURE else 0#8
        else if sector = 1 ∧ (place = 4 ∨ place = 5) then 0xFF#8
        else if sector = 3 ∧ place < 128 then
          if place % 32 = 0 then
            if place = 0 then 0x42#8 else if place = 32 then 0x44#8 else if place = 64 then slotDeleted else 0x41#8
          else if place % 32 < 11 then 0x20#8 else if place = 43 then 0x10#8 else if place = 58 then 2#8 else 0#8
        else if sector = 4 ∧ place < 64 then
          if place = 0 then slotDeleted else if place = 32 then 0x41#8 else if place % 32 < 11 then 0x20#8 else 0#8
        else 0#8)
      fun _ => 0#8)
    fun _ => 0#8

theorem deletedVolume_room : RoomFrom deletedVolume 0 := ⟨kheapInit_isKernelHeap _ _, kheapInit_freeFrom _ _⟩

theorem deletedVolume_ends : RootEnds (driveOf deletedVolume) (bootSector deletedVolume) 4 :=
  ⟨⟨by decide, by decide⟩, by decide, by decide⟩

/-- The chain of the directory `D` has one cluster. -/
theorem deletedVolume_chain :
    DataCluster (storedCluster (driveOf deletedVolume) (bootSector deletedVolume) 2 0) ∧
      0xFFF8 ≤ storedCluster (driveOf deletedVolume) (bootSector deletedVolume) 2 1 :=
  ⟨⟨by decide, by decide⟩, by decide⟩

def deletedChain : StoredChain (driveOf deletedVolume) (bootSector deletedVolume) where
  first := 2
  length := 1
  data := fun _ inside => Nat.lt_one_iff.mp inside ▸ deletedVolume_chain.1
  ends := deletedVolume_chain.2

theorem deletedVolume_resolved : exists resolved, fat16Resolve deletedVolume = some (0, resolved) ∧
    Resolved deletedVolume resolved ∧ RoomFrom resolved 517 := by
  rcases @fat16Resolve_room _ deletedVolume_room (by decide) (by decide) 4 deletedVolume_ends.directoryEnds with
    ⟨resolved, accepted, room⟩
  exact ⟨resolved, accepted, fat16Resolve_resolved deletedVolume_room.kernelHeap.wellPlaced accepted, room⟩

/-- The first of the slots is the file `B`. -/
theorem deletedVolume_first :
    (storedRoot (driveOf deletedVolume) (bootSector deletedVolume)).Holds [0x42#8] 0 ∧
      LastBelow (fun index => TakenFor [0x42#8] ((storedRoot (driveOf deletedVolume) (bootSector deletedVolume)).slots index))
        3 0 := by
  refine ⟨⟨⟨by decide, fun earlier below => ?_⟩, by decide, by decide⟩, by decide, by decide, fun index after below => ?_⟩
  · obtain rfl : earlier = 0 := by omega
    decide
  · obtain rfl | rfl : index = 1 ∨ index = 2 := by omega
    · decide
    · decide

/-- The file `B` is found, and what is said of the directory `D` holds. -/
theorem findsHeld_iff_deleted : exists resolved, fat16Resolve deletedVolume = some (0, resolved) ∧
    FindsHeld (storedRoot (driveOf resolved) (privateOf resolved).header) resolved (privateOf resolved).rootDir [0x42#8] ∧
      exists chain : StoredChain (driveOf resolved) (privateOf resolved).header,
        (FindsInSubdirectory chain.directory resolved
            ((storedRoot (driveOf resolved) (privateOf resolved).header).slots 1) [0x41#8] ↔
          SubdirectoryTold chain.directory resolved
            ((storedRoot (driveOf resolved) (privateOf resolved).header).slots 1) [0x41#8]) := by
  rcases deletedVolume_resolved with ⟨resolved, accepted, volume, room⟩
  have root := (findsHeld_iff [0x42#8]).1 deletedVolume_room.kernelHeap accepted deletedVolume_ends
  refine ⟨resolved, accepted, ?_, ?_⟩
  · refine ((findsHeld_iff [0x42#8]).2.1 root).mpr ?_
    rw [volume.drive, volume.header.storedRoot]
    rcases deletedVolume_first with ⟨holds, last⟩
    refine Or.inl ⟨0, resolved.heap, last, rfl, Or.inr ⟨?_, 0, holds, fun _ _ => rfl⟩⟩
    rcases room.kzalloc 8#32 (by decide) (by decide) with ⟨item, itemRoom⟩
    have copy := (itemRoom.kzalloc 32#32 (by decide) (by decide)).1
    rw [kzalloc_pointer] at item copy
    rw [kzalloc_heap] at copy
    exact ⟨item, copy⟩
  · have same : exists chain : StoredChain (driveOf resolved) (privateOf resolved).header, chain.first = 2 := by
      rw [volume.drive]
      exact ⟨volume.header.chain deletedChain, rfl⟩
    rcases same with ⟨chain, first⟩
    refine ⟨chain, (findsHeld_iff [0x41#8]).2.2 root.held _ chain ?_⟩
    rw [first, volume.drive, volume.header.storedRoot]
    decide

/-- The file `A` behind the deleted slot is not found. -/
theorem findsHeld_fails_deleted : exists resolved, fat16Resolve deletedVolume = some (0, resolved) ∧
    ¬ FindsHeld (storedRoot (driveOf resolved) (privateOf resolved).header) resolved (privateOf resolved).rootDir
      [0x41#8] := by
  rcases deletedVolume_resolved with ⟨resolved, accepted, volume, _⟩
  have served := fat16Resolve_served deletedVolume_room.kernelHeap.wellPlaced accepted
  have root := fat16Resolve_rootHeld deletedVolume_room.kernelHeap accepted served deletedVolume_ends
  refine ⟨resolved, accepted, fun finds => ?_⟩
  have told := (root.searched_iff [0x41#8]).mp finds
  rw [volume.drive, volume.header.storedRoot] at told
  have total : countedBefore notDeleted
      (fun index => (storedRoot (driveOf deletedVolume) (bootSector deletedVolume)).slots index 0) 4 = 3 := by decide
  have untaken : forall index, index < 3 ->
      ¬ TakenFor [0x41#8] ((storedRoot (driveOf deletedVolume) (bootSector deletedVolume)).slots index) := by
    intro index below
    obtain rfl | rfl | rfl : index = 0 ∨ index = 1 ∨ index = 2 := by omega
    · decide
    · decide
    · decide
  rw [total] at told
  rcases told with ⟨last, _, lastTaken, _⟩ | ⟨_, none⟩
  · exact untaken last lastTaken.below lastTaken.here
  · refine none ⟨3, ⟨by decide, fun earlier below => ?_⟩, by decide, by decide⟩
    obtain rfl | rfl | rfl | rfl : earlier = 0 ∨ earlier = 1 ∨ earlier = 2 ∨ earlier = 3 := by omega
    · decide
    · decide
    · decide
    · decide

end Fs
end LarvaOS
