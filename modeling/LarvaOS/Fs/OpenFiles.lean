import LarvaOS.Fs.Balance
import LarvaOS.Fs.FileObjects

namespace LarvaOS
namespace Fs

open Library Disk Memory

/-!
# The memory of an open file

An open file holds up to five allocations: the descriptor in the table, the
descriptor of the file system, the item that was found, and behind the item the
copy of a directory entry, or a directory and its slots.  Closing the file
releases them one after the other.

`fopen` gives each of them an allocation of its own as long as the item was made
whole.  An item is not whole when the copy of its entry was refused, or when its
directory was given up: `fat16_load_fat_directory` then returns a pointer to
memory that it has released.  The load of a directory without any entry ends so.
-/

/-! ## What closing releases -/

/-- The pointers that `fclose` follows. -/
def fileObjects (kernel : Kernel) (descriptor : Word) : List Word :=
  let p := (kernel.fileDescriptorRecords descriptor).p
  itemObjects kernel (kernel.fatFileDescriptors p).item ++ [p] ++ [descriptor]

theorem storeSlot_kfree (kernel : Kernel) (slot : Int) (pointer address : Word) :
    kfree (storeSlot kernel slot pointer) address = storeSlot (kfree kernel address) slot pointer := by
  unfold storeSlot
  split <;> rfl

/-- Closing an open file releases its objects and empties its slot. -/
theorem fclose_eq {kernel : Kernel} {number : Int} (accepted : getFileDescriptor kernel number ≠ 0#32) :
    fclose kernel number = (0, storeSlot (releaseAll kernel (fileObjects kernel (getFileDescriptor kernel number)))
      ((kernel.fileDescriptorRecords (getFileDescriptor kernel number)).index - 1) 0#32) := by
  unfold fclose fileObjects
  simp only [accepted, if_false]
  generalize getFileDescriptor kernel number = descriptor
  generalize (kernel.fileDescriptorRecords descriptor).p = p
  have store : (fat16Close kernel p).toStore = kernel.toStore := by
    unfold fat16Close
    rw [fat16FatItemFree_eq]
    exact releaseAll_toStore kernel _
  have closed : fat16Close kernel p = releaseAll kernel (itemObjects kernel (kernel.fatFileDescriptors p).item ++ [p]) := by
    rw [releaseAll_append, ← fat16FatItemFree_eq]
    rfl
  rw [releaseFileDescriptor, storeSlot_kfree, store, closed, releaseAll_append kernel _ [descriptor]]
  rfl

section Congruence

variable {kernel after : Kernel}

theorem directoryObjects_congr {directory : Word}
    (same : forall pointer, pointer ∈ directoryObjects kernel directory -> kernel.toStore.SameObjects after.toStore pointer) :
    directoryObjects after directory = directoryObjects kernel directory := by
  by_cases null : directory = 0#32
  · rw [directoryObjects, directoryObjects, if_pos null, if_pos null]
  · have member : directory ∈ directoryObjects kernel directory := by
      rw [directoryObjects, if_neg null]
      by_cases none : (kernel.fatDirectories directory).item = 0#32
      · rw [if_pos none]
        exact List.mem_singleton_self directory
      · rw [if_neg none]
        exact List.mem_cons_of_mem _ (List.mem_singleton_self directory)
    rw [directoryObjects, directoryObjects, (same directory member).fatDirectories]

theorem itemObjects_congr {item : Word}
    (same : forall pointer, pointer ∈ itemObjects kernel item -> kernel.toStore.SameObjects after.toStore pointer) :
    itemObjects after item = itemObjects kernel item := by
  by_cases null : item = 0#32
  · rw [itemObjects, itemObjects, if_pos null, if_pos null]
  · rw [itemObjects, if_neg null] at same
    rw [itemObjects, itemObjects, if_neg null, if_neg null,
      (same item (List.mem_append_right _ (List.mem_singleton_self item))).fatItems]
    refine congrArg (· ++ [item]) ?_
    unfold contentObjects at *
    by_cases directory : (kernel.fatItems item).type = FAT_ITEM_TYPE_DIRECTORY
    · rw [if_pos directory] at same
      rw [if_pos directory, if_pos directory]
      exact directoryObjects_congr fun pointer member => same pointer (List.mem_append_left _ member)
    · rw [if_neg directory, if_neg directory]

/-- An open file follows the same pointers as long as the objects at them are the
same. -/
theorem fileObjects_congr {descriptor : Word}
    (same : forall pointer, pointer ∈ fileObjects kernel descriptor ->
      kernel.toStore.SameObjects after.toStore pointer) :
    fileObjects after descriptor = fileObjects kernel descriptor := by
  unfold fileObjects at *
  have record := (same descriptor (List.mem_append_right _ (List.mem_singleton_self descriptor))).fileDescriptorRecords
  have file := (same _ (List.mem_append_left _ (List.mem_append_right _ (List.mem_singleton_self _)))).fatFileDescriptors
  dsimp only at file ⊢
  rw [record, file]
  refine congrArg (· ++ [descriptor]) (congrArg (· ++ [_]) ?_)
  exact itemObjects_congr fun pointer member =>
    same pointer (List.mem_append_left _ (List.mem_append_left _ member))

end Congruence

/-! ## Items that are whole -/

/-- The item has a copy of its entry, or a directory that was not given up. -/
structure WholeItem (kernel : Kernel) (item : Word) : Prop where
  entry : (kernel.fatItems item).type = FAT_ITEM_TYPE_FILE -> (kernel.fatItems item).pointer ≠ 0#32
  directory : (kernel.fatItems item).type = FAT_ITEM_TYPE_DIRECTORY -> Held kernel (kernel.fatItems item).pointer

/-- What was released is not held. -/
theorem not_held_kfree {kernel : Kernel} (kernelHeap : kernel.heap.IsKernelHeap) {extent : Extent}
    (owned : kernel.heap.Owns extent) :
    ¬ Held (kfree kernel (kernel.heap.addressOf extent.first)) (kernel.heap.addressOf extent.first) := by
  have placed := kernelHeap.wellPlaced
  have inside := owned.address_inside
  rintro (null | ⟨other, otherOwned, address⟩)
  · exact placed.addressOf_ne_null inside null
  · have released := free_spec placed extent owned.recorded owned.within (kernelHeap.low inside)
    rw [kfree, released] at otherOwned address
    have same : other.first = extent.first := by
      have left := placed.toNat_addressOf inside
      have right := placed.toNat_addressOf otherOwned.address_inside
      have equal := congrArg BitVec.toNat address
      change (kernel.heap.addressOf extent.first).toNat = (kernel.heap.addressOf other.first).toNat at equal
      unfold heapBlockSizeBytes at left right
      omega
    have taken := otherOwned.recorded.not_free other.covers_first
    have cleared : BlockFree (clearExtent kernel.heap.table.entries extent) extent.first := by
      rw [BlockFree, clearExtent_of_covers _ extent.covers_first]
      rfl
    rw [same] at taken
    exact Bool.false_ne_true (taken.symm.trans cleared)

/-- A directory that was given up is not held. -/
theorem fat16FreeDirectory_not_held {first kernel : Kernel} (kernelHeap : kernel.heap.IsKernelHeap) {directory : Word}
    {extent : Extent} (acquired : Acquired (fun _ => True) first kernel directory extent)
    (slots : (kernel.fatDirectories directory).item = 0#32 ∨ exists other,
      Acquired (fun _ => True) first kernel (kernel.fatDirectories directory).item other ∧ extent.Apart other) :
    ¬ Held (fat16FreeDirectory kernel directory) directory := by
  have nonNull : directory ≠ 0#32 := by
    rw [acquired.address]
    exact kernelHeap.wellPlaced.addressOf_ne_null acquired.owned.address_inside
  unfold fat16FreeDirectory
  rw [if_neg nonNull]
  by_cases none : (kernel.fatDirectories directory).item = 0#32
  · simp only [none, ne_eq, not_true_eq_false, if_false]
    rw [acquired.address]
    exact not_held_kfree kernelHeap acquired.owned
  · simp only [none, ne_eq, not_false_eq_true, if_true]
    rcases slots with null | ⟨other, owned, apart⟩
    · exact absurd null none
    · have released := acquired.kfree_other owned kernelHeap.wellPlaced (kernelHeap.low owned.owned.address_inside) apart
      have after : (kfree kernel (kernel.fatDirectories directory).item).heap.IsKernelHeap :=
        ⟨kernelHeap.start, kernelHeap.total⟩
      generalize kfree kernel (kernel.fatDirectories directory).item = slotless at *
      rw [released.address]
      exact not_held_kfree after released.owned

theorem storeFatFileDescriptor_self (kernel : Kernel) (address : Word) (record : FatFileDescriptor) :
    (storeFatFileDescriptor kernel address record).fatFileDescriptors address = record := by
  unfold storeFatFileDescriptor
  exact Function.update_self _ _ _

section Making

variable {first kernel : Kernel} (kernelHeap : first.heap.IsKernelHeap)
include kernelHeap

/-- A directory that is still held has its slots. -/
theorem loadSlots_gained (keeps : KeepsObjects (fun _ => True) first kernel) {directory : Word} {extent : Extent}
    (acquired : Acquired (fun _ => True) first kernel directory extent) {cluster totalItems : Int}
    {loaded : Word × Kernel} (same : loadSlots kernel directory cluster totalItems = some loaded)
    (held : Held loaded.2 directory) :
    exists extents, Gained first loaded.2 (directoryObjects loaded.2 directory) extents := by
  have placed := kernelHeap.wellPlaced
  have filled := slotBuffer_keeps placed keeps (acquired.fresh_pointer placed keeps.pool) totalItems
  have record := slotBuffer_acquired (keeps.pool.wellPlaced placed) acquired totalItems
  have item := slotBuffer_item kernel directory totalItems
  have current := kernelHeap.samePool filled.pool
  have nonNull : directory ≠ 0#32 := by
    rw [acquired.address]
    exact (keeps.pool.wellPlaced placed).addressOf_ne_null acquired.owned.address_inside
  unfold loadSlots at same
  by_cases refused : (slotBuffer kernel directory totalItems).1 = 0#32
  · simp only [refused, if_true] at same
    obtain rfl := Option.some.inj same
    exact absurd held (fat16FreeDirectory_not_held current record (Or.inl (item.trans refused)))
  · simp only [refused, if_false] at same
    rcases Option.map_eq_some_iff.mp same with ⟨reading, read, rfl⟩
    rcases slotBuffer_served placed keeps acquired refused with ⟨other, owned, enough, apart⟩
    have transferred := (fat16ReadInternal_readsFresh ⟨Transferred.refl _, filled⟩ (directorySize_lt totalItems)
      ((owned.freshRange placed filled.pool).mono (directorySize_le enough)) read).transferred
    have slots : (reading.kernel.fatDirectories directory).item = (slotBuffer kernel directory totalItems).1 := by
      rw [transferred.fatDirectories, item]
    have recordRead := record.of_heap transferred.heap
    have ownedRead := owned.of_heap transferred.heap
    have currentRead : reading.kernel.heap.IsKernelHeap := transferred.heap ▸ current
    rw [← slots] at ownedRead refused
    by_cases failed : reading.res < 0
    · simp only [failed, if_true] at held
      exact absurd held (fat16FreeDirectory_not_held currentRead recordRead (Or.inr ⟨other, ownedRead, apart⟩))
    · simp only [failed, if_false]
      rw [directoryObjects, if_neg nonNull, if_neg refused]
      exact ⟨[other, extent], Gained.of_two ownedRead recordRead apart.symm⟩

theorem fat16LoadFatDirectory_gained (keeps : KeepsObjects (fun _ => True) first kernel) {slot : Slot}
    {loaded : Word × Kernel} (same : fat16LoadFatDirectory kernel slot = some loaded) (held : Held loaded.2 loaded.1) :
    exists extents, Gained first loaded.2 (directoryObjects loaded.2 loaded.1) extents := by
  have placed := kernelHeap.wellPlaced
  unfold fat16LoadFatDirectory at same
  by_cases file : (!slot.isSubdirectory) = true
  · rw [if_pos file] at same
    obtain rfl := Option.some.inj same
    exact ⟨[], Gained.nothing first _⟩
  · rw [if_neg file] at same
    by_cases refused : (kzalloc kernel 16#32).1 = 0#32
    · simp only [refused, if_true] at same
      obtain rfl := Option.some.inj same
      exact ⟨[], Gained.nothing first _⟩
    · simp only [refused, if_false] at same
      rcases Option.bind_eq_some_iff.mp same with ⟨counted, count, slots⟩
      rcases keeps.acquired placed refused with ⟨extent, acquired, _⟩
      have reads := fat16GetTotalItemsForDirectory_readsFresh
        ⟨Transferred.refl _, keeps.kzalloc placed 16#32⟩ count
      have record := acquired.of_heap reads.transferred.heap
      have pointer := (loadSlots_keeps kernelHeap reads.keeps record slots).2.1
      rw [pointer] at held ⊢
      exact loadSlots_gained kernelHeap reads.keeps record slots held

/-- A whole item is made of new allocations. -/
theorem fat16MakeNewFatItemForDirectoryItem_gained {kernel : Kernel} (keeps : KeepsObjects (fun _ => True) first kernel)
    {slot : Slot} {made : Word × Kernel} (same : fat16MakeNewFatItemForDirectoryItem kernel slot = some made)
    (whole : WholeItem made.2 made.1) : exists extents, Gained first made.2 (itemObjects made.2 made.1) extents := by
  have placed := kernelHeap.wellPlaced
  have allocated := keeps.kzalloc placed 8#32
  have allocatedHeap := kernelHeap.samePool allocated.pool
  unfold fat16MakeNewFatItemForDirectoryItem at same
  by_cases refused : (kzalloc kernel 8#32).1 = 0#32
  · simp only [refused, if_true] at same
    obtain rfl := Option.some.inj same
    rw [refused]
    exact ⟨[], Gained.nothing first _⟩
  · simp only [refused, if_false] at same
    rcases keeps.acquired placed refused with ⟨extent, acquired, _⟩
    have item := Gained.of_acquired acquired
    generalize kzalloc kernel 8#32 = fItem at *
    by_cases directory : slot.isSubdirectory = true
    · simp only [directory, if_true] at same
      rcases Option.map_eq_some_iff.mp same with ⟨loaded, load, rfl⟩
      have later := (fat16LoadFatDirectory_keeps allocatedHeap (KeepsObjects.refl (fun _ => True) fItem.2) load).1
      have held := whole.directory
      rw [storeItem_self] at held
      rcases fat16LoadFatDirectory_gained allocatedHeap (KeepsObjects.refl (fun _ => True) fItem.2) load (held rfl) with
        ⟨extents, gained⟩
      have objects : itemObjects (storeItem loaded.2 fItem.1 ⟨loaded.1, FAT_ITEM_TYPE_DIRECTORY⟩) fItem.1 =
          directoryObjects loaded.2 loaded.1 ++ [fItem.1] := by
        rw [itemObjects, if_neg refused, storeItem_self, contentObjects, if_pos rfl]
        rfl
      rw [objects]
      exact ⟨_, (item.prepend allocated later gained).of_heap rfl⟩
    · simp only [directory, Bool.false_eq_true, if_false] at same
      obtain rfl := Option.some.inj same
      have entry := whole.entry
      rw [storeItem_self] at entry
      have copied := entry rfl
      have later := (fat16CloneDirectoryItem_keeps allocatedHeap (KeepsObjects.refl (fun _ => True) fItem.2) slot).1
      have objects : itemObjects (storeItem (fat16CloneDirectoryItem fItem.2 slot).2 fItem.1
          ⟨(fat16CloneDirectoryItem fItem.2 slot).1, FAT_ITEM_TYPE_FILE⟩) fItem.1 =
            [(fat16CloneDirectoryItem fItem.2 slot).1] ++ [fItem.1] := by
        rw [itemObjects, if_neg refused, storeItem_self, contentObjects, if_neg file_ne_directory, if_pos rfl]
      rw [objects]
      have copy : exists extents, Gained fItem.2 (fat16CloneDirectoryItem fItem.2 slot).2
          [(fat16CloneDirectoryItem fItem.2 slot).1] extents := by
        unfold fat16CloneDirectoryItem at copied ⊢
        by_cases missing : (kzalloc fItem.2 32#32).1 = 0#32
        · simp only [missing, if_true] at copied
          exact absurd rfl copied
        · simp only [missing, if_false]
          rcases (KeepsObjects.refl (fun _ => True) fItem.2).acquired allocatedHeap.wellPlaced missing with
            ⟨other, owned, _⟩
          exact ⟨[other], (Gained.of_acquired owned).of_heap rfl⟩
      rcases copy with ⟨extents, gained⟩
      exact ⟨_, (item.prepend allocated later gained).of_heap rfl⟩

theorem searchSlots_gained {directory : FatDirectory} {name : List Byte} {kernel : Kernel}
    (keeps : KeepsObjects (fun _ => True) first kernel) {indexes : List Nat} {item : Word}
    (gained : WholeItem kernel item -> exists extents, Gained first kernel (itemObjects kernel item) extents)
    {found : Word × Kernel} (same : searchSlots directory name indexes kernel item = some found)
    (whole : WholeItem found.2 found.1) : exists extents, Gained first found.2 (itemObjects found.2 found.1) extents := by
  induction indexes generalizing kernel item with
  | nil =>
      obtain rfl := Option.some.inj same
      exact gained whole
  | cons index rest inductionHypothesis =>
      rw [searchSlots] at same
      by_cases isMatch : Libc.strcasecmp (fat16GetFullRelativeFilename (slotAt kernel (slotAddress directory index))) name = 0
      · simp only [isMatch, if_true] at same
        rcases Option.bind_eq_some_iff.mp same with ⟨made, make, later⟩
        exact inductionHypothesis (fat16MakeNewFatItemForDirectoryItem_keeps kernelHeap keeps make).1
          (fat16MakeNewFatItemForDirectoryItem_gained kernelHeap keeps make) later
      · simp only [isMatch, if_false] at same
        exact inductionHypothesis keeps gained same

theorem fat16GetDirectoryEntry_gained (keeps : KeepsObjects (fun _ => True) first kernel) {path : PathPart}
    {next : List PathPart} {found : Word × Kernel} (walk : fat16GetDirectoryEntry kernel path next = some found)
    (some : found.1 ≠ 0#32) (whole : WholeItem found.2 found.1) :
    exists extents, Gained first found.2 (itemObjects found.2 found.1) extents := by
  unfold fat16GetDirectoryEntry at walk
  rcases Option.bind_eq_some_iff.mp walk with ⟨rootItem, search, rest⟩
  rcases searchSlots_keeps kernelHeap keeps (fun nonNull => absurd rfl nonNull) search with ⟨searched, safe⟩
  by_cases missing : rootItem.1 = 0#32
  · rw [if_pos missing] at rest
    obtain rfl := Option.some.inj rest
    exact absurd rfl some
  · rw [if_neg missing] at rest
    cases next with
    | nil =>
        obtain rfl := Option.some.inj rest
        have nothing : exists extents, Gained first kernel (itemObjects kernel 0#32) extents :=
          ⟨[], Gained.nothing first kernel⟩
        exact searchSlots_gained kernelHeap keeps (fun _ => nothing) search whole
    | cons part later =>
        rw [(safe missing).descend_stops] at rest
        obtain rfl := Option.some.inj rest
        exact absurd rfl some

/-! ## Opening -/

/-- Whatever comes of an open, nothing is taken from the allocations before it.
The file that is opened is made of new ones if its item is whole. -/
theorem fat16Open_gained (keeps : KeepsObjects (fun _ => True) first kernel) {path : PathPart} {next : List PathPart}
    {mode : FileMode} {opened : Word × Kernel} (opens : fat16Open kernel path next mode = some opened) :
    KeepsObjects (fun _ => True) first opened.2 ∧ (isErr opened.1 = false ->
      WholeItem opened.2 (opened.2.fatFileDescriptors opened.1).item -> exists extents, Gained first opened.2
        (itemObjects opened.2 (opened.2.fatFileDescriptors opened.1).item ++ [opened.1]) extents) := by
  have placed := kernelHeap.wellPlaced
  have allocated := keeps.kzalloc placed 8#32
  unfold fat16Open at opens
  by_cases writes : mode ≠ .read
  · rw [if_pos writes] at opens
    obtain rfl := Option.some.inj opens
    have refusal : isErr (errPtr (- EROFS)) = true := isErr_errPtr (by decide) (by decide)
    exact ⟨keeps, fun noError => absurd (refusal.symm.trans noError) Bool.noConfusion⟩
  · rw [if_neg writes] at opens
    by_cases refused : (kzalloc kernel 8#32).1 = 0#32
    · simp only [refused, if_true] at opens
      obtain rfl := Option.some.inj opens
      have refusal : isErr (errPtr (- ENOMEM)) = true := isErr_errPtr (by decide) (by decide)
      exact ⟨allocated, fun noError => absurd (refusal.symm.trans noError) Bool.noConfusion⟩
    · simp only [refused, if_false] at opens
      rcases Option.map_eq_some_iff.mp opens with ⟨item, walk, rfl⟩
      rcases keeps.acquired placed refused with ⟨extent, acquired, _⟩
      have allocatedHeap := kernelHeap.samePool allocated.pool
      generalize kzalloc kernel 8#32 = fatFd at *
      have since := KeepsObjects.refl (fun _ => True) fatFd.2
      have walked := (fat16GetDirectoryEntry_keeps allocatedHeap since walk).1
      have fresh := acquired.fresh_pointer placed allocated.pool
      have stored := storeFatFileDescriptor_keeps (allocated.trans walked) fresh ⟨item.1, 0#32⟩
      by_cases missing : item.1 = 0#32
      · rw [missing] at stored
        simp only [missing, if_true]
        have refusal : isErr (errPtr (- EIO)) = true := isErr_errPtr (by decide) (by decide)
        have still : Acquired (fun _ => True) first (storeFatFileDescriptor item.2 fatFd.1 ⟨0#32, 0#32⟩) fatFd.1 extent :=
          ⟨walked.owns extent trivial acquired.owned, acquired.address.trans (walked.pool.addressOf _).symm, acquired.fresh⟩
        exact ⟨stored.kfree placed (fun _ => kernelHeap.low) still,
          fun noError => absurd (refusal.symm.trans noError) Bool.noConfusion⟩
      · simp only [missing, if_false]
        refine ⟨stored, fun _ whole => ?_⟩
        rw [storeFatFileDescriptor_self] at whole ⊢
        have found : WholeItem item.2 item.1 := ⟨whole.entry, whole.directory⟩
        rcases fat16GetDirectoryEntry_gained allocatedHeap since walk missing found with ⟨extents, gained⟩
        have both := (Gained.of_acquired acquired).prepend allocated walked gained
        exact ⟨extents ++ [extent], both.of_heap rfl⟩

end Making

end Fs
end LarvaOS
