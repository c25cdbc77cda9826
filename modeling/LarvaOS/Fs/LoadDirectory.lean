import LarvaOS.Fs.DirectoryTree
import LarvaOS.Fs.FileObjects
import LarvaOS.Fs.ReadFile

namespace LarvaOS
namespace Fs

open Library Disk Memory

/-!
# The load of a directory

`fat16_load_fat_directory` allocates a record and an array of slots, and reads the
slots from the chain of the directory.  An error behind the first allocation frees what
was allocated, and the pointer to the freed record is returned all the same.

Such an error comes from the disk or from the heap: the array is refused when the
directory has no entry or the heap has no room for it, and the read fails when the chain
is cut short.
-/

/-! ## The law -/

/-- The item with a directory, as it is filled in. -/
def directoryItem (kernel : Kernel) (item directory : Word) : Kernel :=
  storeItem kernel item ⟨directory, FAT_ITEM_TYPE_DIRECTORY⟩

/-- What is promised of a load: a failure returns `NULL` and leaves the entry table as it
was, a success returns a directory in memory, and the release of an item with what is
returned releases allocations only. -/
structure LawfulLoad (kernel : Kernel) (attempt : LoadAttempt) (loaded : Word × Kernel) : Prop where
  fails : attempt.res < 0 -> loaded.1 = 0#32 ∧ SameEntries kernel loaded.2
  succeeds : 0 ≤ attempt.res -> LiveDirectory loaded.2 loaded.1
  closes : forall extent, kernel.heap.Owns extent ->
    let item := kernel.heap.addressOf extent.first
    ReleasesLive (directoryItem loaded.2 item loaded.1) (itemObjects (directoryItem loaded.2 item loaded.1) item)

/-- The load returns, and keeps the promise. -/
def KeepsLoadLaw (kernel : Kernel) (slot : Slot) : Prop :=
  exists attempt loaded, loadAttempt kernel slot = some attempt ∧ fat16LoadFatDirectory kernel slot = some loaded ∧
    LawfulLoad kernel attempt loaded

/-! ## The release of the item -/

section Closing

variable {kernel current : Kernel} (kernelHeap : current.heap.IsKernelHeap)
  (keeps : KeepsObjects (fun _ => True) kernel current) {extent : Extent} (owned : kernel.heap.Owns extent)

include kernelHeap keeps owned

/-- What an item follows that has the directory. -/
theorem directoryItem_objects (directory : Word) :
    itemObjects (directoryItem current (kernel.heap.addressOf extent.first) directory) (kernel.heap.addressOf extent.first) =
      directoryObjects current directory ++ [kernel.heap.addressOf extent.first] := by
  have ownedLater := keeps.owns extent trivial owned
  have notNull : kernel.heap.addressOf extent.first ≠ 0#32 := by
    rw [← keeps.pool.addressOf]
    exact kernelHeap.wellPlaced.addressOf_ne_null ownedLater.address_inside
  rw [itemObjects, if_neg notNull, directoryItem, storeItem_self, contentObjects, if_pos rfl]
  rfl

theorem closes_null :
    ReleasesLive (directoryItem current (kernel.heap.addressOf extent.first) 0#32)
      (itemObjects (directoryItem current (kernel.heap.addressOf extent.first) 0#32) (kernel.heap.addressOf extent.first)) := by
  rw [directoryItem_objects kernelHeap keeps owned, directoryObjects, if_pos rfl]
  exact ⟨⟨extent, keeps.owns extent trivial owned, (keeps.pool.addressOf _).symm⟩, trivial⟩

theorem closes_loaded {directory : Word} {slots record : Extent}
    (gained : Gained kernel current [(current.fatDirectories directory).item, directory] [slots, record]) :
    ReleasesLive (directoryItem current (kernel.heap.addressOf extent.first) directory)
      (itemObjects (directoryItem current (kernel.heap.addressOf extent.first) directory)
        (kernel.heap.addressOf extent.first)) := by
  have placed := kernelHeap.wellPlaced
  rcases gained.allocated.head with ⟨_, _, same, slotsOwned, slotsAddress, rest, _⟩
  rcases List.cons.inj same with ⟨rfl, rfl⟩
  rcases rest.head with ⟨_, _, same', recordOwned, recordAddress, _, _⟩
  rcases List.cons.inj same' with ⟨rfl, _⟩
  have slotsNotNull : (current.fatDirectories directory).item ≠ 0#32 := by
    rw [slotsAddress]
    exact placed.addressOf_ne_null slotsOwned.address_inside
  have recordNotNull : directory ≠ 0#32 := by
    rw [recordAddress]
    exact placed.addressOf_ne_null recordOwned.address_inside
  rw [directoryItem_objects kernelHeap keeps owned, directoryObjects, if_neg recordNotNull, if_neg slotsNotNull]
  have item : Allocated current [kernel.heap.addressOf extent.first] [extent] := by
    refine ⟨congrArg (fun pointer => [pointer]) (keeps.pool.addressOf _).symm, ?_, List.pairwise_singleton _ _⟩
    intro other member
    rw [List.mem_singleton.mp member]
    exact keeps.owns extent trivial owned
  have all := gained.allocated.append item fun new member old memberOld => by
    rw [List.mem_singleton.mp memberOld]
    exact (gained.fresh new member extent trivial owned).symm
  have filled : Allocated (directoryItem current (kernel.heap.addressOf extent.first) directory) _ _ := all.of_heap rfl
  exact filled.releasesLive kernelHeap

end Closing

/-! ## Both directions -/

/-- A load that gives up in front of the first allocation keeps the promise. -/
theorem lawfulLoad_null {kernel current : Kernel} (kernelHeap : kernel.heap.IsKernelHeap)
    (keeps : KeepsObjects (fun _ => True) kernel current) (same : current.heap.table.entries = kernel.heap.table.entries)
    {res : Int} (failed : res < 0) : LawfulLoad kernel ⟨res, 0#32, current⟩ (LoadAttempt.out ⟨res, 0#32, current⟩) := by
  have out : LoadAttempt.out ⟨res, 0#32, current⟩ = (0#32, current) := congrArg (Prod.mk 0#32) (if_pos failed)
  rw [out]
  refine ⟨fun _ => ⟨rfl, fun block _ => congrFun same block⟩, fun succeeded => ?_, fun extent owned => ?_⟩
  · change 0 ≤ res at succeeded
    omega
  · exact closes_null (kernelHeap.samePool keeps.pool) keeps owned

/-- An entry of a directory with this first cluster. -/
def treeDirectory (cluster : Byte) : Slot := fun place => if place = 11 then 0x10#8 else if place = 26 then cluster else 0#8

/-- A directory for which the promise is kept is loaded, unless the first request is
refused. -/
theorem KeepsLoadLaw.loads {kernel : Kernel} {slot : Slot} (law : KeepsLoadLaw kernel slot) (held : VolumeHeld kernel)
    (directory : slot.isSubdirectory = true) : kernel.heap.Exhausted ∨ LoadsDirectory kernel slot := by
  have placed := held.kernelHeap.wellPlaced
  rcases law with ⟨attempt, loaded, attempts, loads, lawful⟩
  have file : ¬ (!slot.isSubdirectory) = true := by simpa using directory
  rcases kzalloc_page placed (by decide : blocksFor 16#32 = 1) with ⟨block, hands, result⟩ | ⟨exhausted, _⟩
  · right
    have served : (kzalloc kernel 16#32).1 ≠ 0#32 := by
      rw [result]
      exact placed.addressOf_ne_null hands.inside
    rw [fat16LoadFatDirectory_eq, attempts] at loads
    obtain rfl := Option.some.inj loads
    have succeeds : attempt.directory ≠ 0#32 -> 0 ≤ attempt.res := fun notNull => by
      by_contra failed
      exact notNull (lawful.fails (Int.not_le.mp failed)).1
    unfold loadAttempt at attempts
    rw [if_neg file] at attempts
    simp only [served, if_false] at attempts
    rcases Option.bind_eq_some_iff.mp attempts with ⟨counted, count, rest⟩
    rcases counted_eq held count with ⟨mark, ends, total⟩
    by_cases full : (slotBuffer counted.2 (kzalloc kernel 16#32).1 counted.1).1 = 0#32
    · simp only [full, if_true] at rest
      obtain rfl := Option.some.inj rest
      exact absurd (succeeds served) (show ¬ (0 : Int) ≤ - ENOMEM by decide)
    · simp only [full, if_false] at rest
      rcases Option.map_eq_some_iff.mp rest with ⟨reading, read, rfl⟩
      have fits := (slotBuffer_served_iff held served count).mp full
      rcases (slotRead_succeeds_iff held served count fits).mp ⟨reading, read, succeeds served⟩ with ⟨sized, serves⟩
      rw [total] at fits serves
      exact ⟨sized, mark, ends, fits, serves⟩
  · exact Or.inl exhausted

/-- The load keeps its promise exactly if it gives up in front of the first allocation, or
not at all. -/
theorem keepsLoadLaw_iff {kernel : Kernel} (held : VolumeHeld kernel) (slot : Slot) :
    KeepsLoadLaw kernel slot ↔ (slot.isSubdirectory = true -> kernel.heap.Exhausted ∨ LoadsDirectory kernel slot) := by
  have placed := held.kernelHeap.wellPlaced
  constructor
  · exact fun law directory => law.loads held directory
  · intro condition
    unfold KeepsLoadLaw
    rw [fat16LoadFatDirectory_eq]
    by_cases file : (!slot.isSubdirectory) = true
    · refine ⟨⟨- EINVAL, 0#32, kernel⟩, _, if_pos file, ?_, lawfulLoad_null held.kernelHeap (KeepsObjects.refl _ kernel) rfl
        (by decide)⟩
      rw [loadAttempt, if_pos file]
      rfl
    · have directory : slot.isSubdirectory = true := by simpa using file
      rcases kzalloc_page placed (by decide : blocksFor 16#32 = 1) with ⟨block, hands, result⟩ | ⟨exhausted, result⟩
      · have served : (kzalloc kernel 16#32).1 ≠ 0#32 := by
          rw [result]
          exact placed.addressOf_ne_null hands.inside
        rcases condition directory with exhausted | loads
        · exact absurd exhausted hands.not_exhausted
        · rcases loads.attempt held served file with ⟨reading, attempted, succeeds, kernelHeap, keeps, live, slots, record, gained⟩
          rw [attempted]
          refine ⟨_, _, rfl, rfl, ?_⟩
          have out : LoadAttempt.out ⟨reading.res, (kzalloc kernel 16#32).1, reading.kernel⟩ =
              ((kzalloc kernel 16#32).1, reading.kernel) := congrArg (Prod.mk _) (if_neg (Int.not_lt.mpr succeeds))
          rw [out]
          refine ⟨fun failed => absurd succeeds (Int.not_le.mpr failed), fun _ => live, fun extent owned => ?_⟩
          exact closes_loaded kernelHeap keeps owned gained
      · have refused : (kzalloc kernel 16#32).1 = 0#32 := by rw [result]
        have attempted : loadAttempt kernel slot = some ⟨- ENOMEM, 0#32, (kzalloc kernel 16#32).2⟩ := by
          rw [loadAttempt, if_neg file]
          exact if_pos refused
        rw [attempted]
        refine ⟨_, _, rfl, rfl, lawfulLoad_null held.kernelHeap ((KeepsObjects.refl _ kernel).kzalloc placed 16#32) ?_
          (by decide)⟩
        rw [result]
        rfl

/-- The promise for the directory of the volume. -/
theorem keepsLoadLaw_iff_tree : exists resolved, fat16Resolve treeVolume = some (0, resolved) ∧
    (KeepsLoadLaw resolved (treeDirectory 2) ↔ ((treeDirectory 2).isSubdirectory = true ->
      resolved.heap.Exhausted ∨ LoadsDirectory resolved (treeDirectory 2))) := by
  rcases treeVolume_mounted with ⟨resolved, tree⟩
  exact ⟨resolved, tree.accepted, keepsLoadLaw_iff tree.mounted.held _⟩

/-- The load of an empty directory fails, and returns the record that it has released. -/
theorem keepsLoadLaw_empty : exists resolved, fat16Resolve treeVolume = some (0, resolved) ∧
    ¬ KeepsLoadLaw resolved (treeDirectory 3) := by
  rcases treeVolume_mounted with ⟨resolved, tree⟩
  refine ⟨resolved, tree.accepted, fun law => ?_⟩
  rcases law.loads tree.mounted.held (by decide) with exhausted | loads
  · have inside : 517 < resolved.heap.table.total.toNat := by
      rw [tree.mounted.kernelHeap.total]
      decide
    exact exhausted 517 inside (tree.room.free 517 (Nat.le_refl _) inside)
  · rcases loads.whole with ⟨mark, ends, ⟨record, slots, _, hands⟩, _⟩
    have start : directoryStart resolved (treeDirectory 3) = 5 * DISK_SECTOR_SIZE := by
      have cluster : fat16GetFirstCluster (treeDirectory 3) = 3 := by decide
      rw [directoryStart, cluster, treeSector tree.volume]
      decide
    have empty : DirectoryEnds (driveOf resolved) (directoryStart resolved (treeDirectory 3)) 0 := by
      rw [tree.volume.drive, start]
      exact ⟨by decide, fun index below => absurd below (Nat.not_lt_zero index)⟩
    have none : slotsInUse (driveOf resolved) (directoryStart resolved (treeDirectory 3)) mark = 0 := by
      rw [ends.unique empty]
      exact Nat.count_zero _
    rw [none] at hands
    exact hands.nonzero (by decide)

end Fs
end LarvaOS
