import LarvaOS.Memory.Ownership
import LarvaOS.Memory.Paging

namespace LarvaOS
namespace Memory

open Library

/-!
# Requests to the heap

A function of the kernel that only allocates, releases and stores takes the heap
through a sequence of requests and leaves the global variables alone.  The entry
table stays an encoding of allocations, whatever addresses are released: a
release that goes wrong takes away the allocation which begins the pool or the
one in whose first block the address lies, and nothing else.

An allocation that does not begin the pool is therefore safe from the release of
every address outside it.
-/

/-- The entry table is the encoding of a set of allocations. -/
def Heap.Encoded (heap : Heap) : Prop :=
  exists extents, heapMarks.Encodes heap.blocks heap.table.total.toNat extents

namespace Heap

variable {heap : Heap}

theorem Encoded.malloc (encoded : heap.Encoded) (placed : heap.WellPlaced) (size : Word) :
    (Memory.malloc heap size).2.Encoded := by
  rcases encoded with ⟨extents, encodes⟩
  rcases malloc_spec placed size with ⟨extent, _, count, fits, _, result⟩ | ⟨_, result⟩
  · rw [result]
    refine ⟨extent :: extents, encodes.insert _ extent ?_ ?_ ?_ ?_⟩
    · rw [count]
      exact fits.1
    · rw [count]
      exact fits.2
    · exact fun block covered => markExtent_of_covers _ covered
    · exact fun block uncovered => markExtent_of_not_covers _ uncovered
  · rw [result]
    exact ⟨extents, encodes⟩

theorem Encoded.free (encoded : heap.Encoded) (placed : heap.WellPlaced) (pointer : Word) :
    (Memory.free heap pointer).Encoded := by
  rcases encoded with ⟨extents, encodes⟩
  rcases free_cases placed encodes pointer with unchanged | ⟨gone, member, _, cleared⟩
  · rw [unchanged]
    exact ⟨extents, encodes⟩
  · rw [cleared]
    rcases encodes.remove_one gone member (fun _ covered => clearExtent_of_covers heap.table.entries covered)
      (fun _ uncovered => clearExtent_of_not_covers heap.table.entries uncovered) with ⟨rest, remaining⟩
    exact ⟨rest, remaining⟩

/-- A release keeps the owned allocations that do not begin the pool and that do
not hold the address. -/
theorem Owns.free {extent : Extent} (owned : heap.Owns extent) (placed : heap.WellPlaced) (encoded : heap.Encoded)
    {pointer : Word} (later : extent.first ≠ 0) (outside : ¬ heap.InExtent extent pointer) :
    (Memory.free heap pointer).Owns extent := by
  rcases encoded with ⟨extents, encodes⟩
  rcases free_cases placed encodes pointer with unchanged | ⟨gone, member, place, cleared⟩
  · rw [unchanged]
    exact owned
  · rw [cleared]
    have recorded : heap.Owns gone := ⟨encodes.recorded gone member, encodes.within gone member⟩
    refine owned.clear ?_
    rcases owned.eq_or_apart recorded with rfl | apart
    · refine absurd ?_ outside
      rcases place with first | ⟨lower, upper⟩
      · exact absurd first later
      · have positive := extent.nonempty
        unfold Heap.InExtent heapBlockSizeBytes at *
        omega
    · exact apart

/-- A store that changes no entry of the table. -/
theorem blocks_stored {entries : Int -> Byte} (same : forall block : Nat, entries block = heap.table.entries block) :
    (heap.withEntries entries).blocks = heap.blocks := funext same

theorem free_samePool (heap : Heap) (pointer : Word) : heap.SamePool (Memory.free heap pointer) := ⟨rfl, rfl⟩

theorem malloc_samePool (placed : heap.WellPlaced) (size : Word) : heap.SamePool (Memory.malloc heap size).2 := by
  rcases malloc_spec placed size with ⟨_, _, _, _, _, result⟩ | ⟨_, result⟩
  · rw [result]
    exact ⟨rfl, rfl⟩
  · rw [result]
    exact SamePool.refl heap

end Heap

/-- A sequence of requests takes the one heap to the other.  Stores around the
table do not count. -/
inductive Heap.Requests (first : Heap) : Heap -> Prop where
  | refl : Heap.Requests first first
  | malloc {heap : Heap} (size : Word) (before : Heap.Requests first heap) : Heap.Requests first (Memory.malloc heap size).2
  | free {heap : Heap} (pointer : Word) (before : Heap.Requests first heap) : Heap.Requests first (Memory.free heap pointer)
  | stored {heap : Heap} (entries : Int -> Byte) (same : forall block : Nat, entries block = heap.table.entries block)
      (before : Heap.Requests first heap) : Heap.Requests first (heap.withEntries entries)

namespace Heap.Requests

variable {first heap last : Heap}

theorem trans (left : Heap.Requests first heap) (right : Heap.Requests heap last) : Heap.Requests first last := by
  induction right with
  | refl => exact left
  | malloc size _ inductionHypothesis => exact inductionHypothesis.malloc size
  | free pointer _ inductionHypothesis => exact inductionHypothesis.free pointer
  | stored entries same _ inductionHypothesis => exact inductionHypothesis.stored entries same

/-- Requests keep the pool and leave the table an encoding. -/
theorem encoded (requests : Heap.Requests first heap) (placed : first.WellPlaced) (encoded : first.Encoded) :
    first.SamePool heap ∧ heap.Encoded := by
  induction requests with
  | refl => exact ⟨Heap.SamePool.refl first, encoded⟩
  | malloc size _ inductionHypothesis =>
      rcases inductionHypothesis with ⟨pool, before⟩
      have placed' := pool.wellPlaced placed
      exact ⟨pool.trans (malloc_samePool placed' size), before.malloc placed' size⟩
  | free pointer _ inductionHypothesis =>
      rcases inductionHypothesis with ⟨pool, before⟩
      exact ⟨pool.trans (free_samePool _ pointer), before.free (pool.wellPlaced placed) pointer⟩
  | stored entries same _ inductionHypothesis =>
      rcases inductionHypothesis with ⟨pool, extents, encodes⟩
      refine ⟨⟨pool.start, pool.total⟩, extents, ?_⟩
      rw [blocks_stored same]
      exact encodes

theorem samePool (requests : Heap.Requests first heap) (placed : first.WellPlaced) : first.SamePool heap := by
  induction requests with
  | refl => exact Heap.SamePool.refl first
  | malloc size _ inductionHypothesis =>
      exact inductionHypothesis.trans (malloc_samePool (inductionHypothesis.wellPlaced placed) size)
  | free pointer _ inductionHypothesis => exact inductionHypothesis.trans (free_samePool _ pointer)
  | stored entries same _ inductionHypothesis => exact inductionHypothesis.trans ⟨rfl, rfl⟩

end Heap.Requests

/-- The entry table of a new heap encodes no allocation. -/
theorem kheapInit_encoded (kernel : Kernel) (entries : Int -> Byte) : (kheapInit kernel entries).heap.Encoded := by
  have total := (kheapInit_isKernelHeap kernel entries).total
  have cleared : (kheapInit kernel entries).heap.table.entries = clearEntries entries 25600 := by
    rw [kheapInit_heap]
  have blank : forall block, block < (kheapInit kernel entries).heap.table.total.toNat ->
      (kheapInit kernel entries).heap.blocks block = heapMarks.blank := by
    intro block inside
    rw [total] at inside
    have bound : block < 25600 := inside
    rw [Heap.blocks, cleared, clearEntries, if_pos (by omega)]
    rfl
  exact ⟨[],
    { recorded := fun _ none => absurd none List.not_mem_nil
      within := fun _ none => absurd none List.not_mem_nil
      apart := List.Pairwise.nil
      blank := fun block inside _ => blank block inside }⟩

/-- The kernel has changed by requests to the heap and by stores, but for stores
to the record of a process. -/
structure Requests (before after : Kernel) : Prop where
  heap : before.heap.Requests after.heap
  toGlobals : after.toGlobals = before.toGlobals
  refused : before.refused ≤ after.refused
  records : forall address, after.processRecords address = before.processRecords address ∨
    after.processRecords address = Process.zero

namespace Requests

variable {first before after : Kernel}

theorem refl (kernel : Kernel) : Requests kernel kernel :=
  ⟨Heap.Requests.refl, rfl, Nat.le_refl _, fun _ => Or.inl rfl⟩

theorem trans (left : Requests first before) (right : Requests before after) : Requests first after where
  heap := left.heap.trans right.heap
  toGlobals := right.toGlobals.trans left.toGlobals
  refused := Nat.le_trans left.refused right.refused
  records := by
    intro address
    rcases right.records address with same | cleared
    · rw [same]
      exact left.records address
    · exact Or.inr cleared

theorem withStore (requests : Requests first before) (store : Store)
    (same : store.processRecords = before.processRecords) : Requests first (before.withStore store) := by
  refine ⟨requests.heap, requests.toGlobals, requests.refused, fun address => ?_⟩
  rw [Kernel.withStore_toStore, same]
  exact requests.records address

theorem fillZero (requests : Requests first before) (pointer size : Word) :
    Requests first (before.withStore (before.toStore.fillZero pointer size)) := by
  refine ⟨requests.heap, requests.toGlobals, requests.refused, fun address => ?_⟩
  by_cases inside : (address - pointer).toNat < size.toNat
  · exact Or.inr (if_pos inside)
  · have same : (before.toStore.fillZero pointer size).processRecords address = before.processRecords address :=
      if_neg inside
    rw [Kernel.withStore_toStore, same]
    exact requests.records address

theorem kzalloc (requests : Requests first before) (size : Word) : Requests first (Memory.kzalloc before size).2 where
  heap := by
    rw [kzalloc_heap]
    exact requests.heap.malloc size
  toGlobals := (kzalloc_globals before size).trans requests.toGlobals
  refused := by
    rw [kzalloc_refused_count]
    have counted := requests.refused
    omega
  records := by
    intro address
    rcases kzalloc_records before size address with same | cleared
    · rw [same]
      exact requests.records address
    · exact Or.inr cleared

theorem kfree (requests : Requests first before) (pointer : Word) : Requests first (Memory.kfree before pointer) :=
  ⟨requests.heap.free pointer, requests.toGlobals, requests.refused, requests.records⟩

/-- When no request was refused on the way, none was refused here. -/
theorem served {size : Word} (requests : Requests (Memory.kzalloc before size).2 after)
    (same : after.refused = before.refused) : (Memory.kzalloc before size).1 ≠ 0#32 := by
  intro null
  have counted := requests.refused
  rw [kzalloc_refused_count, if_pos null] at counted
  omega

end Requests

/-- The release of an address that holds nothing guarded, when no guarded
allocation begins the pool. -/
theorem KeepsObjects.kfree_fresh {guard : Extent -> Prop} {first before : Kernel} (keeps : KeepsObjects guard first before)
    (placed : first.heap.WellPlaced) (encoded : before.heap.Encoded)
    (later : forall extent, guard extent -> extent.first ≠ 0) {pointer : Word} (fresh : Fresh guard first pointer) :
    KeepsObjects guard first (Memory.kfree before pointer) where
  pool := keeps.pool.trans (Heap.free_samePool _ pointer)
  owns := fun extent guarded owned =>
    (keeps.owns extent guarded owned).free (keeps.pool.wellPlaced placed) encoded (later extent guarded) fun inside =>
      fresh extent guarded owned (keeps.pool.inExtent.mp inside)
  same := keeps.same

/-! ## Address spaces -/

theorem fillTable_requests {first kernel : Kernel} (requests : Requests first kernel) (entry offset flags : Word)
    (count : Nat) : Requests first (fillTable entry offset flags kernel count) := by
  induction count with
  | zero => exact requests
  | succ count inductionHypothesis => exact inductionHypothesis.withStore _ (by rfl)

theorem makeTable_requests {first : Kernel} {state : Kernel × Word} (requests : Requests first state.1)
    (directory flags : Word) (i : Nat) : Requests first (makeTable directory flags i state).1 := by
  unfold makeTable
  generalize pagingTotalEntriesPerTable = count
  exact (fillTable_requests (requests.kzalloc tableSize) _ _ _ count).withStore _ (by rfl)

theorem makeTables_requests (directory flags : Word) (kernel : Kernel) (count : Nat) :
    Requests kernel (makeTables directory flags kernel count).1 := by
  induction count with
  | zero => exact Requests.refl kernel
  | succ count inductionHypothesis => exact makeTable_requests inductionHypothesis directory flags count

theorem makeChunk_requests {first kernel : Kernel} (requests : Requests first kernel) (directory : Word) :
    Requests first (makeChunk directory kernel).2 := (requests.kzalloc 4#32).withStore _ (by rfl)

theorem makeNew4GB_requests (kernel : Kernel) (flags : Byte) :
    Requests kernel (makeNew4GBVirtualMemoryAddressSpace kernel flags).2 := by
  have directory := (Requests.refl kernel).kzalloc tableSize
  rw [makeNew4GBVirtualMemoryAddressSpace]
  exact makeChunk_requests (directory.trans (makeTables_requests _ _ _ _)) _

theorem makeChunk_served {first kernel : Kernel} (requests : Requests first kernel) {directory : Word}
    (served : (makeChunk directory kernel).2.refused = first.refused) : (makeChunk directory kernel).1 ≠ 0#32 := by
  have counted := requests.refused
  have chunk := ((Requests.refl kernel).kzalloc 4#32).refused
  have sum : (kzalloc kernel 4#32).2.refused = first.refused := served
  exact (Requests.refl (kzalloc kernel 4#32).2).served (by omega)

/-- An address space for which no request was refused. -/
theorem makeNew4GB_served {kernel : Kernel} {flags : Byte}
    (served : (makeNew4GBVirtualMemoryAddressSpace kernel flags).2.refused = kernel.refused) :
    (makeNew4GBVirtualMemoryAddressSpace kernel flags).1 ≠ 0#32 := by
  have directory := (Requests.refl kernel).kzalloc tableSize
  rw [makeNew4GBVirtualMemoryAddressSpace] at served ⊢
  exact makeChunk_served (directory.trans (makeTables_requests _ _ _ _)) served

end Memory
end LarvaOS
