import LarvaOS.Memory.PagingSpec

namespace LarvaOS
namespace Memory

open Library

/-!
# What an address space costs

A request that is served takes its blocks out of the free ones, and a request of
one block is refused only when there is none.  The constructor of an address
space makes 1026 requests of one block each, hence the number of free blocks
tells which of them is the first to be refused.
-/

/-- The number of free blocks of the pool. -/
def Heap.freeBlocks (heap : Heap) : Nat := freeCells (BlockFree heap.table.entries) heap.table.total.toNat

theorem Heap.exhausted_iff {heap : Heap} : heap.Exhausted ↔ heap.freeBlocks = 0 := freeCells_eq_zero.symm

theorem kheapInit_freeBlocks (kernel : Kernel) (entries : Int -> Byte) :
    (kheapInit kernel entries).heap.freeBlocks = 25600 := by
  have total : (kheapInit kernel entries).heap.table.total.toNat = 25600 := by
    rw [(kheapInit_isKernelHeap kernel entries).total]
    rfl
  refine (freeCells_all ?_).trans total
  exact fun block inside => kheapInit_freeFrom kernel entries block (Nat.zero_le _) inside

/-- A request that is served takes the blocks of its extent. -/
theorem Heap.Hands.freeBlocks {kernel : Kernel} {size : Word} {extent : Extent}
    (hands : kernel.heap.Hands size extent) :
    (Kernel.served kernel size extent).heap.freeBlocks + extent.count = kernel.heap.freeBlocks := by
  refine freeCells_take ?_ hands.within fun _ => blockFree_markExtent
  rw [hands.count]
  exact hands.fits.2

/-- A request of one block takes a free block, if there is one. -/
theorem kzalloc_freeBlocks {kernel : Kernel} (placed : kernel.heap.WellPlaced) {size : Word}
    (one : blocksFor size = 1) :
    ((kzalloc kernel size).1 = 0#32 ↔ kernel.heap.freeBlocks = 0) ∧
      (kzalloc kernel size).2.heap.freeBlocks = kernel.heap.freeBlocks - 1 := by
  rcases kzalloc_page placed one with ⟨block, hands, result⟩ | ⟨exhausted, result⟩
  · have taken : (Kernel.served kernel size (Extent.single block)).heap.freeBlocks + 1 = kernel.heap.freeBlocks :=
      hands.freeBlocks
    have notNull := placed.addressOf_ne_null hands.inside
    rw [result]
    refine ⟨⟨fun null => absurd null notNull, fun none => ?_⟩, Nat.eq_sub_of_add_eq taken⟩
    exact absurd (taken.trans none) (Nat.succ_ne_zero _)
  · have none := Heap.exhausted_iff.mp exhausted
    rw [result]
    refine ⟨⟨fun _ => none, fun _ => rfl⟩, ?_⟩
    change kernel.heap.freeBlocks = kernel.heap.freeBlocks - 1
    rw [none]

theorem makeTables_freeBlocks {kernel : Kernel} (placed : kernel.heap.WellPlaced) (directory flags : Word)
    {count : Nat} (bound : count ≤ 1024) :
    (makeTables directory flags kernel count).1.heap.freeBlocks = kernel.heap.freeBlocks - count := by
  induction count with
  | zero => rfl
  | succ count inductionHypothesis =>
      have before := inductionHypothesis (by omega)
      have placed' := wellPlaced_makeTables placed directory flags (show count ≤ 1024 by omega)
      rw [makeTables, makeTable_heap, (kzalloc_freeBlocks placed' blocksFor_tableSize).2, before, Nat.sub_sub]

theorem makeChunk_freeBlocks {kernel : Kernel} (placed : kernel.heap.WellPlaced) (directory : Word) :
    ((makeChunk directory kernel).1 = 0#32 ↔ kernel.heap.freeBlocks = 0) ∧
      (makeChunk directory kernel).2.heap.freeBlocks = kernel.heap.freeBlocks - 1 := by
  rw [makeChunk]
  exact kzalloc_freeBlocks placed (show blocksFor 4#32 = 1 by decide)

/-- The pointers that the constructor stores through: the directory, the tables
and the chunk. -/
def spaceStores (kernel : Kernel) (flags : Byte) : List Word :=
  let directory := kzalloc kernel tableSize
  let tables := makeTables directory.1 (flags.setWidth 32) directory.2
  directory.1 :: (List.range pagingTotalEntriesPerTable).map (fun i => (kzalloc (tables i).1 tableSize).1) ++
    [(makeChunk directory.1 (tables pagingTotalEntriesPerTable).1).1]

section Space

variable {kernel : Kernel} (placed : kernel.heap.WellPlaced) (flags : Byte)

include placed

/-- The first table for which no block is left. -/
theorem makeTables_null (directory : Word) {i : Nat} (inside : i < 1024) :
    (kzalloc (makeTables directory (flags.setWidth 32) kernel i).1 tableSize).1 = 0#32 ↔
      kernel.heap.freeBlocks ≤ i := by
  have placed' := wellPlaced_makeTables placed directory (flags.setWidth 32) (Nat.le_of_lt inside)
  rw [(kzalloc_freeBlocks placed' blocksFor_tableSize).1, makeTables_freeBlocks placed _ _ (Nat.le_of_lt inside),
    Nat.sub_eq_zero_iff_le]

/-- What the constructor returns, and what it leaves. -/
theorem makeNew4GB_freeBlocks :
    ((makeNew4GBVirtualMemoryAddressSpace kernel flags).1 = 0#32 ↔ kernel.heap.freeBlocks ≤ 1025) ∧
      (makeNew4GBVirtualMemoryAddressSpace kernel flags).2.heap.freeBlocks = kernel.heap.freeBlocks - 1026 := by
  have directory := kzalloc_freeBlocks placed blocksFor_tableSize
  have directoryPlaced := kzalloc_wellPlaced placed tableSize
  have tables := makeTables_freeBlocks directoryPlaced (kzalloc kernel tableSize).1 (flags.setWidth 32)
    (Nat.le_refl pagingTotalEntriesPerTable)
  have tablesPlaced := wellPlaced_makeTables directoryPlaced (kzalloc kernel tableSize).1 (flags.setWidth 32)
    (Nat.le_refl pagingTotalEntriesPerTable)
  have left : (makeTables (kzalloc kernel tableSize).1 (flags.setWidth 32) (kzalloc kernel tableSize).2
      pagingTotalEntriesPerTable).1.heap.freeBlocks = kernel.heap.freeBlocks - 1025 := by
    rw [tables, directory.2, Nat.sub_sub]
    rfl
  have chunk := makeChunk_freeBlocks tablesPlaced (kzalloc kernel tableSize).1
  rw [left, Nat.sub_eq_zero_iff_le, Nat.sub_sub] at chunk
  rw [makeNew4GBVirtualMemoryAddressSpace]
  exact chunk

/-- A constructor that runs out of blocks stores through `NULL`, wherever in its
requests that happens. -/
theorem spaceStores_null : 0#32 ∈ spaceStores kernel flags ↔ kernel.heap.freeBlocks ≤ 1025 := by
  have directory := kzalloc_freeBlocks placed blocksFor_tableSize
  have directoryPlaced := kzalloc_wellPlaced placed tableSize
  have chunk := (makeNew4GB_freeBlocks placed flags).1
  constructor
  · intro member
    rcases List.mem_append.mp member with member | member
    · rcases List.mem_cons.mp member with null | member
      · exact Nat.le_trans (Nat.le_of_eq (directory.1.mp null.symm)) (Nat.zero_le _)
      · rcases List.mem_map.mp member with ⟨i, inside, null⟩
        have short := (makeTables_null directoryPlaced flags _ (List.mem_range.mp inside)).mp null
        have below : i < 1024 := List.mem_range.mp inside
        omega
    · exact chunk.mp (List.mem_singleton.mp member).symm
  · intro short
    exact List.mem_append_right _ (List.mem_singleton.mpr (chunk.mpr short).symm)

end Space

end Memory
end LarvaOS
