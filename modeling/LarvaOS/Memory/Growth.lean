import LarvaOS.Memory.Allocations
import LarvaOS.Memory.SpaceRelease

namespace LarvaOS
namespace Memory

open Library

/-!
# Heaps that have grown

A sequence of requests without a release takes free blocks only, and whatever was owned
stays owned.  A block that such a sequence has taken and that is still owned in the end
tells the entry table from what it was.
-/

/-- The heap has changed by requests alone. -/
structure Grown (first later : Heap) : Prop where
  pool : first.SamePool later
  takes : Takes first later
  owns : forall extent, first.Owns extent -> later.Owns extent

namespace Grown

variable {first before later : Heap}

theorem refl (heap : Heap) : Grown heap heap := ⟨Heap.SamePool.refl heap, Takes.refl heap, fun _ owned => owned⟩

theorem trans (left : Grown first before) (right : Grown before later) : Grown first later where
  pool := left.pool.trans right.pool
  takes := left.takes.trans right.takes left.pool
  owns := fun extent owned => right.owns extent (left.owns extent owned)

theorem kzalloc {kernel : Kernel} (placed : kernel.heap.WellPlaced) (size : Word) :
    Grown kernel.heap (Memory.kzalloc kernel size).2.heap where
  pool := (keeps_kzalloc (fun _ => True) placed size).pool
  takes := takes_kzalloc placed size
  owns := fun extent => (keeps_kzalloc (fun _ => True) placed size).owns extent trivial

/-- What was handed out on the way and is owned in the end was not there at first. -/
theorem not_sameEntries {kernel current after : Kernel} (grown : Grown kernel.heap current.heap) {size : Word}
    {extent : Extent} (hands : current.heap.Hands size extent) (owned : after.heap.Owns extent) :
    ¬ SameEntries kernel after := by
  intro same
  have inside : extent.first < kernel.heap.table.total.toNat := by
    rw [← grown.pool.total]
    exact hands.inside
  have wasFree := grown.takes.free
    (hands.fits.2 extent.first (Nat.le_refl _) (Nat.lt_add_of_pos_right (blocksFor_pos hands.nonzero)))
  have taken := owned.recorded.not_free extent.covers_first
  unfold BlockFree at wasFree
  rw [← same extent.first inside] at wasFree
  exact Bool.false_ne_true (taken.symm.trans wasFree)

end Grown

/-! ## Requests in a row -/

/-- The heap serves these requests, one after the other. -/
def Heap.ServesAll : Heap -> List Word -> Prop
  | _, [] => True
  | heap, size :: sizes => exists extent, heap.Hands size extent ∧
      (heap.withEntries (markExtent heap.table.entries extent)).ServesAll sizes

theorem servesAll_cons {kernel : Kernel} (placed : kernel.heap.WellPlaced) (size : Word) (sizes : List Word) :
    kernel.heap.ServesAll (size :: sizes) ↔
      (kzalloc kernel size).1 ≠ 0#32 ∧ (kzalloc kernel size).2.heap.ServesAll sizes := by
  rw [Heap.ServesAll]
  rcases kzalloc_cases placed size with ⟨extent, hands, result⟩ | ⟨refuses, result⟩
  · rw [result]
    constructor
    · rintro ⟨other, handsOther, rest⟩
      obtain rfl := hands.unique handsOther
      exact ⟨placed.addressOf_ne_null hands.inside, rest⟩
    · rintro ⟨_, rest⟩
      exact ⟨extent, hands, rest⟩
  · rw [result]
    constructor
    · rintro ⟨extent, hands, _⟩
      exact absurd hands.fits (refuses hands.nonzero extent.first)
    · rintro ⟨served, _⟩
      exact absurd rfl served

/-- The kernel has made these requests, of one block each. -/
structure Asked (kernel current : Kernel) (sizes : List Word) : Prop where
  placed : current.heap.WellPlaced
  grown : Grown kernel.heap current.heap
  freeBlocks : current.heap.freeBlocks = kernel.heap.freeBlocks - sizes.length
  serves : sizes.length ≤ kernel.heap.freeBlocks -> forall more,
    kernel.heap.ServesAll (sizes ++ more) ↔ current.heap.ServesAll more

namespace Asked

variable {kernel current after : Kernel} {sizes : List Word}

theorem nothing (placed : kernel.heap.WellPlaced) : Asked kernel kernel [] :=
  ⟨placed, Grown.refl kernel.heap, rfl, fun _ _ => Iff.rfl⟩

theorem of_heap (asked : Asked kernel current sizes) (same : after.heap = current.heap) : Asked kernel after sizes := by
  rcases asked with ⟨placed, grown, freeBlocks, serves⟩
  rw [← same] at placed grown freeBlocks
  refine ⟨placed, grown, freeBlocks, fun enough more => ?_⟩
  rw [serves enough more, same]

theorem kzalloc (asked : Asked kernel current sizes) {size : Word} (one : blocksFor size = 1) :
    Asked kernel (Memory.kzalloc current size).2 (sizes ++ [size]) := by
  have page := kzalloc_freeBlocks asked.placed one
  refine ⟨kzalloc_wellPlaced asked.placed size, asked.grown.trans (Grown.kzalloc asked.placed size), ?_, ?_⟩
  · rw [page.2, asked.freeBlocks, List.length_append, List.length_singleton, Nat.sub_sub]
  · intro enough more
    rw [List.length_append, List.length_singleton] at enough
    have served : (Memory.kzalloc current size).1 ≠ 0#32 := fun null => by
      have none := page.1.mp null
      rw [asked.freeBlocks] at none
      omega
    rw [List.append_assoc, asked.serves (by omega), List.singleton_append, servesAll_cons asked.placed]
    exact ⟨fun all => all.2, fun rest => ⟨served, rest⟩⟩

/-- The next request is refused when no block is left. -/
theorem refused_iff (asked : Asked kernel current sizes) {size : Word} (one : blocksFor size = 1) :
    (Memory.kzalloc current size).1 = 0#32 ↔ kernel.heap.freeBlocks ≤ sizes.length := by
  rw [(kzalloc_freeBlocks asked.placed one).1, asked.freeBlocks, Nat.sub_eq_zero_iff_le]

end Asked

/-- A request of one block to a full heap changes nothing in it. -/
theorem kzalloc_full {kernel : Kernel} (placed : kernel.heap.WellPlaced) {size : Word} (one : blocksFor size = 1)
    (none : kernel.heap.freeBlocks = 0) : (kzalloc kernel size).1 = 0#32 ∧ (kzalloc kernel size).2.heap = kernel.heap := by
  rcases kzalloc_page placed one with ⟨block, hands, _⟩ | ⟨_, result⟩
  · exact absurd (Heap.exhausted_iff.mpr none) hands.not_exhausted
  · rw [result]
    exact ⟨rfl, rfl⟩

/-- The release of a block that was just taken gives the entries back. -/
theorem kfree_kzalloc_entries {kernel : Kernel} (kernelHeap : kernel.heap.IsKernelHeap) (encoded : kernel.heap.Encoded)
    {size : Word} (served : (kzalloc kernel size).1 ≠ 0#32) {current : Kernel}
    (heap : current.heap = (kzalloc kernel size).2.heap) : SameEntries kernel (kfree current (kzalloc kernel size).1) := by
  have placed := kernelHeap.wellPlaced
  rcases kzalloc_cases placed size with ⟨extent, hands, result⟩ | ⟨_, result⟩
  · rw [result] at heap ⊢
    have released := free_spec (placed.withEntries _) extent (Heap.owns_marked hands.within).recorded hands.within
      (kernelHeap.low hands.inside)
    rcases encoded with ⟨extents, encodes⟩
    intro block inside
    rw [kfree, heap]
    change (free (kernel.heap.withEntries (markExtent kernel.heap.table.entries extent))
      ((kernel.heap.withEntries (markExtent kernel.heap.table.entries extent)).addressOf extent.first)).table.entries
        block = _
    rw [released]
    change clearExtent (markExtent kernel.heap.table.entries extent) extent block = _
    by_cases covered : extent.Covers block
    · have below := covered.2
      rw [hands.count] at below
      rw [clearExtent_of_covers _ covered]
      exact (encodes.blank_of_free inside (hands.fits.2 block covered.1 below)).symm
    · rw [clearExtent_of_not_covers _ covered, markExtent_of_not_covers _ covered]
  · rw [result] at served
    exact absurd rfl served

end Memory
end LarvaOS
