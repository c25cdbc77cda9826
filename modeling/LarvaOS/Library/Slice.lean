import Mathlib.Data.List.Basic

namespace LarvaOS
namespace Library

/-!
# Slices of an indexed sequence

A device, a file or a table is seen as a function on all integers, and a read
delivers a slice of it.  Reading in two parts is reading the joined slice.
-/

variable {Item : Type*}

/-- The `count` items from `start` on. -/
def slice (source : Int -> Item) (start : Int) (count : Nat) : List Item :=
  (List.range count).map fun index : Nat => source (start + (index : Int))

@[simp] theorem slice_length (source : Int -> Item) (start : Int) (count : Nat) :
    (slice source start count).length = count := by
  rw [slice, List.length_map, List.length_range]

theorem slice_add (source : Int -> Item) (start : Int) (first second : Nat) :
    slice source start (first + second) = slice source start first ++ slice source (start + first) second := by
  rw [slice, slice, slice, List.range_add, List.map_append, List.map_map]
  refine congrArg _ (List.map_congr_left fun index _ => ?_)
  change source (start + ((first + index : Nat) : Int)) = source (start + first + index)
  rw [Int.natCast_add, Int.add_assoc]

theorem slice_congr {source source' : Int -> Item} {start start' : Int} {count : Nat}
    (same : forall index : Nat, index < count -> source (start + index) = source' (start' + index)) :
    slice source start count = slice source' start' count :=
  List.map_congr_left fun index member => same index (List.mem_range.mp member)

theorem mem_slice {source : Int -> Item} {start : Int} {count : Nat} {item : Item} :
    item ∈ slice source start count ↔ exists index : Nat, index < count ∧ source (start + index) = item := by
  rw [slice, List.mem_map]
  constructor
  · rintro ⟨index, member, same⟩
    exact ⟨index, List.mem_range.mp member, same⟩
  · rintro ⟨index, inside, same⟩
    exact ⟨index, List.mem_range.mpr inside, same⟩

theorem slice_getElem? (source : Int -> Item) (start : Int) {count index : Nat} (inside : index < count) :
    (slice source start count)[index]? = some (source (start + index)) := by
  rw [slice, List.getElem?_map, List.getElem?_range inside]
  rfl

end Library
end LarvaOS
