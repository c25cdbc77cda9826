import Mathlib.Data.List.Induction
import Mathlib.Logic.Function.Basic

namespace LarvaOS
namespace Library

/-!
# Ring buffers

A ring of cells takes one item after the other, each in the cell behind the last one, and
begins again when all cells are taken.  Of a sequence of items it shows the last ones, as
many as there are cells.
-/

structure RingBuffer (Item : Type*) where
  cells : Nat -> Item
  position : Nat

namespace RingBuffer

variable {Item : Type*} (size : Nat)

def put (ring : RingBuffer Item) (item : Item) : RingBuffer Item :=
  ⟨Function.update ring.cells ring.position item, (ring.position + 1) % size⟩

def putAll (ring : RingBuffer Item) (items : List Item) : RingBuffer Item := items.foldl (put size) ring

theorem putAll_append (ring : RingBuffer Item) (items later : List Item) :
    ring.putAll size (items ++ later) = (ring.putAll size items).putAll size later := List.foldl_append

theorem putAll_concat (ring : RingBuffer Item) (items : List Item) (item : Item) :
    ring.putAll size (items ++ [item]) = (ring.putAll size items).put size item := putAll_append size ring items [item]

variable {size}

theorem putAll_position {ring : RingBuffer Item} (inside : ring.position < size) (items : List Item) :
    (ring.putAll size items).position = (ring.position + items.length) % size := by
  induction items using List.reverseRecOn with
  | nil => exact (Nat.mod_eq_of_lt inside).symm
  | append_singleton items item inductionHypothesis =>
      rw [putAll_concat, put, inductionHypothesis, Nat.mod_add_mod, List.length_append, List.length_singleton,
        Nat.add_assoc]

/-- The last item is in the cell behind the others. -/
theorem putAll_concat_cells {ring : RingBuffer Item} (inside : ring.position < size) (items : List Item) (item : Item) :
    (ring.putAll size (items ++ [item])).cells =
      Function.update (ring.putAll size items).cells ((ring.position + items.length) % size) item := by
  rw [putAll_concat, put, putAll_position inside]

/-- A cell that no item has come to. -/
theorem putAll_untouched {ring : RingBuffer Item} (inside : ring.position < size) {items : List Item} {cell : Nat}
    (untouched : forall index, index < items.length -> (ring.position + index) % size ≠ cell) :
    (ring.putAll size items).cells cell = ring.cells cell := by
  induction items using List.reverseRecOn with
  | nil => rfl
  | append_singleton items item inductionHypothesis =>
      rw [List.length_append, List.length_singleton] at untouched
      rw [putAll_concat_cells inside, Function.update_of_ne (untouched items.length (Nat.lt_succ_self _)).symm]
      exact inductionHypothesis fun index below => untouched index (Nat.lt_succ_of_lt below)

/-- Two of the last items have different cells. -/
theorem cells_apart {position index later : Nat} (before : index < later) (near : later < index + size) :
    (position + index) % size ≠ (position + later) % size := by
  intro same
  have multiple : (later - index) % size = 0 := by
    have difference : position + later - (position + index) = later - index := by omega
    rw [← difference]
    exact Nat.sub_mod_eq_zero_of_mod_eq same.symm
  rw [Nat.mod_eq_of_lt (by omega)] at multiple
  omega

/-- The ring shows the last items. -/
theorem putAll_recent {ring : RingBuffer Item} (inside : ring.position < size) {items : List Item} {index : Nat} {item : Item}
    (found : items[index]? = some item) (recent : items.length ≤ index + size) :
    (ring.putAll size items).cells ((ring.position + index) % size) = item := by
  induction items using List.reverseRecOn with
  | nil => cases found
  | append_singleton items last inductionHypothesis =>
      rw [List.length_append, List.length_singleton] at recent
      rw [putAll_concat_cells inside]
      rcases Nat.lt_or_ge index items.length with before | end'
      · rw [List.getElem?_append_left before] at found
        rw [Function.update_of_ne (cells_apart before (by omega))]
        exact inductionHypothesis found (by omega)
      · have length := (List.getElem?_eq_some_iff.mp found).1
        rw [List.length_append, List.length_singleton] at length
        have here : index = items.length := by omega
        rw [here, List.getElem?_concat_length] at found
        rw [here, Function.update_self]
        exact Option.some.inj found

end RingBuffer

end Library
end LarvaOS
