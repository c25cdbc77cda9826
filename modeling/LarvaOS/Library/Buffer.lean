import Mathlib.Algebra.Group.Nat.Defs
import Mathlib.Data.List.Basic

namespace LarvaOS
namespace Library

/-!
# Buffers in memory that goes round

Memory is a function on addresses of a fixed width, and addresses wrap.  A
routine fills a buffer when it stores given items from an address on and nothing
else.  Filling a buffer in two parts is filling it at once, as long as it does
not reach around the memory.
-/

variable {Item : Type*} {width : Nat}

/-- The items are stored from the address on, and no other address changes. -/
structure Fills (before after : BitVec width -> Item) (out : BitVec width) (count : Nat) (content : Nat -> Item) :
    Prop where
  inside : forall place, place < count -> after (out + BitVec.ofNat width place) = content place
  outside : forall address, count ≤ (address - out).toNat -> after address = before address

/-- The place of an address in a buffer. -/
theorem offset_toNat (out : BitVec width) {place : Nat} (small : place < 2 ^ width) :
    (out + BitVec.ofNat width place - out).toNat = place := by
  rw [BitVec.add_comm, BitVec.add_sub_cancel, BitVec.toNat_ofNat, Nat.mod_eq_of_lt small]

/-- Every address has a place. -/
theorem add_offset (out address : BitVec width) : out + BitVec.ofNat width (address - out).toNat = address := by
  rw [BitVec.ofNat_toNat, BitVec.setWidth_eq, BitVec.add_comm, BitVec.sub_add_cancel]

namespace Fills

variable {before middle after : BitVec width -> Item} {out : BitVec width} {count rest : Nat}
  {content later : Nat -> Item}

theorem empty (before : BitVec width -> Item) (out : BitVec width) (content : Nat -> Item) :
    Fills before before out 0 content :=
  ⟨fun _ below => absurd below (Nat.not_lt_zero _), fun _ _ => rfl⟩

theorem congr (fills : Fills before after out count content)
    (same : forall place, place < count -> content place = later place) : Fills before after out count later :=
  ⟨fun place below => (fills.inside place below).trans (same place below), fills.outside⟩

/-- A list of items that is stored. -/
theorem of_list {items : List Item}
    (stored : forall address, after address = (items[(address - out).toNat]?).getD (before address))
    (short : items.length ≤ 2 ^ width) (same : forall place, place < items.length -> items[place]? = some (content place)) :
    Fills before after out items.length content := by
  refine ⟨fun place below => ?_, fun address beyond => ?_⟩
  · rw [stored, offset_toNat out (Nat.lt_of_lt_of_le below short), same place below]
    rfl
  · rw [stored, List.getElem?_eq_none beyond]
    rfl

/-- One buffer behind the other. -/
theorem append (first : Fills before middle out count content)
    (second : Fills middle after (out + BitVec.ofNat width count) rest later) (fits : count + rest ≤ 2 ^ width) :
    Fills before after out (count + rest) fun place => if place < count then content place else later (place - count) := by
  have joined : forall place, out + BitVec.ofNat width (count + place) =
      out + BitVec.ofNat width count + BitVec.ofNat width place := by
    intro place
    rw [BitVec.add_assoc, BitVec.ofNat_add]
  have behind : forall address, (address - out).toNat < count ∨ count + rest ≤ (address - out).toNat ->
      rest ≤ (address - (out + BitVec.ofNat width count)).toNat := by
    intro address apart
    by_contra inside
    have below := Nat.not_le.mp inside
    have reached : out + BitVec.ofNat width (count + (address - (out + BitVec.ofNat width count)).toNat) = address := by
      rw [joined]
      exact add_offset _ _
    have place : (address - out).toNat = count + (address - (out + BitVec.ofNat width count)).toNat := by
      have offset := offset_toNat out (show count + (address - (out + BitVec.ofNat width count)).toNat < 2 ^ width by omega)
      rwa [reached] at offset
    omega
  refine ⟨fun place below => ?_, fun address beyond => ?_⟩
  · by_cases early : place < count
    · rw [if_pos early, second.outside _ (behind _ (Or.inl ?_)), first.inside place early]
      rw [offset_toNat out (by omega)]
      exact early
    · rw [if_neg early, ← second.inside (place - count) (by omega), ← joined]
      congr 3
      omega
  · rw [second.outside address (behind address (Or.inr beyond)), first.outside address (by omega)]

/-- A buffer inside of a structure. -/
theorem inStructure {offset size : Nat} (fills : Fills before after (out + BitVec.ofNat width offset) count content)
    (fits : offset + count ≤ size) (small : size ≤ 2 ^ width) {place : Nat} (inside : place < size) :
    after (out + BitVec.ofNat width place) =
      if offset ≤ place ∧ place < offset + count then content (place - offset)
      else before (out + BitVec.ofNat width place) := by
  by_cases within : offset ≤ place ∧ place < offset + count
  · rw [if_pos within, ← fills.inside (place - offset) (by omega), BitVec.add_assoc, ← BitVec.ofNat_add,
      Nat.add_sub_cancel' within.1]
  · rw [if_neg within]
    refine fills.outside _ (Nat.not_lt.mp fun below => within ?_)
    have offsets := offset_toNat out (show place < 2 ^ width by omega)
    rw [← add_offset (out + BitVec.ofNat width offset) (out + BitVec.ofNat width place), BitVec.add_assoc,
      ← BitVec.ofNat_add, offset_toNat out (by omega)] at offsets
    omega

/-- What is apart from the structure is left alone. -/
theorem apart {offset size : Nat} (fills : Fills before after (out + BitVec.ofNat width offset) count content)
    (fits : offset + count ≤ size) {address : BitVec width}
    (outside : forall place, place < size -> address ≠ out + BitVec.ofNat width place) : after address = before address := by
  refine fills.outside address (Nat.not_lt.mp fun below => ?_)
  refine outside (offset + (address - (out + BitVec.ofNat width offset)).toNat) (by omega) ?_
  rw [BitVec.ofNat_add, ← BitVec.add_assoc]
  exact (add_offset _ _).symm

end Fills

end Library
end LarvaOS
