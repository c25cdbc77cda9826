import Mathlib.Logic.Function.Basic
import LarvaOS.Libc.Strings

namespace LarvaOS
namespace Libc

/-!
# Character arrays

An array that a function fills.  The stores are recorded, so that a bound on them
is a bound on what the function overwrites; an array holds one string at most.
-/

/-- An array of characters, with the list of the indexes stored to. -/
structure CharArray where
  chars : Nat -> Byte
  stores : List Nat

def CharArray.put (str : CharArray) (index : Nat) (c : Byte) : CharArray :=
  ⟨Function.update str.chars index c, index :: str.stores⟩

/-- The characters from an index on are these. -/
def HoldsAt (chars : Nat -> Byte) (start : Nat) (content : List Byte) : Prop :=
  forall place c, content[place]? = some c -> chars (start + place) = c

theorem holdsAt_cons {chars : Nat -> Byte} {start : Nat} {c : Byte} {content : List Byte} :
    HoldsAt chars start (c :: content) ↔ chars start = c ∧ HoldsAt chars (start + 1) content := by
  constructor
  · intro holds
    refine ⟨holds 0 c rfl, fun place c' found => ?_⟩
    rw [Nat.add_assoc, Nat.add_comm 1]
    exact holds (place + 1) c' found
  · rintro ⟨first, later⟩ place c' found
    cases place with
    | zero => exact first.trans (Option.some.inj found)
    | succ place =>
        rw [Nat.add_comm place, ← Nat.add_assoc]
        exact later place c' found

/-- What a loop has done that stored a number of characters from an index on. -/
structure StoresFrom (count i : Nat) (str after : CharArray) : Prop where
  stores : forall index, index ∈ after.stores -> index ∈ str.stores ∨ index < i + count
  kept : forall place, place < i -> after.chars place = str.chars place

theorem StoresFrom.put (str : CharArray) (i : Nat) (c : Byte) : StoresFrom 1 i str (str.put i c) where
  stores := by
    intro index member
    rcases List.mem_cons.mp member with here | earlier
    · exact Or.inr (here ▸ Nat.lt_succ_self i)
    · exact Or.inl earlier
  kept := fun place below => Function.update_of_ne (Nat.ne_of_lt below) _ _

theorem StoresFrom.trans {first later i : Nat} {str between after : CharArray} (one : StoresFrom first i str between)
    (other : StoresFrom later (i + first) between after) : StoresFrom (first + later) i str after where
  stores := by
    intro index member
    rcases other.stores index member with earlier | below
    · rcases one.stores index earlier with before | below
      · exact Or.inl before
      · exact Or.inr (by omega)
    · exact Or.inr (by omega)
  kept := fun place below => (other.kept place (by omega)).trans (one.kept place below)

theorem holdsAt_append {chars : Nat -> Byte} {start : Nat} {first later : List Byte} :
    HoldsAt chars start (first ++ later) ↔ HoldsAt chars start first ∧ HoldsAt chars (start + first.length) later := by
  induction first generalizing start with
  | nil => exact ⟨fun holds => ⟨fun _ _ found => absurd found (by simp), holds⟩, fun both => both.2⟩
  | cons c first inductionHypothesis =>
      rw [List.cons_append, holdsAt_cons, holdsAt_cons, inductionHypothesis, and_assoc, List.length_cons]
      rw [Nat.add_assoc, Nat.add_comm 1]

/-- An array holds one string. -/
theorem HoldsAt.unique {chars : Nat -> Byte} {start : Nat} {s1 s2 : List Byte} (string1 : IsString s1)
    (string2 : IsString s2) (holds1 : HoldsAt chars start (s1 ++ [0#8])) (holds2 : HoldsAt chars start (s2 ++ [0#8])) :
    s1 = s2 := by
  induction s1 generalizing start s2 with
  | nil =>
      cases s2 with
      | nil => rfl
      | cons c s2 =>
          have null := (holdsAt_cons.mp holds1).1.symm.trans (holdsAt_cons.mp holds2).1
          exact absurd (null ▸ List.mem_cons_self) string2
  | cons c1 s1 inductionHypothesis =>
      cases s2 with
      | nil =>
          have null := (holdsAt_cons.mp holds2).1.symm.trans (holdsAt_cons.mp holds1).1
          exact absurd (null ▸ List.mem_cons_self) string1
      | cons c2 s2 =>
          rcases holdsAt_cons.mp holds1 with ⟨first1, later1⟩
          rcases holdsAt_cons.mp holds2 with ⟨first2, later2⟩
          rw [first1.symm.trans first2]
          refine congrArg (c2 :: ·) (inductionHypothesis ?_ ?_ later1 later2)
          · exact fun member => string1 (List.mem_cons_of_mem c1 member)
          · exact fun member => string2 (List.mem_cons_of_mem c2 member)

theorem HoldsAt.ne_zero {chars : Nat -> Byte} {s : List Byte} {place : Nat} (holds : HoldsAt chars 0 s)
    (string : IsString s) (inside : place < s.length) : chars place ≠ 0#8 := by
  intro null
  have here := holds place s[place] (List.getElem?_eq_getElem inside)
  rw [Nat.zero_add, null] at here
  exact string (here ▸ List.getElem_mem inside)

theorem HoldsAt.reverse {chars swapped : Nat -> Byte} {content : List Byte}
    (holds : HoldsAt chars 0 content)
    (swap : forall place, place < content.length -> swapped place = chars (content.length - 1 - place)) :
    HoldsAt swapped 0 content.reverse := by
  intro place c found
  have inside : place < content.length := by
    have bound := (List.getElem?_eq_some_iff.mp found).1
    rwa [List.length_reverse] at bound
  rw [List.getElem?_reverse inside] at found
  rw [Nat.zero_add, swap place inside]
  have here := holds _ c found
  rwa [Nat.zero_add] at here

end Libc
end LarvaOS
