import LarvaOS.Machine.Word

namespace LarvaOS
namespace Libc

/-!
# Strings

A string is the list of its bytes before the NUL.  A `char` is signed, and the
comparisons subtract characters as `int` values.
-/

/-- `strncpy` into an array of characters.  It stops after the NUL, and after 255
characters. -/
def strncpy (d : Nat -> Byte) (s : List Byte) (n : Nat) : Nat -> Byte := fun place =>
  if place < min n 255 then ((s ++ [0#8])[place]?).getD (d place) else d place

/-- `tolower`, on a character. -/
def toLower (c : Byte) : Byte := if 0x41 ≤ c.toNat ∧ c.toNat ≤ 0x5A then c ||| 0x20#8 else c

/-- `strcasecmp`.  The character after the last one of a string is NUL. -/
def strcasecmp : List Byte -> List Byte -> Int
  | [], s2 => (toLower 0#8).toInt - (toLower (s2.headD 0#8)).toInt
  | c :: s1, s2 =>
      let result := (toLower c).toInt - (toLower (s2.headD 0#8)).toInt
      if result ≠ 0 ∨ c = 0#8 then result else strcasecmp s1 s2.tail

theorem strcasecmp_cons (c : Byte) (s1 s2 : List Byte) :
    strcasecmp (c :: s1) s2 =
      if (toLower c).toInt - (toLower (s2.headD 0#8)).toInt ≠ 0 ∨ c = 0#8 then
        (toLower c).toInt - (toLower (s2.headD 0#8)).toInt
      else strcasecmp s1 s2.tail := rfl

/-- A string holds no NUL. -/
def IsString (s : List Byte) : Prop := 0#8 ∉ s

instance (s : List Byte) : Decidable (IsString s) := inferInstanceAs (Decidable (¬ _))

/-- Equality of strings ignoring the case of ASCII letters. -/
def SameIgnoringCase (s1 s2 : List Byte) : Prop := s1.map toLower = s2.map toLower

instance (s1 s2 : List Byte) : Decidable (SameIgnoringCase s1 s2) := inferInstanceAs (Decidable (_ = _))

theorem toLower_eq_zero {c : Byte} : toLower c = 0#8 ↔ c = 0#8 := by
  revert c
  decide

theorem toInt_toLower_sub {c1 c2 : Byte} : (toLower c1).toInt - (toLower c2).toInt = 0 ↔ toLower c1 = toLower c2 := by
  constructor
  · intro same
    exact BitVec.eq_of_toInt_eq (Int.eq_of_sub_eq_zero same)
  · intro same
    rw [same, Int.sub_self]

/-- Two strings compare as equal exactly when they are equal ignoring case. -/
theorem strcasecmp_eq_zero_iff {s1 s2 : List Byte} (string1 : IsString s1) (string2 : IsString s2) :
    strcasecmp s1 s2 = 0 ↔ SameIgnoringCase s1 s2 := by
  unfold SameIgnoringCase
  induction s1 generalizing s2 with
  | nil =>
      rw [strcasecmp, toInt_toLower_sub]
      cases s2 with
      | nil => exact ⟨fun _ => rfl, fun _ => rfl⟩
      | cons c2 s2 =>
          constructor
          · intro same
            have null : c2 = 0#8 := toLower_eq_zero.mp (same.symm.trans (by decide))
            exact absurd (null ▸ List.mem_cons_self) string2
          · intro same
            exact absurd same (by simp)
  | cons c1 s1 inductionHypothesis =>
      have notNull : c1 ≠ 0#8 := fun null => string1 (null ▸ List.mem_cons_self)
      have rest1 : IsString s1 := fun member => string1 (List.mem_cons_of_mem c1 member)
      rw [strcasecmp_cons]
      cases s2 with
      | nil =>
          have differs : (toLower c1).toInt - (toLower (List.headD [] 0#8)).toInt ≠ 0 := by
            rw [ne_eq, toInt_toLower_sub]
            exact fun same => notNull (toLower_eq_zero.mp (same.trans (by decide)))
          rw [if_pos (Or.inl differs)]
          exact ⟨fun same => absurd same differs, fun same => absurd same (by simp)⟩
      | cons c2 s2 =>
          have rest2 : IsString s2 := fun member => string2 (List.mem_cons_of_mem c2 member)
          rw [List.headD_cons, List.tail_cons, List.map_cons, List.map_cons, List.cons_eq_cons]
          by_cases same : toLower c1 = toLower c2
          · have goesOn : ¬ ((toLower c1).toInt - (toLower c2).toInt ≠ 0 ∨ c1 = 0#8) := by
              rintro (differs | null)
              · exact differs (toInt_toLower_sub.mpr same)
              · exact notNull null
            rw [if_neg goesOn, inductionHypothesis rest1 rest2]
            exact ⟨fun rest => ⟨same, rest⟩, fun both => both.2⟩
          · have differs : (toLower c1).toInt - (toLower c2).toInt ≠ 0 := fun zero => same (toInt_toLower_sub.mp zero)
            rw [if_pos (Or.inl differs)]
            exact ⟨fun zero => absurd zero differs, fun both => absurd both.1 same⟩

end Libc
end LarvaOS
