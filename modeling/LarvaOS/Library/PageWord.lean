import Mathlib.Data.Nat.Bitwise

namespace LarvaOS
namespace Library

/-!
# Page-aligned words

A 32-bit word that refers to a 4096-byte page keeps flags in its low twelve
bits.  Or-ing flags into an aligned word is addition, and masking the low bits
off rounds down to the page, so every fact about such words becomes a fact of
linear arithmetic about their numerical values.
-/

namespace PageWord

theorem mask_bit (i : Nat) (bound : i < 32) : (0xfffff000#32).getLsbD i = decide (12 ≤ i) := by
  revert i
  decide

/-- Masking the low twelve bits rounds down to a multiple of the page size. -/
theorem toNat_mask (word : BitVec 32) :
    (word &&& 0xfffff000#32).toNat = word.toNat / 4096 * 4096 := by
  have shifted : word &&& 0xfffff000#32 = (word >>> 12) <<< 12 := by
    apply BitVec.eq_of_getLsbD_eq
    intro i bound
    rw [BitVec.getLsbD_and, mask_bit i bound, BitVec.getLsbD_shiftLeft, BitVec.getLsbD_ushiftRight]
    by_cases low : i < 12
    · simp [low, Nat.not_le.mpr low]
    · have high := Nat.not_lt.mp low
      simp [low, high, bound, Nat.add_sub_cancel' high]
  rw [shifted, BitVec.toNat_shiftLeft, BitVec.toNat_ushiftRight, Nat.shiftLeft_eq,
    Nat.shiftRight_eq_div_pow]
  omega

/-- Flags below the page size are added to an aligned word, not merged into
its page number. -/
theorem toNat_or (page flags : BitVec 32) (aligned : page.toNat % 4096 = 0)
    (low : flags.toNat < 4096) : (page ||| flags).toNat = page.toNat + flags.toNat := by
  obtain ⟨number, value⟩ : 2 ^ 12 ∣ page.toNat := Nat.dvd_of_mod_eq_zero aligned
  rw [BitVec.toNat_or, value]
  exact (Nat.two_pow_add_eq_or_of_lt low number).symm

/-- The page is recovered from under its flags. -/
theorem mask_or (page flags : BitVec 32) (aligned : page.toNat % 4096 = 0)
    (low : flags.toNat < 4096) : (page ||| flags) &&& 0xfffff000#32 = page := by
  apply BitVec.eq_of_toNat_eq
  rw [toNat_mask, toNat_or page flags aligned low]
  omega

/-- The flags are recovered from above them. -/
theorem low_or (page flags : BitVec 32) (aligned : page.toNat % 4096 = 0)
    (low : flags.toNat < 4096) : (page ||| flags) &&& 7#32 = flags &&& 7#32 := by
  have seven (number : Nat) : number &&& 7 = number % 8 := Nat.and_two_pow_sub_one_eq_mod number 3
  apply BitVec.eq_of_toNat_eq
  rw [BitVec.toNat_and, BitVec.toNat_and, toNat_or page flags aligned low]
  change (page.toNat + flags.toNat) &&& 7 = flags.toNat &&& 7
  rw [seven, seven]
  omega

end PageWord

end Library
end LarvaOS
