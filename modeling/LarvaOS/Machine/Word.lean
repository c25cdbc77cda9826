import Mathlib.Algebra.Group.Int.Defs
import Mathlib.Algebra.Group.Nat.Defs

namespace LarvaOS

/-!
# Machine words and C error numbers

Addresses and `uint32_t` values are 32-bit words, and the kernel's pointers
are plain words: the address `0` is `NULL`, and nothing in the kernel keeps
page zero unmapped.  A C `int` is an `Int`; where the source converts between
the two, the conversion is written out.
-/

abbrev Word := BitVec 32
abbrev Byte := BitVec 8

/-- The value of a C `int` with the given bit pattern. -/
def wordToInt (word : Word) : Int := word.toInt

/-- Conversion to `uint32_t`, which is also what a comparison of an `int`
with a `size_t` does to its signed side. -/
def intToWord (value : Int) : Word := BitVec.ofInt 32 value

/-- The result of C `int` arithmetic, which wraps on this machine. -/
def wrapInt (value : Int) : Int := wordToInt (intToWord value)

theorem wrapInt_of_small {value : Int} (lower : -2 ^ 31 ≤ value) (upper : value < 2 ^ 31) :
    wrapInt value = value := by
  rw [wrapInt, wordToInt, intToWord, BitVec.toInt_ofInt, Int.bmod_eq_of_le]
  · exact lower
  · exact upper

theorem wordToInt_of_small {word : Word} (small : word.toNat < 2 ^ 31) : wordToInt word = word.toNat := by
  rw [wordToInt, BitVec.toInt_eq_toNat_cond, if_pos (by omega)]

theorem intToWord_mul (left right : Int) : intToWord (left * right) = intToWord left * intToWord right :=
  BitVec.ofInt_mul left right

theorem intToWord_wrapInt (value : Int) : intToWord (wrapInt value) = intToWord value :=
  BitVec.ofInt_toInt

/-- A number that is not negative, as a word. -/
theorem intToWord_of_nonneg {value : Int} (lower : 0 ≤ value) : intToWord value = BitVec.ofNat 32 value.toNat := by
  rw [intToWord, ← BitVec.ofInt_natCast, Int.toNat_of_nonneg lower]

theorem wrapInt_eq_bmod (value : Int) : wrapInt value = value.bmod (2 ^ 32) := by
  rw [wrapInt, wordToInt, intToWord, BitVec.toInt_ofInt]

theorem wrapInt_add_wrapInt (value step : Int) : wrapInt (wrapInt value + step) = wrapInt (value + step) := by
  rw [wrapInt_eq_bmod, wrapInt_eq_bmod, wrapInt_eq_bmod, Int.bmod_add_bmod]

theorem wrapInt_add_period (value : Int) : wrapInt (value + 4294967296) = wrapInt value := by
  rw [wrapInt_eq_bmod, wrapInt_eq_bmod]
  exact Int.add_bmod_right value (2 ^ 32)

/-- The wrapped result is the exact one exactly when that is an `int`. -/
theorem wrapInt_eq_iff (value : Int) : wrapInt value = value ↔ -2 ^ 31 ≤ value ∧ value < 2 ^ 31 := by
  constructor
  · intro exact
    have lower := BitVec.le_toInt (intToWord value)
    have upper := BitVec.toInt_lt (x := intToWord value)
    change -2 ^ 31 ≤ wrapInt value at lower
    change wrapInt value < 2 ^ 31 at upper
    rw [exact] at lower upper
    exact ⟨lower, upper⟩
  · rintro ⟨lower, upper⟩
    exact wrapInt_of_small lower upper

/-- A wrapped result is congruent to the exact one. -/
theorem wrapInt_emod (value : Int) : wrapInt value % 4294967296 = value % 4294967296 := by
  rw [wrapInt_eq_bmod]
  exact Int.bmod_emod

/-- Congruent results wrap to the same. -/
theorem wrapInt_congr {value other : Int} (same : value % 4294967296 = other % 4294967296) :
    wrapInt value = wrapInt other := by
  rw [wrapInt_eq_bmod, wrapInt_eq_bmod]
  exact (Int.emod_bmod value (2 ^ 32)).symm.trans
    ((congrArg (Int.bmod · (2 ^ 32)) same).trans (Int.emod_bmod other (2 ^ 32)))

/-! ## errno.h -/

def MAX_ERRNO : Int := 4095
def ESRCH : Int := 3
def EIO : Int := 5
def ENOMEM : Int := 12
def EINVAL : Int := 22
def EROFS : Int := 30

/-- `ERR_PTR`: an error number in the place of a pointer. -/
def errPtr (error : Int) : Word := intToWord error

/-- `PTR_ERR`. -/
def ptrErr (pointer : Word) : Int := wordToInt pointer

/-- `IS_ERR`: the top 4095 addresses are error numbers. -/
def isErr (pointer : Word) : Bool := (intToWord (-MAX_ERRNO)).toNat ≤ pointer.toNat

/-- An error number in the place of a pointer is recognized. -/
theorem isErr_errPtr {error : Int} (positive : 0 < error) (known : error ≤ MAX_ERRNO) :
    isErr (errPtr (-error)) = true := by
  unfold isErr errPtr intToWord MAX_ERRNO at *
  rw [BitVec.toNat_ofInt, BitVec.toNat_ofInt, decide_eq_true_iff]
  omega

end LarvaOS
