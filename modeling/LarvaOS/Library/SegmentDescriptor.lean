import Mathlib.Data.Nat.Bitwise

namespace LarvaOS
namespace Library

/-!
# Segment descriptors of a 32-bit x86 processor

A descriptor is eight bytes.  The base lies in bytes 2, 3, 4 and 7, the limit in
bytes 0 and 1 and in the low nibble of byte 6, and the access rights in byte 5.
The highest bit of byte 6 is the granularity: when it is set, the limit counts
pages of 4096 bytes, and the last byte of the last page belongs to the segment.
-/

namespace SegmentDescriptor

/-- The bytes of one descriptor. -/
abbrev Bytes := Nat -> BitVec 8

variable (bytes : Bytes)

def base : BitVec 32 := bytes 7 ++ bytes 4 ++ bytes 3 ++ bytes 2

/-- The limit field, of 20 bits. -/
def limitField : BitVec 20 := (bytes 6).extractLsb' 0 4 ++ bytes 1 ++ bytes 0

def access : BitVec 8 := bytes 5

def granularity : Bool := (bytes 6).getLsbD 7

/-- The last offset inside the segment. -/
def limit : BitVec 32 :=
  if granularity bytes then (limitField bytes).setWidth 32 <<< 12 ||| 0xFFF#32 else (limitField bytes).setWidth 32

/-- What a descriptor says about its segment. -/
structure Segment where
  base : BitVec 32
  limit : BitVec 32
  access : BitVec 8
deriving DecidableEq

def decode : Segment := ⟨base bytes, limit bytes, access bytes⟩

variable {bytes}

theorem decode_congr {other : Bytes} (same : forall place, place < 8 -> other place = bytes place) :
    decode other = decode bytes := by
  unfold decode base limit granularity limitField access
  rw [same 0 (by decide), same 1 (by decide), same 2 (by decide), same 3 (by decide), same 4 (by decide),
    same 5 (by decide), same 6 (by decide), same 7 (by decide)]

/-- Four bytes of a word, put together again. -/
theorem base_of_bytes {value : BitVec 32} (first : bytes 2 = value.extractLsb' 0 8)
    (second : bytes 3 = value.extractLsb' 8 8) (third : bytes 4 = value.extractLsb' 16 8)
    (fourth : bytes 7 = value.extractLsb' 24 8) : base bytes = value := by
  unfold base
  rw [first, second, third, fourth]
  refine BitVec.eq_of_getLsbD_eq fun i inside => ?_
  simp only [BitVec.getLsbD_append, BitVec.getLsbD_extractLsb']
  by_cases one : i < 8
  · simp [one]
  · by_cases two : i - 8 < 8
    · have place : 8 + (i - 8) = i := by omega
      simp [one, two, place]
    · by_cases three : i - 8 - 8 < 8
      · have place : 16 + (i - 8 - 8) = i := by omega
        simp only [one, two, three, place, if_false, if_true, decide_true, Bool.true_and]
      · have place : 24 + (i - 8 - 8 - 8) = i := by omega
        have last : i - 8 - 8 - 8 < 8 := by omega
        simp only [one, two, three, last, place, if_false, decide_true, Bool.true_and]

/-- The 20 bits of a field, put together again. -/
theorem limitField_of_bytes {value : BitVec 32} (first : bytes 0 = value.extractLsb' 0 8)
    (second : bytes 1 = value.extractLsb' 8 8) (third : (bytes 6).extractLsb' 0 4 = value.extractLsb' 16 4) :
    limitField bytes = value.setWidth 20 := by
  unfold limitField
  rw [first, second, third]
  refine BitVec.eq_of_getLsbD_eq fun i inside => ?_
  simp only [BitVec.getLsbD_append, BitVec.getLsbD_extractLsb', BitVec.getLsbD_setWidth]
  by_cases one : i < 8
  · have low : i < 20 := by omega
    simp [one, low]
  · by_cases two : i - 8 < 8
    · have low : i < 20 := by omega
      have place : 8 + (i - 8) = i := by omega
      simp [one, two, low, place]
    · have last : i - 8 - 8 < 4 := by omega
      have low : i < 20 := by omega
      have place : 16 + (i - 8 - 8) = i := by omega
      simp only [one, two, last, low, place, if_false, decide_true, Bool.true_and]

end SegmentDescriptor

end Library
end LarvaOS
