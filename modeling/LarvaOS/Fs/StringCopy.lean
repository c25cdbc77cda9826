import LarvaOS.Fs.OpenRoot
import LarvaOS.Library.Buffer

namespace LarvaOS
namespace Fs

open Library Memory

/-!
# Copies in memory

What `strcpy` and the copy of a field make of the memory.  A string is copied with its
NUL, which is the first one behind its address.
-/

theorem cString_length {bytes : Word -> Byte} {address : Word} (length : Nat) {place : Nat}
    (ends : bytes (address + BitVec.ofNat 32 place) = 0#8) : (cString bytes length address).length ≤ place := by
  induction length generalizing address place with
  | zero => exact Nat.zero_le _
  | succ length inductionHypothesis =>
      rw [cString]
      by_cases null : bytes address = 0#8
      · rw [if_pos null]
        exact Nat.zero_le _
      · rw [if_neg null, List.length_cons]
        cases place with
        | zero =>
            rw [BitVec.add_zero] at ends
            exact absurd ends null
        | succ place =>
            refine Nat.succ_le_succ (inductionHypothesis ?_)
            rw [← ends, BitVec.add_assoc]
            refine congrArg (fun next => bytes (address + next)) ?_
            rw [Nat.add_comm, BitVec.ofNat_add]

/-- A string has at least the bytes in front of its NUL. -/
theorem le_cString_length {bytes : Word -> Byte} {address : Word} (length : Nat) {count : Nat} (room : count ≤ length)
    (goesOn : forall i, i < count -> bytes (address + BitVec.ofNat 32 i) ≠ 0#8) :
    count ≤ (cString bytes length address).length := by
  induction length generalizing address count with
  | zero => omega
  | succ length inductionHypothesis =>
      cases count with
      | zero => exact Nat.zero_le _
      | succ count =>
          have first := goesOn 0 (Nat.zero_lt_succ count)
          rw [BitVec.add_zero] at first
          rw [cString, if_neg first, List.length_cons]
          refine Nat.succ_le_succ (inductionHypothesis (by omega) fun i below => ?_)
          have next := goesOn (i + 1) (by omega)
          rwa [Nat.add_comm, BitVec.ofNat_add, ← BitVec.add_assoc] at next

/-- A string that is shorter than the memory ends with a NUL. -/
theorem cString_null {bytes : Word -> Byte} {address : Word} (length : Nat)
    (shorter : (cString bytes length address).length < length) :
    bytes (address + BitVec.ofNat 32 (cString bytes length address).length) = 0#8 := by
  induction length generalizing address with
  | zero => exact absurd shorter (Nat.not_lt_zero _)
  | succ length inductionHypothesis =>
      rw [cString] at shorter ⊢
      by_cases null : bytes address = 0#8
      · rw [if_pos null, List.length_nil, BitVec.add_zero]
        exact null
      · rw [if_neg null, List.length_cons] at shorter ⊢
        rw [Nat.add_comm, BitVec.ofNat_add, ← BitVec.add_assoc]
        exact inductionHypothesis (Nat.lt_of_succ_lt_succ shorter)

/-- The bytes of a string are those of the memory. -/
theorem cString_getElem {bytes : Word -> Byte} {address : Word} (length : Nat) {i : Nat}
    (inside : i < (cString bytes length address).length) :
    (cString bytes length address)[i]? = some (bytes (address + BitVec.ofNat 32 i)) := by
  induction length generalizing address i with
  | zero => exact absurd inside (Nat.not_lt_zero i)
  | succ length inductionHypothesis =>
      rw [cString] at inside ⊢
      split at inside
      · exact absurd inside (Nat.not_lt_zero i)
      · rename_i notNull
        rw [if_neg notNull]
        cases i with
        | zero => rw [List.getElem?_cons_zero, BitVec.add_zero]
        | succ i =>
            rw [List.getElem?_cons_succ, inductionHypothesis (Nat.lt_of_succ_lt_succ inside), Nat.add_comm i 1,
              BitVec.ofNat_add, ← BitVec.add_assoc]

/-- The first NUL behind an address. -/
structure EndsAt (bytes : Word -> Byte) (address : Word) (count : Nat) : Prop where
  null : bytes (address + BitVec.ofNat 32 count) = 0#8
  before : forall i, i < count -> bytes (address + BitVec.ofNat 32 i) ≠ 0#8

theorem EndsAt.keep {bytes bytes' : Word -> Byte} {address : Word} {count : Nat} (ends : EndsAt bytes address count)
    (same : forall i, i ≤ count -> bytes' (address + BitVec.ofNat 32 i) = bytes (address + BitVec.ofNat 32 i)) :
    EndsAt bytes' address count := by
  refine ⟨(same count (Nat.le_refl count)).trans ends.null, fun i below => ?_⟩
  rw [same i (Nat.le_of_lt below)]
  exact ends.before i below

theorem EndsAt.length {bytes : Word -> Byte} {address : Word} {count : Nat} (ends : EndsAt bytes address count)
    (small : count ≤ 2 ^ 32) : (cString bytes (2 ^ 32) address).length = count :=
  Nat.le_antisymm (cString_length _ ends.null) (le_cString_length _ small ends.before)

/-- The bytes of a string that ends. -/
theorem EndsAt.text {bytes : Word -> Byte} {address : Word} {count : Nat} (ends : EndsAt bytes address count)
    (small : count ≤ 2 ^ 32) :
    cString bytes (2 ^ 32) address = (List.range count).map fun place => bytes (address + BitVec.ofNat 32 place) := by
  have length := ends.length small
  apply List.ext_getElem?
  intro place
  by_cases inside : place < count
  · rw [cString_getElem _ (by rw [length]; exact inside), List.getElem?_map, List.getElem?_range inside]
    rfl
  · rw [List.getElem?_eq_none (by rw [length]; exact Nat.not_lt.mp inside), List.getElem?_eq_none]
    rw [List.length_map, List.length_range]
    exact Nat.not_lt.mp inside

/-- A string is copied with its NUL. -/
theorem strcpy_fills {kernel : Kernel} (d : Word) {s : Word} {count : Nat} (ends : EndsAt kernel.bytes s count)
    (small : count < 2 ^ 32) : Fills kernel.bytes (strcpy kernel d s).bytes d (count + 1)
      fun place => kernel.bytes (s + BitVec.ofNat 32 place) := by
  have length := ends.length (Nat.le_of_lt small)
  have stored := storeBytes_bytes kernel d (cString kernel.bytes (2 ^ 32) s ++ [0#8])
  have fills := @Fills.of_list _ _ kernel.bytes (strcpy kernel d s).bytes d
    (fun place => kernel.bytes (s + BitVec.ofNat 32 place)) _ stored
    (by rw [List.length_append, List.length_singleton, length]; omega) ?_
  · rw [List.length_append, List.length_singleton, length] at fills
    exact fills
  · intro place inside
    rw [List.length_append, List.length_singleton, length] at inside
    by_cases early : place < count
    · rw [List.getElem?_append_left (by rw [length]; exact early), cString_getElem _ (by rw [length]; exact early)]
    · obtain rfl : place = count := by omega
      rw [List.getElem?_append_right (by rw [length]), length, Nat.sub_self, ends.null]
      rfl

/-- A field is copied. -/
theorem copyField_fills (kernel : Kernel) (d s : Word) {size : Nat} (small : size ≤ 2 ^ 32) :
    Fills kernel.bytes (copyField kernel d s size).bytes d size fun place => kernel.bytes (s + BitVec.ofNat 32 place) := by
  have stored := storeBytes_bytes kernel d ((List.range size).map fun place => kernel.bytes (s + BitVec.ofNat 32 place))
  have fills := @Fills.of_list _ _ kernel.bytes (copyField kernel d s size).bytes d
    (fun place => kernel.bytes (s + BitVec.ofNat 32 place)) _ stored
    (by rw [List.length_map, List.length_range]; exact small) ?_
  · rw [List.length_map, List.length_range] at fills
    exact fills
  · intro place inside
    rw [List.length_map, List.length_range] at inside
    rw [List.getElem?_map, List.getElem?_range inside]
    rfl

end Fs
end LarvaOS
