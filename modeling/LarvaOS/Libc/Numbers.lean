import Mathlib.Data.Nat.Digits.Lemmas
import LarvaOS.Libc.CharArray

namespace LarvaOS
namespace Libc

/-!
# Numbers and numerals

`itoa` stores the digits from the last one on, with the remainders of a division
that rounds towards zero, and then reverses them in place.  A negative value has
negative remainders, and nothing stores its sign.

`atoi` skips blanks, reads one sign and goes on as long as there are digits.  The
value wraps, and with it the least integer is read as well.
-/

/-! ## itoa -/

/-- The character of a remainder, as `itoa` computes it. -/
def digitCharacter (tmp : Int) : Byte := BitVec.ofInt 8 (if tmp < 10 then tmp + 0x30 else tmp + 0x61 - 10)

/-- The first loop of `itoa`: the number of digits and the array.  An `int` has no
more than 32 digits in any base that makes it smaller. -/
def digitLoop (base : Int) : Nat -> Int -> Nat -> CharArray -> Option (Nat × CharArray)
  | 0, _, _, _ => none
  | rounds + 1, value, i, str =>
      let str := str.put i (digitCharacter (value.tmod base))
      let value := value.tdiv base
      if value ≠ 0 then digitLoop base rounds value (i + 1) str else some (i + 1, str)

/-- The second loop of `itoa`, from the indexes `j` and `i` on. -/
def reverseLoop (j : Nat) : Nat -> CharArray -> CharArray
  | 0, str => str
  | i + 1, str =>
      if j < i + 1 then
        let tmp := str.chars j
        reverseLoop (j + 1) i ((str.put j (str.chars (i + 1))).put (i + 1) tmp)
      else str

/-- `itoa`.  A division by zero has no value. -/
def itoa (value : Int) (str : Nat -> Byte) (base : Int) : Option CharArray :=
  if base = 0 then none
  else
    (digitLoop base 32 value 0 ⟨str, []⟩).map fun digits => reverseLoop 0 (digits.1 - 1) (digits.2.put digits.1 0#8)

/-! ## atoi -/

/-- A blank of `atoi`. -/
def isBlank (c : Byte) : Bool := c = 0x20#8 ∨ (intToWord (c.toInt - 9)).toNat < 5

/-- A digit of `atoi`. -/
def isDigit (c : Byte) : Bool := (intToWord (c.toInt - 0x30)).toNat < 10

/-- The last loop of `atoi`. -/
def atoiDigits : List Byte -> Int -> Int
  | [], v => v
  | c :: s, v => if isDigit c then atoiDigits s (wrapInt (v * 10 + c.toInt - 0x30)) else v

/-- `atoi`. -/
def atoi (s : List Byte) : Int :=
  let s := s.dropWhile isBlank
  let sign : Int := if s.headD 0#8 = 0x2D#8 then -1 else 0
  let s := if s.headD 0#8 = 0x2D#8 ∨ s.headD 0#8 = 0x2B#8 then s.tail else s
  let v := atoiDigits s 0
  if sign ≠ 0 then wrapInt (-v) else v

/-! ## Numerals -/

/-- The decimal digits of a number, the last one first. -/
def digitsOf (n : Nat) : List Nat := if n = 0 then [0] else Nat.digits 10 n

def digitByte (d : Nat) : Byte := BitVec.ofNat 8 (0x30 + d)

/-- The canonical decimal numeral of an integer. -/
def decimal (v : Int) : List Byte :=
  (if v < 0 then [0x2D#8] else []) ++ (digitsOf v.natAbs).reverse.map digitByte

theorem digitsOf_eq (n : Nat) : digitsOf n = n % 10 :: if n / 10 = 0 then [] else digitsOf (n / 10) := by
  unfold digitsOf
  by_cases zero : n = 0
  · rw [zero]
    rfl
  · rw [if_neg zero, Nat.digits_def' (by decide) (Nat.pos_of_ne_zero zero)]
    by_cases last : n / 10 = 0
    · rw [if_pos last, last, Nat.digits_zero]
    · rw [if_neg last, if_neg last]

theorem digitsOf_lt {n d : Nat} (member : d ∈ digitsOf n) : d < 10 := by
  unfold digitsOf at member
  by_cases zero : n = 0
  · rw [if_pos zero] at member
    rw [List.mem_singleton.mp member]
    decide
  · rw [if_neg zero] at member
    exact Nat.digits_lt_base (by decide) member

theorem digitsOf_pos (n : Nat) : 0 < (digitsOf n).length := by
  rw [digitsOf_eq]
  exact Nat.succ_pos _

theorem digitsOf_length_le {n : Nat} (small : n < 10 ^ 10) : (digitsOf n).length ≤ 10 := by
  unfold digitsOf
  by_cases zero : n = 0
  · rw [if_pos zero]
    decide
  · rw [if_neg zero]
    exact (Nat.digits_length_le_iff (by decide) n).mpr small

/-- The number that the digits stand for. -/
theorem digitsOf_value (n : Nat) : (digitsOf n).foldr (fun d rest => rest * 10 + d) 0 = n := by
  have value : forall digits : List Nat, digits.foldr (fun d rest => rest * 10 + d) 0 = Nat.ofDigits 10 digits := by
    intro digits
    rw [Nat.ofDigits_eq_foldr]
    refine congrArg (fun step => List.foldr step 0 digits) ?_
    funext d rest
    rw [Nat.add_comm, Nat.mul_comm]
    rfl
  rw [value]
  unfold digitsOf
  by_cases zero : n = 0
  · rw [if_pos zero, zero]
    rfl
  · rw [if_neg zero, Nat.ofDigits_digits]

/-! ## What itoa stores -/

theorem digitCharacter_of_lt {d : Nat} (digit : d < 10) : digitCharacter d = digitByte d := by
  have small : (d : Int) < 10 := by omega
  unfold digitCharacter digitByte
  rw [if_pos small, Int.add_comm]
  exact BitVec.ofInt_natCast 8 (0x30 + d)

theorem digitCharacter_tmod {value : Int} (nonnegative : 0 ≤ value) :
    digitCharacter (value.tmod 10) = digitByte (value.natAbs % 10) := by
  have same : value.tmod 10 = ((value.natAbs % 10 : Nat) : Int) := by
    rw [Int.tmod_eq_emod_of_nonneg nonnegative]
    omega
  rw [same]
  exact digitCharacter_of_lt (Nat.mod_lt _ (by decide))

/-- The loop makes one round for each digit, and stores the digits of a value that is
not negative. -/
theorem digitLoop_stores {rounds : Nat} {value : Int} {i : Nat} {str : CharArray}
    (enough : (digitsOf value.natAbs).length ≤ rounds) :
    exists after, digitLoop 10 rounds value i str = some (i + (digitsOf value.natAbs).length, after) ∧
      StoresFrom (digitsOf value.natAbs).length i str after ∧
      (0 ≤ value -> HoldsAt after.chars i ((digitsOf value.natAbs).map digitByte)) := by
  induction rounds generalizing value i str with
  | zero =>
      have positive := digitsOf_pos value.natAbs
      omega
  | succ rounds inductionHypothesis =>
      have quotient : (value.tdiv 10).natAbs = value.natAbs / 10 := Int.natAbs_tdiv value 10
      have digits := digitsOf_eq value.natAbs
      have put := StoresFrom.put str i (digitCharacter (value.tmod 10))
      have here : (str.put i (digitCharacter (value.tmod 10))).chars i = digitCharacter (value.tmod 10) :=
        Function.update_self _ _ _
      rw [digitLoop]
      generalize str.put i (digitCharacter (value.tmod 10)) = next at *
      by_cases more : value.tdiv 10 ≠ 0
      · have rest : ¬ value.natAbs / 10 = 0 := by
          rw [← quotient]
          exact fun zero => more (Int.natAbs_eq_zero.mp zero)
        rw [if_neg rest, ← quotient] at digits
        rw [digits, List.length_cons] at enough
        rcases @inductionHypothesis (value.tdiv 10) (i + 1) next (Nat.le_of_succ_le_succ enough) with
          ⟨after, made, stored, holds⟩
        rw [Nat.add_assoc] at made
        rw [digits, List.length_cons, Nat.add_comm (digitsOf (value.tdiv 10).natAbs).length 1]
        refine ⟨after, by simp only [if_pos more]; exact made, put.trans stored, ?_⟩
        intro nonnegative
        rw [List.map_cons]
        refine holdsAt_cons.mpr ⟨?_, holds (Int.tdiv_nonneg nonnegative (by decide))⟩
        exact ((stored.kept i (Nat.lt_succ_self i)).trans here).trans (digitCharacter_tmod nonnegative)
      · have rest : value.natAbs / 10 = 0 := by
          rw [← quotient, not_not.mp more]
          rfl
        rw [if_pos rest] at digits
        rw [digits]
        refine ⟨next, by simp only [if_neg more]; rfl, put, ?_⟩
        intro nonnegative
        refine holdsAt_cons.mpr ⟨here.trans (digitCharacter_tmod nonnegative), ?_⟩
        exact fun _ _ found => absurd found (by simp)

/-! ## The reversal -/

/-- The loop swaps the places between two indexes, and stores nothing else. -/
theorem reverseLoop_swaps (j i : Nat) (str : CharArray) :
    (forall place, (reverseLoop j i str).chars place =
      if j ≤ place ∧ place ≤ i then str.chars (i + j - place) else str.chars place) ∧
    forall index, index ∈ (reverseLoop j i str).stores -> index ∈ str.stores ∨ index ≤ i := by
  induction i generalizing j str with
  | zero =>
      rw [reverseLoop]
      refine ⟨fun place => ?_, fun index member => Or.inl member⟩
      by_cases between : j ≤ place ∧ place ≤ 0
      · rw [if_pos between]
        exact congrArg str.chars (by omega)
      · rw [if_neg between]
  | succ i inductionHypothesis =>
      rw [reverseLoop]
      by_cases apart : j < i + 1
      · rw [if_pos apart]
        rcases inductionHypothesis (j + 1) ((str.put j (str.chars (i + 1))).put (i + 1) (str.chars j)) with
          ⟨swapped, stored⟩
        constructor
        · intro place
          rw [swapped]
          rcases Nat.lt_or_ge place j with before | after
          · rw [if_neg (by omega), if_neg (by omega)]
            exact (Function.update_of_ne (by omega) _ _).trans (Function.update_of_ne (by omega) _ _)
          rcases Nat.lt_or_ge (i + 1) place with beyond | upto
          · rw [if_neg (by omega), if_neg (by omega)]
            exact (Function.update_of_ne (by omega) _ _).trans (Function.update_of_ne (by omega) _ _)
          have between : j ≤ place ∧ place ≤ i + 1 := ⟨after, upto⟩
          rcases Nat.eq_or_lt_of_le after with first | inside
          · rw [if_pos between, if_neg (show ¬ (j + 1 ≤ place ∧ place ≤ i) by omega), ← first, Nat.add_sub_cancel]
            exact (Function.update_of_ne (Nat.ne_of_lt apart) _ _).trans (Function.update_self _ _ _)
          rcases Nat.eq_or_lt_of_le upto with last | inside'
          · rw [if_pos between, if_neg (show ¬ (j + 1 ≤ place ∧ place ≤ i) by omega), last, Nat.add_sub_cancel_left]
            exact Function.update_self _ _ _
          · rw [if_pos between, if_pos (show j + 1 ≤ place ∧ place ≤ i by omega)]
            refine ((Function.update_of_ne (by omega) _ _).trans (Function.update_of_ne (by omega) _ _)).trans ?_
            exact congrArg str.chars (by omega)
        · intro index member
          rcases stored index member with here | below
          · rcases List.mem_cons.mp here with last | here
            · exact Or.inr (Nat.le_of_eq last)
            · rcases List.mem_cons.mp here with first | earlier
              · exact Or.inr (by omega)
              · exact Or.inl earlier
          · exact Or.inr (Nat.le_succ_of_le below)
      · rw [if_neg apart]
        refine ⟨fun place => ?_, fun index member => Or.inl member⟩
        by_cases between : j ≤ place ∧ place ≤ i + 1
        · rw [if_pos between]
          exact congrArg str.chars (by omega)
        · rw [if_neg between]

/-- `itoa` ends the numeral behind its digits, and stores no further.  The digits are
those of a value that is not negative. -/
theorem itoa_stores (value : Int) (buf : Nat -> Byte) (small : value.natAbs < 10 ^ 10) :
    exists str, itoa value buf 10 = some str ∧ str.chars (digitsOf value.natAbs).length = 0#8 ∧
      (forall index, index ∈ str.stores -> index ≤ (digitsOf value.natAbs).length) ∧
      (0 ≤ value -> HoldsAt str.chars 0 ((digitsOf value.natAbs).reverse.map digitByte)) := by
  have length := digitsOf_length_le small
  have positive := digitsOf_pos value.natAbs
  rcases @digitLoop_stores 32 value 0 ⟨buf, []⟩ (by omega) with ⟨digits, made, stored, holds⟩
  rw [Nat.zero_add] at made
  generalize count : (digitsOf value.natAbs).length = last at *
  rcases reverseLoop_swaps 0 (last - 1) (digits.put last 0#8) with ⟨swapped, reversed⟩
  refine ⟨reverseLoop 0 (last - 1) (digits.put last 0#8), ?_, ?_, ?_, ?_⟩
  · rw [itoa, if_neg (by decide), made]
    rfl
  · rw [swapped, if_neg (by omega)]
    exact Function.update_self _ _ _
  · intro index member
    rcases reversed index member with earlier | below
    · rcases List.mem_cons.mp earlier with here | before
      · exact Nat.le_of_eq here
      · rcases stored.stores index before with nothing | below
        · exact absurd nothing (List.not_mem_nil)
        · omega
    · omega
  · intro nonnegative
    rw [List.map_reverse]
    have written := holds nonnegative
    have number : ((digitsOf value.natAbs).map digitByte).length = last := (List.length_map _).trans count
    refine HoldsAt.reverse written fun place below => ?_
    rw [number] at below ⊢
    rw [swapped, if_pos (by omega)]
    exact Function.update_of_ne (by omega) _ _

/-! ## What atoi reads -/

theorem digitByte_isDigit {d : Nat} (digit : d < 10) : isDigit (digitByte d) = true ∧ (digitByte d).toInt = 0x30 + d := by
  interval_cases d <;> decide

/-- The digits of a number are read from the first one on. -/
theorem atoiDigits_digits {digits : List Nat} (all : forall d, d ∈ digits -> d < 10) (v : Nat) :
    atoiDigits (digits.map digitByte) (wrapInt v) = wrapInt (digits.foldl (fun rest d => rest * 10 + d) v : Nat) := by
  induction digits generalizing v with
  | nil => rfl
  | cons d digits inductionHypothesis =>
      rcases digitByte_isDigit (all d List.mem_cons_self) with ⟨digit, value⟩
      rw [List.map_cons, atoiDigits, if_pos digit, value, List.foldl_cons]
      have next : wrapInt (wrapInt v * 10 + (0x30 + d) - 0x30) = wrapInt ((v * 10 + d : Nat) : Int) := by
        apply wrapInt_congr
        have congruent := wrapInt_emod v
        push_cast
        omega
      rw [next]
      exact inductionHypothesis (fun d' member => all d' (List.mem_cons_of_mem d member)) (v * 10 + d)

theorem atoiDigits_numeral (n : Nat) : atoiDigits ((digitsOf n).reverse.map digitByte) 0 = wrapInt n := by
  have read := @atoiDigits_digits (digitsOf n).reverse (fun d member => digitsOf_lt (List.mem_reverse.mp member)) 0
  rw [List.foldl_reverse, digitsOf_value] at read
  exact read

theorem digitByte_plain {d : Nat} (digit : d < 10) :
    isBlank (digitByte d) = false ∧ digitByte d ≠ 0x2D#8 ∧ digitByte d ≠ 0x2B#8 ∧ digitByte d ≠ 0#8 := by
  interval_cases d <;> decide

/-- A numeral begins with a digit. -/
theorem numeral_head (n : Nat) :
    exists d rest, d < 10 ∧ (digitsOf n).reverse.map digitByte = digitByte d :: rest := by
  cases digits : (digitsOf n).reverse with
  | nil =>
      have positive := digitsOf_pos n
      rw [List.reverse_eq_nil_iff.mp digits] at positive
      exact absurd positive (Nat.lt_irrefl 0)
  | cons d rest =>
      have member : d ∈ (digitsOf n).reverse := digits ▸ List.mem_cons_self
      exact ⟨d, rest.map digitByte, digitsOf_lt (List.mem_reverse.mp member), rfl⟩

/-- `atoi` reads the numeral of every `int`, and the least one through the wrap. -/
theorem atoi_decimal {v : Int} (lower : -2 ^ 31 ≤ v) (upper : v < 2 ^ 31) : atoi (decimal v) = v := by
  have read := atoiDigits_numeral v.natAbs
  rcases numeral_head v.natAbs with ⟨d, rest, digit, head⟩
  rcases digitByte_plain digit with ⟨blank, minus, plus, _⟩
  unfold atoi decimal
  rw [head] at read ⊢
  by_cases negative : v < 0
  · rw [if_pos negative]
    change wrapInt (-atoiDigits (digitByte d :: rest) 0) = v
    rw [read]
    refine Eq.trans ?_ (wrapInt_of_small lower upper)
    apply wrapInt_congr
    have congruent := wrapInt_emod v.natAbs
    omega
  · rw [if_neg negative, List.nil_append, List.dropWhile_cons_of_neg (by rw [blank]; decide)]
    simp only [List.headD_cons, minus, plus, or_self, if_false, ne_eq, not_true]
    rw [read]
    refine Eq.trans (congrArg wrapInt ?_) (wrapInt_of_small lower upper)
    omega

/-! ## The round trip -/

/-- The array holds the numeral of the value and the NUL, within the buffers of the
callers, and `atoi` reads the value from it. -/
structure HoldsNumeral (v : Int) (str : CharArray) : Prop where
  numeral : HoldsAt str.chars 0 (decimal v ++ [0#8])
  inside : forall index, index ∈ str.stores -> index < 32
  readBack : forall s, IsString s -> HoldsAt str.chars 0 (s ++ [0#8]) -> atoi s = v

theorem digits_isString (n : Nat) : IsString ((digitsOf n).reverse.map digitByte) := by
  intro member
  rcases List.mem_map.mp member with ⟨d, digit, null⟩
  exact (digitByte_plain (digitsOf_lt (List.mem_reverse.mp digit))).2.2.2 null

theorem decimal_of_nonneg {v : Int} (nonnegative : 0 ≤ v) :
    decimal v = (digitsOf v.natAbs).reverse.map digitByte := by
  rw [decimal, if_neg (Int.not_lt.mpr nonnegative), List.nil_append]

theorem decimal_of_neg {v : Int} (negative : v < 0) :
    decimal v = 0x2D#8 :: (digitsOf v.natAbs).reverse.map digitByte := by
  rw [decimal, if_pos negative, List.singleton_append]

theorem decimal_isString (v : Int) : IsString (decimal v) := by
  intro member
  rcases List.mem_append.mp member with sign | digit
  · split at sign
    · exact absurd (List.mem_singleton.mp sign) (by decide)
    · exact List.not_mem_nil sign
  · exact digits_isString v.natAbs digit

/-- `itoa` and `atoi` make a round trip over the canonical numerals exactly for the
values that are not negative. -/
theorem itoa_numeral {v : Int} (lower : -2 ^ 31 ≤ v) (upper : v < 2 ^ 31) (buf : Nat -> Byte) :
    (exists str, itoa v buf 10 = some str ∧ HoldsNumeral v str) ↔ 0 ≤ v := by
  have small : v.natAbs < 10 ^ 10 := by omega
  rcases itoa_stores v buf small with ⟨str, made, ended, stored, digits⟩
  constructor
  · rintro ⟨other, same, holds⟩
    rw [← Option.some.inj (made.symm.trans same)] at holds
    by_contra negative
    -- the sign has no place: the array ends where the numeral has its last digit
    have numeral := (holdsAt_append.mp holds.numeral).1
    refine numeral.ne_zero (decimal_isString v) ?_ ended
    rw [decimal_of_neg (Int.not_le.mp negative), List.length_cons, List.length_map, List.length_reverse]
    exact Nat.lt_succ_self _
  · intro nonnegative
    have length := digitsOf_length_le small
    have numeral : HoldsAt str.chars 0 (decimal v ++ [0#8]) := by
      rw [decimal_of_nonneg nonnegative, holdsAt_append, List.length_map, List.length_reverse, Nat.zero_add]
      exact ⟨digits nonnegative, holdsAt_cons.mpr ⟨ended, fun _ _ found => absurd found (by simp)⟩⟩
    refine ⟨str, made, numeral, ?_, ?_⟩
    · intro index member
      exact Nat.lt_of_le_of_lt (stored index member) (by omega)
    · intro s string holds
      rw [HoldsAt.unique string (decimal_isString v) holds numeral]
      exact atoi_decimal lower upper

/-- The value 120. -/
theorem itoa_numeral_120 : exists str, itoa 120 (fun _ => 0xFF#8) 10 = some str ∧ HoldsNumeral 120 str :=
  (@itoa_numeral 120 (by decide) (by decide) fun _ => 0xFF#8).mpr (by decide)

/-- The value -5: the only character is a `+`, and no sign is stored. -/
theorem itoa_numeral_negative :
    ¬ exists str, itoa (-5) (fun _ => 0#8) 10 = some str ∧ HoldsNumeral (-5) str := by
  rintro ⟨str, made, holds⟩
  have first : (itoa (-5) (fun _ => 0#8) 10).map (fun str => str.chars 0) = some 0x2B#8 := by decide
  rw [made] at first
  exact absurd (first.symm.trans (congrArg some (holds.numeral 0 0x2D#8 (by decide)))) (by decide)

end Libc
end LarvaOS
