import LarvaOS.Library.FirstDifference
import LarvaOS.Libc.Strings

namespace LarvaOS
namespace Libc

open Library

/-!
# Comparisons of memory and of strings

`memcmp` subtracts bytes as unsigned values and keeps the difference in a signed
character before it returns it.  A difference of more than 127 changes its sign
there, and none becomes 0.

`strcasecmp` folds to small letters and `strncasecmp` to capitals.  Six characters
lie between the two ranges of letters, and a letter is above them for the one and
below them for the other.
-/

/-! ## memcmp -/

/-- The conversion to `signed char`. -/
def signedChar (value : Int) : Int := (BitVec.ofInt 8 value).toInt

/-- The loop of `memcmp`, which goes on while the result is 0. -/
def memcmp (p1 p2 : Nat -> Byte) : Nat -> Int
  | 0 => 0
  | c + 1 =>
      let res := signedChar ((p1 0).toNat - (p2 0).toNat)
      if res ≠ 0 then res else memcmp (fun place => p1 (place + 1)) (fun place => p2 (place + 1)) c

/-- The first bytes of a buffer as numbers. -/
def firstBytes (n : Nat) (p : Nat -> Byte) (place : Nat) : Int := if place < n then (p place).toNat else 0

theorem signedChar_eq_zero_iff {c1 c2 : Byte} : signedChar (c1.toNat - c2.toNat) = 0 ↔ (c1.toNat : Int) = c2.toNat := by
  have bound1 := c1.isLt
  have bound2 := c2.isLt
  rw [signedChar, BitVec.toInt_ofInt, Int.bmod_def]
  omega

/-- Each difference of two bytes is reported as a signed character. -/
theorem memcmp_reports (p1 p2 : Nat -> Byte) (n : Nat) :
    Reports signedChar (firstBytes n p1) (firstBytes n p2) (memcmp p1 p2 n) := by
  induction n generalizing p1 p2 with
  | zero =>
      have same : firstBytes 0 p1 = firstBytes 0 p2 := by
        funext place
        rw [firstBytes, firstBytes, if_neg (Nat.not_lt_zero place), if_neg (Nat.not_lt_zero place)]
      exact ⟨fun _ => rfl, fun place first => absurd (congrFun same place) first.here⟩
  | succ n inductionHypothesis =>
      have later : forall p : Nat -> Byte,
          (fun place => firstBytes (n + 1) p (place + 1)) = firstBytes n fun place => p (place + 1) := by
        intro p
        funext place
        simp only [firstBytes, Nat.add_lt_add_iff_right]
      have first : forall p : Nat -> Byte, firstBytes (n + 1) p 0 = (p 0).toNat := fun p => if_pos (Nat.succ_pos n)
      rw [memcmp]
      by_cases same : signedChar ((p1 0).toNat - (p2 0).toNat) = 0
      · rw [if_neg (not_not.mpr same)]
        refine Reports.tail ?_ ?_
        · rw [first, first]
          exact signedChar_eq_zero_iff.mp same
        · rw [later, later]
          exact inductionHypothesis _ _
      · rw [if_pos same]
        refine Reports.head ?_ ?_
        · rw [first, first]
          exact fun equal => same (signedChar_eq_zero_iff.mpr equal)
        · rw [first, first]

theorem firstBytes_eq_iff {p1 p2 : Nat -> Byte} {n : Nat} :
    firstBytes n p1 = firstBytes n p2 ↔ forall place, place < n -> p1 place = p2 place := by
  constructor
  · intro same place inside
    have here := congrFun same place
    rw [firstBytes, firstBytes, if_pos inside, if_pos inside] at here
    exact BitVec.eq_of_toNat_eq (Int.ofNat_inj.mp here)
  · intro same
    funext place
    unfold firstBytes
    by_cases inside : place < n
    · rw [if_pos inside, if_pos inside, same place inside]
    · rw [if_neg inside, if_neg inside]

/-- The first differing bytes lie among the first ones. -/
theorem firstBytes_difference {p1 p2 : Nat -> Byte} {n place : Nat}
    (first : FirstDifference (firstBytes n p1) (firstBytes n p2) place) :
    place < n ∧ firstBytes n p1 place - firstBytes n p2 place = (p1 place).toNat - (p2 place).toNat := by
  have here := first.here
  unfold firstBytes at *
  by_cases inside : place < n
  · rw [if_pos inside, if_pos inside]
    exact ⟨inside, rfl⟩
  · rw [if_neg inside, if_neg inside] at here
    exact absurd rfl here

/-- The bytes before this one are equal, and these two are not. -/
def DiffersFirst (p1 p2 : Nat -> Byte) (n place : Nat) : Prop :=
  place < n ∧ (forall earlier, earlier < place -> p1 earlier = p2 earlier) ∧ p1 place ≠ p2 place

theorem differsFirst_iff {p1 p2 : Nat -> Byte} {n place : Nat} :
    DiffersFirst p1 p2 n place ↔ FirstDifference (firstBytes n p1) (firstBytes n p2) place := by
  have numbers : forall earlier, earlier < n -> (p1 earlier = p2 earlier ↔ firstBytes n p1 earlier = firstBytes n p2 earlier) := by
    intro earlier inside
    rw [firstBytes, firstBytes, if_pos inside, if_pos inside]
    exact ⟨fun same => by rw [same], fun same => BitVec.eq_of_toNat_eq (Int.ofNat_inj.mp same)⟩
  constructor
  · rintro ⟨inside, before, here⟩
    exact ⟨fun earlier below => (numbers earlier (Nat.lt_trans below inside)).mp (before earlier below),
      fun same => here ((numbers place inside).mpr same)⟩
  · intro first
    have inside := (firstBytes_difference first).1
    exact ⟨inside, fun earlier below => (numbers earlier (Nat.lt_trans below inside)).mpr (first.before earlier below),
      fun same => first.here ((numbers place inside).mp same)⟩

theorem memcmp_eq_zero_iff (p1 p2 : Nat -> Byte) (n : Nat) :
    memcmp p1 p2 n = 0 ↔ forall place, place < n -> p1 place = p2 place := by
  rw [← firstBytes_eq_iff]
  refine (memcmp_reports p1 p2 n).zero_iff fun place first zero => ?_
  rcases firstBytes_difference first with ⟨inside, difference⟩
  rw [difference, signedChar_eq_zero_iff] at zero
  have here := first.here
  rw [firstBytes, firstBytes, if_pos inside, if_pos inside] at here
  exact here zero

theorem memcmp_differs {p1 p2 : Nat -> Byte} {n place : Nat} (differs : DiffersFirst p1 p2 n place) :
    memcmp p1 p2 n = signedChar ((p1 place).toNat - (p2 place).toNat) := by
  have first := differsFirst_iff.mp differs
  rw [(memcmp_reports p1 p2 n).differs place first, (firstBytes_difference first).2]

/-- The result orders the buffers by their first differing bytes. -/
structure OrdersBytes (p1 p2 : Nat -> Byte) (n : Nat) : Prop where
  equal : memcmp p1 p2 n = 0 ↔ forall place, place < n -> p1 place = p2 place
  sign : forall place, DiffersFirst p1 p2 n place ->
    (memcmp p1 p2 n).sign = ((p1 place).toNat - (p2 place).toNat : Int).sign

/-- The first differing bytes are at most so far apart. -/
def DifferenceWithin (lower upper : Int) (p1 p2 : Nat -> Byte) (n : Nat) : Prop :=
  forall place, DiffersFirst p1 p2 n place ->
    lower ≤ (p1 place).toNat - (p2 place).toNat ∧ ((p1 place).toNat - (p2 place).toNat : Int) ≤ upper

theorem signedChar_of_within {value : Int} (lower : -128 ≤ value) (upper : value ≤ 127) : signedChar value = value := by
  rw [signedChar, BitVec.toInt_ofInt]
  exact Int.bmod_eq_of_le lower (by omega)

theorem signedChar_above {value : Int} (lower : 127 < value) (upper : value < 256) : signedChar value = value - 256 := by
  rw [signedChar, BitVec.toInt_ofInt, Int.bmod_def]
  omega

theorem signedChar_below {value : Int} (lower : -256 < value) (upper : value < -128) : signedChar value = value + 256 := by
  rw [signedChar, BitVec.toInt_ofInt, Int.bmod_def]
  omega

theorem sign_signedChar_iff {c1 c2 : Byte} : (signedChar (c1.toNat - c2.toNat)).sign = (c1.toNat - c2.toNat : Int).sign ↔
    -128 ≤ (c1.toNat - c2.toNat : Int) ∧ (c1.toNat - c2.toNat : Int) ≤ 127 := by
  have bound1 := c1.isLt
  have bound2 := c2.isLt
  constructor
  · intro same
    by_contra outside
    by_cases above : (127 : Int) < c1.toNat - c2.toNat
    · rw [signedChar_above above (by omega), Int.sign_eq_neg_one_of_neg (by omega), Int.sign_eq_one_of_pos (by omega)] at same
      exact absurd same (by decide)
    · rw [signedChar_below (by omega) (by omega), Int.sign_eq_one_of_pos (by omega), Int.sign_eq_neg_one_of_neg (by omega)]
        at same
      exact absurd same (by decide)
  · rintro ⟨lower, upper⟩
    rw [signedChar_of_within lower upper]

theorem ordersBytes_iff (p1 p2 : Nat -> Byte) (n : Nat) :
    OrdersBytes p1 p2 n ↔ DifferenceWithin (-128) 127 p1 p2 n := by
  constructor
  · intro orders place differs
    have sign := orders.sign place differs
    rw [memcmp_differs differs] at sign
    exact sign_signedChar_iff.mp sign
  · intro within
    refine ⟨memcmp_eq_zero_iff p1 p2 n, fun place differs => ?_⟩
    rw [memcmp_differs differs]
    exact sign_signedChar_iff.mpr (within place differs)

theorem DiffersFirst.symm {p1 p2 : Nat -> Byte} {n place : Nat} (differs : DiffersFirst p1 p2 n place) :
    DiffersFirst p2 p1 n place :=
  ⟨differs.1, fun earlier below => (differs.2.1 earlier below).symm, differs.2.2.symm⟩

theorem signedChar_neg_iff {c1 c2 : Byte} :
    (signedChar (c2.toNat - c1.toNat)).sign = -(signedChar (c1.toNat - c2.toNat)).sign ↔
      (c1.toNat - c2.toNat : Int) ≠ 128 ∧ (c1.toNat - c2.toNat : Int) ≠ -128 := by
  have bound1 := c1.isLt
  have bound2 := c2.isLt
  generalize difference : (c1.toNat - c2.toNat : Int) = value
  have turned : (c2.toNat - c1.toNat : Int) = -value := by omega
  rw [turned]
  constructor
  · intro signs
    constructor
    · rintro rfl
      exact absurd signs (by decide)
    · rintro rfl
      exact absurd signs (by decide)
  · rintro ⟨notAbove, notBelow⟩
    have exact : signedChar (-value) = -signedChar value := by
      rw [signedChar, signedChar, BitVec.toInt_ofInt, BitVec.toInt_ofInt, Int.bmod_def, Int.bmod_def]
      omega
    rw [exact, Int.sign_neg]

/-- Swapping the buffers turns the sign around, but for one difference. -/
theorem memcmp_swap_iff (p1 p2 : Nat -> Byte) (n : Nat) :
    (memcmp p2 p1 n).sign = -(memcmp p1 p2 n).sign ↔ forall place, DiffersFirst p1 p2 n place ->
      ((p1 place).toNat - (p2 place).toNat : Int) ≠ 128 ∧ ((p1 place).toNat - (p2 place).toNat : Int) ≠ -128 := by
  constructor
  · intro signs place differs
    rw [memcmp_differs differs, memcmp_differs differs.symm] at signs
    exact signedChar_neg_iff.mp signs
  · intro apart
    rcases FirstDifference.eq_or_exists (firstBytes n p1) (firstBytes n p2) with same | ⟨place, first⟩
    · have equal := firstBytes_eq_iff.mp same
      have equal' : forall place, place < n -> p2 place = p1 place := fun place inside => (equal place inside).symm
      rw [(memcmp_eq_zero_iff p1 p2 n).mpr equal, (memcmp_eq_zero_iff p2 p1 n).mpr equal']
      rfl
    · have differs := differsFirst_iff.mpr first
      rw [memcmp_differs differs, memcmp_differs differs.symm]
      exact signedChar_neg_iff.mpr (apart place differs)

/-- What a set of buffers is promised: any two of them are ordered by their first
differing bytes, swapping them turns the sign around, and the order is transitive. -/
structure OrdersBuffers (buffers : Set (Nat -> Byte)) (n : Nat) : Prop where
  ordersBytes : forall p1, p1 ∈ buffers -> forall p2, p2 ∈ buffers -> OrdersBytes p1 p2 n
  antisymmetric : forall p1, p1 ∈ buffers -> forall p2, p2 ∈ buffers -> (memcmp p2 p1 n).sign = -(memcmp p1 p2 n).sign
  transitive : forall p1, p1 ∈ buffers -> forall p2, p2 ∈ buffers -> forall p3, p3 ∈ buffers ->
    memcmp p1 p2 n ≤ 0 -> memcmp p2 p3 n ≤ 0 -> memcmp p1 p3 n ≤ 0

/-- A difference that a signed character holds both ways is one that it holds. -/
theorem DifferenceWithin.held {p1 p2 : Nat -> Byte} {n : Nat} (within : DifferenceWithin (-127) 127 p1 p2 n) :
    DifferenceWithin (-128) 127 p1 p2 n := by
  intro place differs
  rcases within place differs with ⟨lower, upper⟩
  exact ⟨by omega, upper⟩

/-- An answer that is right, and turned around by a swap, comes from bytes that are at
most 127 apart. -/
theorem differenceWithin_of_orders {p1 p2 : Nat -> Byte} {n : Nat} (orders : OrdersBytes p1 p2 n)
    (swaps : (memcmp p2 p1 n).sign = -(memcmp p1 p2 n).sign) : DifferenceWithin (-127) 127 p1 p2 n := by
  intro place differs
  rcases (ordersBytes_iff p1 p2 n).mp orders place differs with ⟨lower, upper⟩
  have apart := (memcmp_swap_iff p1 p2 n).mp swaps place differs
  exact ⟨by omega, upper⟩

/-- A difference that a signed character holds is reported as it is. -/
theorem DifferenceWithin.reports {p1 p2 : Nat -> Byte} {n : Nat} (within : DifferenceWithin (-128) 127 p1 p2 n) :
    Reports id (firstBytes n p1) (firstBytes n p2) (memcmp p1 p2 n) where
  same := (memcmp_reports p1 p2 n).same
  differs := by
    intro place first
    rcases within place (differsFirst_iff.mpr first) with ⟨lower, upper⟩
    rw [(memcmp_reports p1 p2 n).differs place first, (firstBytes_difference first).2]
    exact signedChar_of_within lower upper

/-- `memcmp` orders a set of buffers exactly when the first bytes in which any two of
them differ are at most 127 apart. -/
theorem memcmp_ordersBuffers_iff (buffers : Set (Nat -> Byte)) (n : Nat) :
    OrdersBuffers buffers n ↔
      forall p1, p1 ∈ buffers -> forall p2, p2 ∈ buffers -> DifferenceWithin (-127) 127 p1 p2 n := by
  constructor
  · intro orders p1 member1 p2 member2
    exact differenceWithin_of_orders (orders.ordersBytes p1 member1 p2 member2)
      (orders.antisymmetric p1 member1 p2 member2)
  · intro within
    constructor
    · intro p1 member1 p2 member2
      exact (ordersBytes_iff p1 p2 n).mpr (within p1 member1 p2 member2).held
    · intro p1 member1 p2 member2
      refine (memcmp_swap_iff p1 p2 n).mpr fun place differs => ?_
      rcases within p1 member1 p2 member2 place differs with ⟨lower, upper⟩
      exact ⟨by omega, by omega⟩
    · intro p1 member1 p2 member2 p3 member3 below12 below23
      have reports12 := (within p1 member1 p2 member2).held.reports
      have reports23 := (within p2 member2 p3 member3).held.reports
      exact reports12.nonpos_trans below12 reports23 below23 (within p1 member1 p3 member3).held.reports

/-- The byte `0x80` is above 0, and the difference is reported as negative. -/
theorem memcmp_ordersBytes_high : ¬ OrdersBytes (fun _ => 0x80#8) (fun _ => 0#8) 1 := by
  intro orders
  have sign := orders.sign 0 ⟨Nat.one_pos, fun _ below => absurd below (Nat.not_lt_zero _), by decide⟩
  exact absurd sign (by decide)

/-! ## strcasecmp and strncasecmp -/

/-- `toupper`, on a character. -/
def toUpper (c : Byte) : Byte := if 0x61 ≤ c.toNat ∧ c.toNat ≤ 0x7A then c &&& ~~~0x20#8 else c

/-- `strncasecmp`.  The count is checked before a character is read. -/
def strncasecmp : List Byte -> List Byte -> Nat -> Int
  | _, _, 0 => 0
  | [], s2, _ + 1 => (toUpper 0#8).toInt - (toUpper (s2.headD 0#8)).toInt
  | c :: s1, s2, count + 1 =>
      let result := (toUpper c).toInt - (toUpper (s2.headD 0#8)).toInt
      if result ≠ 0 ∨ c = 0#8 then result else strncasecmp s1 s2.tail count

/-- The characters of a string and the NULs behind them, folded. -/
def foldedAt (fold : Byte -> Byte) (s : List Byte) (place : Nat) : Int := (fold (s.getD place 0#8)).toInt

section Folding

variable {fold : Byte -> Byte} (terminates : forall c, fold c = fold 0#8 -> c = 0#8)

theorem foldedAt_zero (s : List Byte) : foldedAt fold s 0 = (fold (s.headD 0#8)).toInt := by
  cases s <;> rfl

theorem foldedAt_tail (s : List Byte) : (fun place => foldedAt fold s (place + 1)) = foldedAt fold s.tail := by
  cases s <;> rfl

theorem toInt_sub_eq_zero {c1 c2 : Byte} : c1.toInt - c2.toInt = 0 ↔ c1.toInt = c2.toInt :=
  ⟨Int.eq_of_sub_eq_zero, fun same => by rw [same, Int.sub_self]⟩

include terminates

/-- Only a string that is empty begins with a NUL. -/
theorem empty_of_terminated {s : List Byte} (string : IsString s) (ends : (fold (s.headD 0#8)).toInt = (fold 0#8).toInt) :
    s = [] := by
  cases s with
  | nil => rfl
  | cons c rest =>
      have null := terminates c (BitVec.eq_of_toInt_eq ends)
      exact absurd (null ▸ List.mem_cons_self) string

/-- The end of the first string. -/
theorem reports_end {s2 : List Byte} (string : IsString s2) : Reports id (foldedAt fold []) (foldedAt fold s2)
    ((fold 0#8).toInt - (fold (s2.headD 0#8)).toInt) := by
  by_cases same : (fold (s2.headD 0#8)).toInt = (fold 0#8).toInt
  · rw [empty_of_terminated terminates string same]
    exact ⟨fun _ => Int.sub_self _, fun place first => absurd rfl first.here⟩
  · refine Reports.head ?_ ?_
    · rw [foldedAt_zero, foldedAt_zero]
      exact fun equal => same equal.symm
    · rw [foldedAt_zero, foldedAt_zero]
      rfl

omit terminates in
/-- One round of a loop that goes on while the folded characters are equal. -/
theorem reports_round {c : Byte} {s1 s2 : List Byte} (string : IsString (c :: s1)) {later : Int}
    (reports : Reports id (foldedAt fold s1) (foldedAt fold s2.tail) later) :
    Reports id (foldedAt fold (c :: s1)) (foldedAt fold s2)
      (if (fold c).toInt - (fold (s2.headD 0#8)).toInt ≠ 0 ∨ c = 0#8 then (fold c).toInt - (fold (s2.headD 0#8)).toInt
        else later) := by
  have notNull : c ≠ 0#8 := fun null => string (null ▸ List.mem_cons_self)
  have first := @foldedAt_zero fold (c :: s1)
  have second := @foldedAt_zero fold s2
  rw [List.headD_cons] at first
  by_cases differs : (fold c).toInt - (fold (s2.headD 0#8)).toInt ≠ 0
  · rw [if_pos (Or.inl differs)]
    refine Reports.head ?_ ?_
    · rw [first, second]
      exact fun same => differs (toInt_sub_eq_zero.mpr same)
    · rw [first, second]
      rfl
  · have goesOn : ¬ ((fold c).toInt - (fold (s2.headD 0#8)).toInt ≠ 0 ∨ c = 0#8) := by
      rintro (found | null)
      · exact differs found
      · exact notNull null
    rw [if_neg goesOn]
    refine Reports.tail ?_ ?_
    · rw [first, second]
      exact toInt_sub_eq_zero.mp (not_not.mp differs)
    · rw [foldedAt_tail, foldedAt_tail, List.tail_cons]
      exact reports

end Folding

theorem IsString.tail {c : Byte} {s : List Byte} (string : IsString (c :: s)) : IsString s :=
  fun member => string (List.mem_cons_of_mem c member)

theorem IsString.tail_of {s : List Byte} (string : IsString s) : IsString s.tail :=
  fun member => string (List.mem_of_mem_tail member)

theorem toLower_terminates (c : Byte) : toLower c = toLower 0#8 -> c = 0#8 := fun same => toLower_eq_zero.mp same

theorem toUpper_terminates (c : Byte) : toUpper c = toUpper 0#8 -> c = 0#8 := by
  revert c
  decide

theorem strcasecmp_reports {s1 s2 : List Byte} (string1 : IsString s1) (string2 : IsString s2) :
    Reports id (foldedAt toLower s1) (foldedAt toLower s2) (strcasecmp s1 s2) := by
  induction s1 generalizing s2 with
  | nil => exact reports_end toLower_terminates string2
  | cons c s1 inductionHypothesis => exact reports_round string1 (inductionHypothesis string1.tail string2.tail_of)

theorem strncasecmp_reports {s1 s2 : List Byte} (string1 : IsString s1) (string2 : IsString s2) {n : Nat}
    (beyond : s1.length < n) : Reports id (foldedAt toUpper s1) (foldedAt toUpper s2) (strncasecmp s1 s2 n) := by
  induction s1 generalizing s2 n with
  | nil =>
      cases n with
      | zero => exact absurd beyond (Nat.lt_irrefl 0)
      | succ n => exact reports_end toUpper_terminates string2
  | cons c s1 inductionHypothesis =>
      cases n with
      | zero => exact absurd beyond (Nat.not_lt_zero _)
      | succ n =>
          exact reports_round string1 (inductionHypothesis string1.tail string2.tail_of (Nat.lt_of_succ_lt_succ beyond))

/-! ## The two foldings -/

def IsLetter (c : Byte) : Prop := (0x41 ≤ c.toNat ∧ c.toNat ≤ 0x5A) ∨ (0x61 ≤ c.toNat ∧ c.toNat ≤ 0x7A)

/-- The characters between the capitals and the small letters. -/
def BetweenLetters (c : Byte) : Prop := 0x5A < c.toNat ∧ c.toNat < 0x61

/-- One of the characters is a letter, and the other lies between the two ranges. -/
def Straddles (c1 c2 : Byte) : Prop := (IsLetter c1 ∧ BetweenLetters c2) ∨ (BetweenLetters c1 ∧ IsLetter c2)

theorem toInt_toLower (c : Byte) : (toLower c).toInt =
    if 0x41 ≤ c.toNat ∧ c.toNat ≤ 0x5A then (c.toNat : Int) + 32 else if c.toNat < 128 then c.toNat else c.toNat - 256 := by
  revert c
  decide

theorem toInt_toUpper (c : Byte) : (toUpper c).toInt =
    if 0x61 ≤ c.toNat ∧ c.toNat ≤ 0x7A then (c.toNat : Int) - 32 else if c.toNat < 128 then c.toNat else c.toNat - 256 := by
  revert c
  decide

/-- Both foldings identify the same characters. -/
theorem toLower_eq_iff {c1 c2 : Byte} : (toLower c1).toInt = (toLower c2).toInt ↔ (toUpper c1).toInt = (toUpper c2).toInt := by
  have bound1 := c1.isLt
  have bound2 := c2.isLt
  rw [toInt_toLower, toInt_toLower, toInt_toUpper, toInt_toUpper]
  omega

/-- They order two different characters in the same way unless one is a letter and
the other lies between the letters. -/
theorem toLower_lt_iff {c1 c2 : Byte} :
    ((toLower c1).toInt < (toLower c2).toInt ↔ (toUpper c1).toInt < (toUpper c2).toInt) ↔ ¬ Straddles c1 c2 := by
  have bound1 := c1.isLt
  have bound2 := c2.isLt
  unfold Straddles IsLetter BetweenLetters
  rw [toInt_toLower, toInt_toLower, toInt_toUpper, toInt_toUpper]
  omega

/-- Where the folded strings begin to differ, the two foldings order the characters
alike. -/
def OrdersAlike (s1 s2 : List Byte) : Prop :=
  forall place, FirstDifference (foldedAt toLower s1) (foldedAt toLower s2) place ->
    ¬ Straddles (s1.getD place 0#8) (s2.getD place 0#8)

theorem sub_sign_eq_iff {a b c d : Int} (ab : a ≠ b) (cd : c ≠ d) : (a - b).sign = (c - d).sign ↔ (c < d ↔ a < b) := by
  rcases Int.lt_or_gt_of_ne ab with below | above
  · rw [Int.sign_eq_neg_one_of_neg (by omega)]
    rcases Int.lt_or_gt_of_ne cd with below' | above'
    · rw [Int.sign_eq_neg_one_of_neg (by omega)]
      exact ⟨fun _ => ⟨fun _ => below, fun _ => below'⟩, fun _ => rfl⟩
    · rw [Int.sign_eq_one_of_pos (by omega)]
      exact ⟨fun impossible => absurd impossible (by decide), fun alike => absurd (alike.mpr below) (by omega)⟩
  · rw [Int.sign_eq_one_of_pos (by omega)]
    rcases Int.lt_or_gt_of_ne cd with below' | above'
    · rw [Int.sign_eq_neg_one_of_neg (by omega)]
      exact ⟨fun impossible => absurd impossible (by decide), fun alike => absurd (alike.mp below') (by omega)⟩
    · rw [Int.sign_eq_one_of_pos (by omega)]
      exact ⟨fun _ => ⟨fun below => absurd below (by omega), fun below => absurd below (by omega)⟩, fun _ => rfl⟩

section Strings

variable {s1 s2 s3 : List Byte} (string1 : IsString s1) (string2 : IsString s2)
include string1 string2

theorem strncasecmp_sign_iff {n : Nat} (beyond : s1.length < n) :
    (strncasecmp s1 s2 n).sign = (strcasecmp s1 s2).sign ↔ OrdersAlike s1 s2 := by
  have lower := strcasecmp_reports string1 string2
  have upper := strncasecmp_reports string1 string2 beyond
  have same : forall place, foldedAt toLower s1 place = foldedAt toLower s2 place ↔
      foldedAt toUpper s1 place = foldedAt toUpper s2 place := fun place => toLower_eq_iff
  rcases FirstDifference.eq_or_exists (foldedAt toLower s1) (foldedAt toLower s2) with equal | ⟨place, first⟩
  · have equal' : foldedAt toUpper s1 = foldedAt toUpper s2 := funext fun place => (same place).mp (congrFun equal place)
    rw [lower.same equal, upper.same equal']
    exact ⟨fun _ place first => absurd (congrFun equal place) first.here, fun _ => rfl⟩
  · have firstUpper := (FirstDifference.congr same).mp first
    rw [lower.differs place first, upper.differs place firstUpper, id_eq, id_eq, sub_sign_eq_iff firstUpper.here first.here]
    refine toLower_lt_iff.trans ⟨fun apart other firstOther => ?_, fun alike => alike place first⟩
    rw [firstOther.unique first]
    exact apart

theorem strcasecmp_swap : (strcasecmp s2 s1).sign = -(strcasecmp s1 s2).sign := by
  have reports := strcasecmp_reports string1 string2
  have reports' := strcasecmp_reports string2 string1
  rcases FirstDifference.eq_or_exists (foldedAt toLower s1) (foldedAt toLower s2) with same | ⟨place, first⟩
  · rw [reports.same same, reports'.same same.symm]
    rfl
  · rw [reports.differs place first, reports'.differs place first.symm, id_eq, id_eq, ← Int.sign_neg, Int.neg_sub]

theorem strcasecmp_trans (string3 : IsString s3) (below12 : strcasecmp s1 s2 ≤ 0) (below23 : strcasecmp s2 s3 ≤ 0) :
    strcasecmp s1 s3 ≤ 0 := by
  exact (strcasecmp_reports string1 string2).nonpos_trans below12 (strcasecmp_reports string2 string3) below23
    (strcasecmp_reports string1 string3)

end Strings

/-- `strcasecmp` is a total order on folded strings.  `strncasecmp`, with a count
beyond the strings, orders two of them alike exactly when they do not begin to differ
at a letter and a character between the letters. -/
theorem strcasecmp_orders_strncasecmp {s1 s2 s3 : List Byte} (string1 : IsString s1) (string2 : IsString s2)
    (string3 : IsString s3) :
    (strcasecmp s1 s2 = 0 ↔ SameIgnoringCase s1 s2) ∧ (strcasecmp s2 s1).sign = -(strcasecmp s1 s2).sign ∧
      (strcasecmp s1 s2 ≤ 0 -> strcasecmp s2 s3 ≤ 0 -> strcasecmp s1 s3 ≤ 0) ∧
      ((forall n, s1.length < n -> s2.length < n -> (strncasecmp s1 s2 n).sign = (strcasecmp s1 s2).sign) ↔
        OrdersAlike s1 s2) := by
  refine ⟨strcasecmp_eq_zero_iff string1 string2, strcasecmp_swap string1 string2,
    strcasecmp_trans string1 string2 string3, ?_, ?_⟩
  · intro signs
    have beyond : s1.length < s1.length + s2.length + 1 := by omega
    exact (strncasecmp_sign_iff string1 string2 beyond).mp (signs _ beyond (by omega))
  · intro alike n beyond _
    exact (strncasecmp_sign_iff string1 string2 beyond).mpr alike

/-- The strings `Ab`, `aB` and `ac`. -/
theorem strcasecmp_orders_strncasecmp_letters :
    (strcasecmp [0x41#8, 0x62#8] [0x61#8, 0x42#8] = 0 ↔ SameIgnoringCase [0x41#8, 0x62#8] [0x61#8, 0x42#8]) ∧
      (strcasecmp [0x61#8, 0x42#8] [0x41#8, 0x62#8]).sign = -(strcasecmp [0x41#8, 0x62#8] [0x61#8, 0x42#8]).sign ∧
      (strcasecmp [0x41#8, 0x62#8] [0x61#8, 0x42#8] ≤ 0 -> strcasecmp [0x61#8, 0x42#8] [0x61#8, 0x63#8] ≤ 0 ->
        strcasecmp [0x41#8, 0x62#8] [0x61#8, 0x63#8] ≤ 0) ∧
      ((forall n, 2 < n -> 2 < n -> (strncasecmp [0x41#8, 0x62#8] [0x61#8, 0x42#8] n).sign =
        (strcasecmp [0x41#8, 0x62#8] [0x61#8, 0x42#8]).sign) ↔ OrdersAlike [0x41#8, 0x62#8] [0x61#8, 0x42#8]) :=
  @strcasecmp_orders_strncasecmp [0x41#8, 0x62#8] [0x61#8, 0x42#8] [0x61#8, 0x63#8] (by decide) (by decide) (by decide)

/-- The strings `A` and `_`: the one comparison puts the letter above, the other below. -/
theorem strncasecmp_disagrees :
    ¬ forall n, [0x41#8].length < n -> [0x5F#8].length < n ->
      (strncasecmp [0x41#8] [0x5F#8] n).sign = (strcasecmp [0x41#8] [0x5F#8]).sign := by
  intro signs
  exact absurd (signs 2 (by decide) (by decide)) (by decide)

end Libc
end LarvaOS
