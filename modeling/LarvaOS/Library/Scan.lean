import Mathlib.Data.Nat.Count
import Mathlib.Order.Nat

namespace LarvaOS
namespace Library

/-!
# Scanning a sequence up to a mark

A scan reads the items of a sequence one after the other, counts some of them,
and ends with the first item that is a mark.  It is given a number of reads.  A
sequence that repeats itself after that many items has a mark among them or
none at all, so the number is no restriction then.
-/

section Scan

variable {Item : Type*} (isMark isCounted : Item -> Bool) (source : Nat -> Item)

/-- The scan from an index on: the count, and the index of the mark. -/
def scan : Nat -> Nat -> Nat -> Option (Nat × Nat)
  | 0, _, _ => none
  | reads + 1, index, total =>
      if isMark (source index) then some (total, index)
      else scan reads (index + 1) (if isCounted (source index) then total + 1 else total)

/-- The index of the first mark. -/
structure FirstMark (mark : Nat) : Prop where
  marked : isMark (source mark) = true
  before : forall index, index < mark -> isMark (source index) = false

/-- The number of items before an index that are counted. -/
def countedBefore (index : Nat) : Nat := Nat.count (fun place => isCounted (source place) = true) index

variable {isMark isCounted source}

theorem countedBefore_succ (index : Nat) :
    countedBefore isCounted source (index + 1) =
      if isCounted (source index) then countedBefore isCounted source index + 1
      else countedBefore isCounted source index := by
  unfold countedBefore
  rw [Nat.count_succ]
  cases isCounted (source index) with
  | true => rfl
  | false => rfl

/-- Only the items before the index count. -/
theorem countedBefore_congr {source' : Nat -> Item} {index : Nat}
    (same : forall place, place < index -> source place = source' place) :
    countedBefore isCounted source index = countedBefore isCounted source' index := by
  induction index with
  | zero => rfl
  | succ index inductionHypothesis =>
      rw [countedBefore_succ, countedBefore_succ, same index (Nat.lt_succ_self index),
        inductionHypothesis fun place below => same place (Nat.lt_succ_of_lt below)]

theorem FirstMark.congr {source' : Nat -> Item} {mark : Nat} (first : FirstMark isMark source mark)
    (same : forall place, place ≤ mark -> source place = source' place) : FirstMark isMark source' mark where
  marked := same mark (Nat.le_refl mark) ▸ first.marked
  before := fun index below => same index (Nat.le_of_lt below) ▸ first.before index below

theorem countedBefore_le (index : Nat) : countedBefore isCounted source index ≤ index := Nat.count_le _

theorem FirstMark.le {mark other : Nat} (first : FirstMark isMark source mark)
    (marked : isMark (source other) = true) : mark ≤ other := by
  by_contra below
  have unmarked := first.before other (Nat.not_le.mp below)
  exact Bool.false_ne_true (unmarked.symm.trans marked)

theorem FirstMark.unique {mark other : Nat} (first : FirstMark isMark source mark)
    (second : FirstMark isMark source other) : mark = other :=
  Nat.le_antisymm (first.le second.marked) (second.le first.marked)

theorem exists_firstMark {index : Nat} (marked : isMark (source index) = true) :
    exists mark, FirstMark isMark source mark := by
  have found : exists place, isMark (source place) = true := ⟨index, marked⟩
  refine ⟨Nat.find found, Nat.find_spec found, fun place below => ?_⟩
  exact Bool.eq_false_of_not_eq_true (Nat.find_min found below)

/-- A scan that has enough reads comes to the first mark. -/
theorem scan_of_firstMark {mark : Nat} (first : FirstMark isMark source mark) (reads index : Nat)
    (reached : index ≤ mark) (enough : mark < index + reads) :
    scan isMark isCounted source reads index (countedBefore isCounted source index) =
      some (countedBefore isCounted source mark, mark) := by
  induction reads generalizing index with
  | zero => exact absurd enough (by omega)
  | succ reads inductionHypothesis =>
      rw [scan]
      by_cases here : index = mark
      · subst here
        rw [if_pos first.marked]
      · have unmarked := first.before index (by omega)
        rw [unmarked, if_neg Bool.false_ne_true, ← countedBefore_succ]
        exact inductionHypothesis (index + 1) (by omega) (by omega)

/-- A scan of items that are no marks does not end. -/
theorem scan_of_noMark (none : forall index, isMark (source index) = false) (reads index total : Nat) :
    scan isMark isCounted source reads index total = Option.none := by
  induction reads generalizing index total with
  | zero => rfl
  | succ reads inductionHypothesis =>
      rw [scan, none index, if_neg Bool.false_ne_true]
      exact inductionHypothesis _ _

/-- The mark itself is not counted. -/
theorem scan_count_lt {reads index total : Nat} {found : Nat × Nat}
    (same : scan isMark isCounted source reads index total = some found) : found.1 < total + reads := by
  induction reads generalizing index total with
  | zero => exact absurd same (by simp [scan])
  | succ reads inductionHypothesis =>
      rw [scan] at same
      cases marked : isMark (source index) with
      | true =>
          rw [marked, if_pos rfl] at same
          obtain rfl := Option.some.inj same
          exact Nat.lt_add_of_pos_right (Nat.succ_pos reads)
      | false =>
          rw [marked, if_neg Bool.false_ne_true] at same
          have later := inductionHypothesis same
          cases counted : isCounted (source index) with
          | true =>
              rw [counted, if_pos rfl] at later
              omega
          | false =>
              rw [counted, if_neg Bool.false_ne_true] at later
              omega

/-- The first mark of a sequence that repeats itself is not behind its period. -/
theorem FirstMark.lt_period {mark period : Nat} (first : FirstMark isMark source mark) (positive : 0 < period)
    (repeats : forall index, source (index + period) = source index) : mark < period := by
  by_contra beyond
  have earlier : isMark (source (mark - period)) = true := by
    rw [← repeats, Nat.sub_add_cancel (Nat.not_lt.mp beyond)]
    exact first.marked
  have le := first.le earlier
  omega

end Scan

/-! ## The last index with a property -/

/-- The last index below a bound that has a property. -/
structure LastBelow (holds : Nat -> Prop) (bound last : Nat) : Prop where
  below : last < bound
  here : holds last
  behind : forall index, last < index -> index < bound -> ¬ holds index

theorem LastBelow.unique {holds : Nat -> Prop} {bound last other : Nat} (left : LastBelow holds bound last)
    (right : LastBelow holds bound other) : last = other := by
  rcases Nat.lt_trichotomy last other with less | same | greater
  · exact absurd right.here (left.behind other less right.below)
  · exact same
  · exact absurd left.here (right.behind last greater left.below)

theorem exists_lastBelow {holds : Nat -> Prop} {bound : Nat} (some : exists index, index < bound ∧ holds index) :
    exists last, LastBelow holds bound last := by
  induction bound with
  | zero =>
      rcases some with ⟨index, below, _⟩
      exact absurd below (Nat.not_lt_zero index)
  | succ bound inductionHypothesis =>
      by_cases top : holds bound
      · exact ⟨bound, Nat.lt_succ_self bound, top, fun index behind below => absurd below (by omega)⟩
      · rcases some with ⟨index, below, here⟩
        have lower : index < bound := by
          rcases Nat.lt_or_eq_of_le (Nat.le_of_lt_succ below) with less | rfl
          · exact less
          · exact absurd here top
        rcases inductionHypothesis ⟨index, lower, here⟩ with ⟨last, lastBelow, lastHere, behind⟩
        refine ⟨last, Nat.lt_succ_of_lt lastBelow, lastHere, fun other after inside => ?_⟩
        rcases Nat.lt_or_eq_of_le (Nat.le_of_lt_succ inside) with less | rfl
        · exact behind other after less
        · exact top

end Library
end LarvaOS
