import Mathlib.Algebra.Order.Group.Int
import Mathlib.Data.Nat.Find
import Mathlib.Order.PiLex

namespace LarvaOS
namespace Library

/-!
# Comparisons that report the first difference

A comparison of two sequences goes through them until they differ and reports
the difference that it has found.  It is described by the two sequences and by
what it makes of a difference, so that a comparison which narrows its result is
of the same kind as one which does not.

A report that keeps signs is a comparison in the lexical order of sequences,
which is a linear order.
-/

section Sequences

variable {Value : Type*}

/-- The place at which two sequences begin to differ. -/
structure FirstDifference (left right : Nat -> Value) (place : Nat) : Prop where
  before : forall earlier, earlier < place -> left earlier = right earlier
  here : left place ≠ right place

namespace FirstDifference

variable {left right : Nat -> Value} {place other : Nat}

theorem symm (first : FirstDifference left right place) : FirstDifference right left place :=
  ⟨fun earlier below => (first.before earlier below).symm, first.here.symm⟩

theorem unique (first : FirstDifference left right place) (again : FirstDifference left right other) : place = other := by
  rcases Nat.lt_trichotomy place other with below | same | above
  · exact absurd (again.before place below) first.here
  · exact same
  · exact absurd (first.before other above) again.here

theorem head (differs : left 0 ≠ right 0) : FirstDifference left right 0 :=
  ⟨fun _ below => absurd below (Nat.not_lt_zero _), differs⟩

/-- Behind an equal beginning the sequences differ one place later. -/
theorem tail_iff (same : left 0 = right 0) : FirstDifference left right (place + 1) ↔
    FirstDifference (fun later => left (later + 1)) (fun later => right (later + 1)) place := by
  constructor
  · intro first
    exact ⟨fun earlier below => first.before (earlier + 1) (Nat.succ_lt_succ below), first.here⟩
  · intro first
    refine ⟨fun earlier below => ?_, first.here⟩
    cases earlier with
    | zero => exact same
    | succ earlier => exact first.before earlier (Nat.lt_of_succ_lt_succ below)

theorem congr {Other : Type*} {left' right' : Nat -> Other}
    (same : forall place, left place = right place ↔ left' place = right' place) :
    FirstDifference left right place ↔ FirstDifference left' right' place := by
  constructor
  · intro first
    exact ⟨fun earlier below => (same earlier).mp (first.before earlier below), fun equal => first.here ((same place).mpr equal)⟩
  · intro first
    exact ⟨fun earlier below => (same earlier).mpr (first.before earlier below), fun equal => first.here ((same place).mp equal)⟩

/-- Two sequences are equal, or they differ somewhere first. -/
theorem eq_or_exists (left right : Nat -> Value) : left = right ∨ exists place, FirstDifference left right place := by
  classical
  by_cases same : left = right
  · exact Or.inl same
  · have differs := Function.ne_iff.mp same
    refine Or.inr ⟨Nat.find differs, fun earlier below => ?_, Nat.find_spec differs⟩
    exact not_not.mp (Nat.find_min differs below)

/-- The first difference decides the lexical order. -/
theorem lt_iff [LinearOrder Value] (first : FirstDifference left right place) :
    toLex left < toLex right ↔ left place < right place := by
  constructor
  · rintro ⟨other, before, below⟩
    have same : place = other := first.unique ⟨before, ne_of_lt below⟩
    rw [same]
    exact below
  · intro below
    exact ⟨place, first.before, below⟩

end FirstDifference

end Sequences

/-- The result is 0 for equal sequences, and for others what is made of the
first difference. -/
structure Reports (report : Int -> Int) (left right : Nat -> Int) (result : Int) : Prop where
  same : left = right -> result = 0
  differs : forall place, FirstDifference left right place -> result = report (left place - right place)

namespace Reports

variable {report : Int -> Int} {left right : Nat -> Int} {result : Int}

theorem head (differs : left 0 ≠ right 0) (reported : result = report (left 0 - right 0)) :
    Reports report left right result where
  same := fun same => absurd (congrFun same 0) differs
  differs := by
    intro place first
    rw [first.unique (FirstDifference.head differs)]
    exact reported

theorem tail (same : left 0 = right 0)
    (reports : Reports report (fun place => left (place + 1)) (fun place => right (place + 1)) result) :
    Reports report left right result where
  same := fun equal => reports.same (funext fun place => congrFun equal (place + 1))
  differs := by
    intro place first
    cases place with
    | zero => exact absurd same first.here
    | succ place => exact reports.differs place ((FirstDifference.tail_iff same).mp first)

/-- A report that loses no difference is 0 for equal sequences only. -/
theorem zero_iff (reports : Reports report left right result)
    (kept : forall place, FirstDifference left right place -> report (left place - right place) ≠ 0) :
    result = 0 ↔ left = right := by
  constructor
  · intro zero
    rcases FirstDifference.eq_or_exists left right with same | ⟨place, first⟩
    · exact same
    · exact absurd ((reports.differs place first).symm.trans zero) (kept place first)
  · exact reports.same

/-! ## The difference itself -/

section Exact

variable (reports : Reports id left right result)
include reports

theorem pos_iff : 0 < result ↔ toLex right < toLex left := by
  rcases FirstDifference.eq_or_exists left right with same | ⟨place, first⟩
  · rw [reports.same same, same]
    exact ⟨fun below => absurd below (Int.lt_irrefl 0), fun below => absurd below (lt_irrefl _)⟩
  · rw [reports.differs place first, first.symm.lt_iff, id_eq]
    exact Int.sub_pos

/-- The order of the sequences is transitive, and so are the reports. -/
theorem nonpos_trans {last : Nat -> Int} {next whole : Int} (below : result ≤ 0) (later : Reports id right last next)
    (nextBelow : next ≤ 0) (both : Reports id left last whole) : whole ≤ 0 := by
  have first : toLex left ≤ toLex right := not_lt.mp fun above => absurd (reports.pos_iff.mpr above) (Int.not_lt.mpr below)
  have second : toLex right ≤ toLex last :=
    not_lt.mp fun above => absurd (later.pos_iff.mpr above) (Int.not_lt.mpr nextBelow)
  refine Int.not_lt.mp fun above => ?_
  exact absurd (both.pos_iff.mp above) (not_lt.mpr (le_trans first second))

end Exact

end Reports

end Library
end LarvaOS
