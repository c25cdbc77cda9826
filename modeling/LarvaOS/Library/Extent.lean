import Mathlib.Data.Finset.Card
import Mathlib.Data.List.Basic
import Mathlib.Data.List.Pairwise
import Mathlib.Order.Interval.Finset.Nat
import Mathlib.Tactic.Common

namespace LarvaOS
namespace Library

/-!
# Extents and the tables that mark them

An extent is a nonempty interval of cells.  A table records a set of pairwise
separate extents by marking every cell of an extent with two bits: whether the
cell begins its extent and whether the extent continues in the next cell.

The marks of one extent determine it.  Consequently two extents that a table
records are equal or separate, whatever the rest of the table holds; this
needs no global invariant, only the cells of the two extents.  The relation
`Encodes` adds the rest: every cell outside the recorded extents is blank.
-/

/-- A nonempty interval of cells. -/
structure Extent where
  first : Nat
  count : Nat
  nonempty : 0 < count

namespace Extent

/-- The extent of one cell. -/
def single (cell : Nat) : Extent := ⟨cell, 1, Nat.one_pos⟩

def Covers (extent : Extent) (cell : Nat) : Prop :=
  extent.first ≤ cell ∧ cell < extent.first + extent.count

instance (extent : Extent) (cell : Nat) : Decidable (extent.Covers cell) :=
  inferInstanceAs (Decidable (_ ∧ _))

theorem covers_single {cell other : Nat} : (single cell).Covers other ↔ other = cell := by
  change (cell ≤ other ∧ other < cell + 1) ↔ other = cell
  omega

/-- Two extents without a common cell. -/
def Apart (left right : Extent) : Prop :=
  left.first + left.count ≤ right.first ∨ right.first + right.count ≤ left.first

theorem covers_first (extent : Extent) : extent.Covers extent.first :=
  ⟨Nat.le_refl _, Nat.lt_add_of_pos_right extent.nonempty⟩

theorem Apart.symm {left right : Extent} (apart : left.Apart right) : right.Apart left :=
  apart.elim Or.inr Or.inl

theorem Apart.not_covers {left right : Extent} (apart : left.Apart right) {cell : Nat}
    (covered : left.Covers cell) : ¬ right.Covers cell := by
  unfold Covers Apart at *
  omega

theorem apart_of_not_covers {left right : Extent}
    (separate : forall cell, left.Covers cell -> ¬ right.Covers cell) : left.Apart right := by
  have atLeft := separate left.first
  have atRight := separate right.first
  have leftPositive := left.nonempty
  have rightPositive := right.nonempty
  unfold Covers Apart at *
  omega

theorem eq_single {extent : Extent} (one : extent.count = 1) : extent = single extent.first := by
  cases extent
  simp only at one
  subst one
  rfl

theorem single_injective {left right : Nat} (same : single left = single right) : left = right :=
  congrArg first same

theorem not_apart_self (extent : Extent) : ¬ extent.Apart extent := by
  have positive := extent.nonempty
  unfold Apart
  omega

end Extent

/-- Every cell of the interval satisfies the predicate. -/
def FreeRun (free : Nat -> Prop) (first count : Nat) : Prop :=
  forall cell, first ≤ cell -> cell < first + count -> free cell

/-- The number of cells below a bound that satisfy the predicate. -/
def freeCells (free : Nat -> Prop) [DecidablePred free] (total : Nat) : Nat := ((Finset.range total).filter free).card

section FreeCells

variable {free free' : Nat -> Prop} [DecidablePred free] [DecidablePred free'] {total : Nat}

theorem freeCells_eq_zero : freeCells free total = 0 ↔ forall cell, cell < total -> ¬ free cell := by
  rw [freeCells, Finset.card_eq_zero, Finset.filter_eq_empty_iff]
  simp only [Finset.mem_range]

theorem freeCells_all (all : forall cell, cell < total -> free cell) : freeCells free total = total := by
  rw [freeCells, Finset.filter_true_of_mem fun cell below => all cell (Finset.mem_range.mp below), Finset.card_range]

/-- The cells of an extent are taken out of the free ones. -/
theorem freeCells_take {extent : Extent} (run : FreeRun free extent.first extent.count)
    (within : extent.first + extent.count ≤ total)
    (taken : forall cell, free' cell ↔ ¬ extent.Covers cell ∧ free cell) :
    freeCells free' total + extent.count = freeCells free total := by
  have cells : (Finset.range total).filter free' =
      (Finset.range total).filter free \ Finset.Ico extent.first (extent.first + extent.count) := by
    ext cell
    rw [Finset.mem_sdiff, Finset.mem_filter, Finset.mem_filter, Finset.mem_Ico, taken]
    exact ⟨fun ⟨below, away, isFree⟩ => ⟨⟨below, isFree⟩, away⟩, fun ⟨⟨below, isFree⟩, away⟩ => ⟨below, away, isFree⟩⟩
  have inside : Finset.Ico extent.first (extent.first + extent.count) ⊆ (Finset.range total).filter free := by
    intro cell covered
    rcases Finset.mem_Ico.mp covered with ⟨above, below⟩
    exact Finset.mem_filter.mpr ⟨Finset.mem_range.mpr (Nat.lt_of_lt_of_le below within), run cell above below⟩
  have count : (Finset.Ico extent.first (extent.first + extent.count)).card = extent.count := by
    rw [Nat.card_Ico, Nat.add_sub_cancel_left]
  have difference := Finset.card_sdiff_add_card_eq_card inside
  rw [count, ← cells] at difference
  exact difference

/-- The cells that are not free any more make up the difference. -/
theorem freeCells_lost (stays : forall cell, free' cell -> free cell) :
    freeCells free' total + ((Finset.range total).filter fun cell => free cell ∧ ¬ free' cell).card =
      freeCells free total := by
  have inside : (Finset.range total).filter free' ⊆ (Finset.range total).filter free := by
    intro cell member
    rcases Finset.mem_filter.mp member with ⟨below, isFree⟩
    exact Finset.mem_filter.mpr ⟨below, stays cell isFree⟩
  have lost : ((Finset.range total).filter fun cell => free cell ∧ ¬ free' cell) =
      (Finset.range total).filter free \ (Finset.range total).filter free' := by
    ext cell
    rw [Finset.mem_sdiff, Finset.mem_filter, Finset.mem_filter, Finset.mem_filter]
    constructor
    · rintro ⟨below, was, gone⟩
      exact ⟨⟨below, was⟩, fun later => gone later.2⟩
    · rintro ⟨⟨below, was⟩, gone⟩
      exact ⟨below, was, fun later => gone ⟨below, later⟩⟩
  rw [lost, freeCells, freeCells, Nat.add_comm]
  exact Finset.card_sdiff_add_card_eq_card inside

end FreeCells

/-- A way to mark the cells of an extent.  The two tests read the bits of a
mark back, and `free` rejects every mark. -/
structure MarkScheme (Mark : Type*) where
  mark : Bool -> Bool -> Mark
  begins : Mark -> Bool
  continues : Mark -> Bool
  free : Mark -> Bool
  blank : Mark
  begins_mark : forall first next, begins (mark first next) = first
  continues_mark : forall first next, continues (mark first next) = next
  free_mark : forall first next, free (mark first next) = false
  free_blank : free blank = true
  begins_blank : begins blank = false
  continues_blank : continues blank = false

namespace MarkScheme

variable {Mark : Type*} (scheme : MarkScheme Mark)

/-- The mark of one cell of an extent. -/
def markAt (extent : Extent) (cell : Nat) : Mark :=
  scheme.mark (decide (cell = extent.first)) (decide (cell + 1 < extent.first + extent.count))

/-- The table records this extent. -/
def Records (cells : Nat -> Mark) (extent : Extent) : Prop :=
  forall cell, extent.Covers cell -> cells cell = scheme.markAt extent cell

variable {scheme} {cells : Nat -> Mark}

theorem Records.begins_iff {extent : Extent} (recorded : scheme.Records cells extent) {cell : Nat}
    (covered : extent.Covers cell) : scheme.begins (cells cell) = true ↔ cell = extent.first := by
  rw [recorded cell covered, markAt, scheme.begins_mark, decide_eq_true_eq]

theorem Records.continues_iff {extent : Extent} (recorded : scheme.Records cells extent) {cell : Nat}
    (covered : extent.Covers cell) :
    scheme.continues (cells cell) = true ↔ cell + 1 < extent.first + extent.count := by
  rw [recorded cell covered, markAt, scheme.continues_mark, decide_eq_true_eq]

theorem Records.not_free {extent : Extent} (recorded : scheme.Records cells extent) {cell : Nat}
    (covered : extent.Covers cell) : scheme.free (cells cell) = false := by
  rw [recorded cell covered, markAt, scheme.free_mark]

/-- The beginning of a recorded extent lies in no other recorded extent,
except at its own beginning. -/
theorem Records.first_eq_of_covers {left right : Extent} (leftRecorded : scheme.Records cells left)
    (rightRecorded : scheme.Records cells right) (covered : left.Covers right.first) :
    left.first = right.first := by
  have begins := (rightRecorded.begins_iff right.covers_first).mpr rfl
  exact ((leftRecorded.begins_iff covered).mp begins).symm

theorem Records.count_le {left right : Extent} (leftRecorded : scheme.Records cells left)
    (rightRecorded : scheme.Records cells right) (same : left.first = right.first) :
    left.count ≤ right.count := by
  by_contra longer
  have rightPositive := right.nonempty
  -- The last cell of the shorter extent continues the longer one.
  have inLeft : left.Covers (right.first + right.count - 1) := by
    unfold Extent.Covers
    omega
  have inRight : right.Covers (right.first + right.count - 1) := by
    unfold Extent.Covers
    omega
  have continued : scheme.continues (cells (right.first + right.count - 1)) = true :=
    (leftRecorded.continues_iff inLeft).mpr (by omega)
  have bounded := (rightRecorded.continues_iff inRight).mp continued
  omega

/-- Two recorded extents are the same extent or have no common cell. -/
theorem Records.eq_or_apart {left right : Extent} (leftRecorded : scheme.Records cells left)
    (rightRecorded : scheme.Records cells right) : left = right ∨ left.Apart right := by
  by_cases same : left.first = right.first
  · have count := Nat.le_antisymm (leftRecorded.count_le rightRecorded same)
      (rightRecorded.count_le leftRecorded same.symm)
    cases left
    cases right
    simp only at same count
    subst same count
    exact Or.inl rfl
  · right
    have notLeft : ¬ left.Covers right.first := fun covered =>
      same (leftRecorded.first_eq_of_covers rightRecorded covered)
    have notRight : ¬ right.Covers left.first := fun covered =>
      same (rightRecorded.first_eq_of_covers leftRecorded covered).symm
    have leftPositive := left.nonempty
    have rightPositive := right.nonempty
    unfold Extent.Covers Extent.Apart at *
    omega

/-- A recorded extent depends on its own cells only. -/
theorem Records.transport {extent : Extent} {cells' : Nat -> Mark}
    (recorded : scheme.Records cells extent)
    (same : forall cell, extent.Covers cell -> cells' cell = cells cell) :
    scheme.Records cells' extent :=
  fun cell covered => (same cell covered).trans (recorded cell covered)

/-- Free cells belong to no recorded extent. -/
theorem Records.apart_of_freeRun {extent fresh : Extent} (recorded : scheme.Records cells extent)
    (free : FreeRun (fun cell => scheme.free (cells cell) = true) fresh.first fresh.count) :
    extent.Apart fresh := by
  apply Extent.apart_of_not_covers
  intro cell covered freshCovered
  have isFree : scheme.free (cells cell) = true := free cell freshCovered.1 freshCovered.2
  rw [recorded.not_free covered] at isFree
  exact Bool.false_ne_true isFree

variable (scheme) in
/-- The table below `total` is exactly the encoding of the given extents. -/
structure Encodes (cells : Nat -> Mark) (total : Nat) (extents : List Extent) : Prop where
  recorded : forall extent, extent ∈ extents -> scheme.Records cells extent
  within : forall extent, extent ∈ extents -> extent.first + extent.count ≤ total
  apart : extents.Pairwise Extent.Apart
  blank : forall cell, cell < total -> (forall extent, extent ∈ extents -> ¬ extent.Covers cell) ->
    cells cell = scheme.blank

/-- An encoding depends on the cells of the table only. -/
theorem Encodes.transport {total : Nat} {extents : List Extent} {cells' : Nat -> Mark}
    (encoded : scheme.Encodes cells total extents) (same : forall cell, cell < total -> cells' cell = cells cell) :
    scheme.Encodes cells' total extents where
  recorded := by
    intro extent member
    refine (encoded.recorded extent member).transport fun cell covered => same cell ?_
    exact Nat.lt_of_lt_of_le covered.2 (encoded.within extent member)
  within := encoded.within
  apart := encoded.apart
  blank := fun cell inside uncovered => (same cell inside).trans (encoded.blank cell inside uncovered)

/-- Marking a run of free cells adds one extent. -/
theorem Encodes.insert {total : Nat} {extents : List Extent} (encoded : scheme.Encodes cells total extents)
    (cells' : Nat -> Mark) (fresh : Extent) (fits : fresh.first + fresh.count ≤ total)
    (free : FreeRun (fun cell => scheme.free (cells cell) = true) fresh.first fresh.count)
    (marked : forall cell, fresh.Covers cell -> cells' cell = scheme.markAt fresh cell)
    (kept : forall cell, ¬ fresh.Covers cell -> cells' cell = cells cell) :
    scheme.Encodes cells' total (fresh :: extents) where
  recorded := by
    intro extent member
    rcases List.mem_cons.mp member with same | old
    · subst same
      exact marked
    · have recorded := encoded.recorded extent old
      exact recorded.transport fun cell covered =>
        kept cell ((recorded.apart_of_freeRun free).not_covers covered)
  within := by
    intro extent member
    rcases List.mem_cons.mp member with same | old
    · exact same ▸ fits
    · exact encoded.within extent old
  apart := by
    refine List.pairwise_cons.mpr ⟨fun extent member => ?_, encoded.apart⟩
    exact ((encoded.recorded extent member).apart_of_freeRun free).symm
  blank := by
    intro cell bound uncovered
    rw [kept cell (uncovered fresh List.mem_cons_self)]
    exact encoded.blank cell bound fun extent member =>
      uncovered extent (List.mem_cons_of_mem fresh member)

/-- An extent begins where the mark says so. -/
theorem Encodes.exists_first {total : Nat} {extents : List Extent} (encoded : scheme.Encodes cells total extents)
    {cell : Nat} (inside : cell < total) (begins : scheme.begins (cells cell) = true) :
    exists extent, extent ∈ extents ∧ extent.first = cell := by
  by_cases covered : exists extent, extent ∈ extents ∧ extent.Covers cell
  · rcases covered with ⟨extent, member, covers⟩
    exact ⟨extent, member, (((encoded.recorded extent member).begins_iff covers).mp begins).symm⟩
  · have blank : cells cell = scheme.blank :=
      encoded.blank cell inside fun extent member covers => covered ⟨extent, member, covers⟩
    rw [blank, scheme.begins_blank] at begins
    exact absurd begins Bool.false_ne_true

/-- A free cell is blank. -/
theorem Encodes.blank_of_free {total : Nat} {extents : List Extent} (encoded : scheme.Encodes cells total extents)
    {cell : Nat} (inside : cell < total) (free : scheme.free (cells cell) = true) : cells cell = scheme.blank := by
  refine encoded.blank cell inside fun extent member covers => ?_
  have taken := (encoded.recorded extent member).not_free covers
  exact Bool.false_ne_true (taken.symm.trans free)

/-- A cell that is not free belongs to an extent. -/
theorem Encodes.exists_covers {total : Nat} {extents : List Extent} (encoded : scheme.Encodes cells total extents)
    {cell : Nat} (inside : cell < total) (taken : scheme.free (cells cell) ≠ true) :
    exists extent, extent ∈ extents ∧ extent.Covers cell := by
  by_contra uncovered
  have blank : cells cell = scheme.blank :=
    encoded.blank cell inside fun extent member covers => uncovered ⟨extent, member, covers⟩
  rw [blank] at taken
  exact taken scheme.free_blank

/-- Extents of one encoding that share a cell are equal. -/
theorem Encodes.eq_of_covers {total : Nat} {extents : List Extent}
    (encoded : scheme.Encodes cells total extents) {left right : Extent}
    (leftMember : left ∈ extents) (rightMember : right ∈ extents) {cell : Nat}
    (leftCovers : left.Covers cell) (rightCovers : right.Covers cell) : left = right := by
  rcases (encoded.recorded left leftMember).eq_or_apart (encoded.recorded right rightMember)
    with same | apart
  · exact same
  · exact absurd rightCovers (apart.not_covers leftCovers)

/-- Blanking the cells of one extent removes it, whichever list of the
remaining extents is kept. -/
theorem Encodes.remove {total : Nat} {extents rest : List Extent}
    (encoded : scheme.Encodes cells total extents) (gone : Extent) (member : gone ∈ extents)
    (sublist : rest.Sublist extents)
    (remaining : forall extent, extent ∈ rest ↔ extent ∈ extents ∧ extent ≠ gone)
    {cells' : Nat -> Mark}
    (cleared : forall cell, gone.Covers cell -> cells' cell = scheme.blank)
    (kept : forall cell, ¬ gone.Covers cell -> cells' cell = cells cell) :
    scheme.Encodes cells' total rest where
  recorded := by
    intro extent listed
    have old := (remaining extent).mp listed
    have recorded := encoded.recorded extent old.1
    refine recorded.transport fun cell covered => kept cell fun inGone => ?_
    exact old.2 (encoded.eq_of_covers old.1 member covered inGone)
  within := fun extent listed => encoded.within extent ((remaining extent).mp listed).1
  apart := encoded.apart.sublist sublist
  blank := by
    intro cell bound uncovered
    by_cases inGone : gone.Covers cell
    · exact cleared cell inGone
    · rw [kept cell inGone]
      refine encoded.blank cell bound fun extent listed covered => ?_
      by_cases same : extent = gone
      · exact inGone (same ▸ covered)
      · exact uncovered extent ((remaining extent).mpr ⟨listed, same⟩) covered

/-- Blanking the cells of one extent leaves an encoding of the others. -/
theorem Encodes.remove_one {total : Nat} {extents : List Extent} (encoded : scheme.Encodes cells total extents)
    (gone : Extent) (member : gone ∈ extents) {cells' : Nat -> Mark}
    (cleared : forall cell, gone.Covers cell -> cells' cell = scheme.blank)
    (kept : forall cell, ¬ gone.Covers cell -> cells' cell = cells cell) :
    exists rest, scheme.Encodes cells' total rest := by
  classical
  refine ⟨extents.filter fun extent => extent ≠ gone,
    encoded.remove gone member List.filter_sublist (fun extent => ?_) cleared kept⟩
  rw [List.mem_filter, decide_eq_true_iff]

end MarkScheme

end Library
end LarvaOS
