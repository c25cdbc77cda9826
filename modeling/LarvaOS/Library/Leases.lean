import Mathlib.Logic.Function.Basic
import LarvaOS.Library.Extent

namespace LarvaOS
namespace Library

/-!
# Leases

Extents that are held under names, in a table that was blank where they lie.  A name takes
an extent of free cells, hands it on to another name, or gives it back; and when no name
holds one, the table is the one from the beginning.
-/

variable {Mark Name : Type*}

/-- The table differs from the first one by the extents that are held. -/
structure Leases (scheme : MarkScheme Mark) (total : Nat) (first cells : Nat -> Mark) (held : Name -> Option Extent) :
    Prop where
  recorded : forall name extent, held name = some extent -> scheme.Records cells extent
  within : forall name extent, held name = some extent -> extent.first + extent.count ≤ total
  apart : forall name other extent extent', held name = some extent -> held other = some extent' -> name ≠ other ->
    extent.Apart extent'
  blank : forall name extent cell, held name = some extent -> extent.Covers cell -> first cell = scheme.blank
  same : forall cell, cell < total -> (forall name extent, held name = some extent -> ¬ extent.Covers cell) ->
    cells cell = first cell

namespace Leases

variable {scheme : MarkScheme Mark} {total : Nat} {first cells cells' : Nat -> Mark} {held : Name -> Option Extent}

/-- Nothing is held. -/
theorem start (cells : Nat -> Mark) : Leases scheme total cells cells fun _ : Name => none where
  recorded := fun _ _ impossible => absurd impossible (Option.some_ne_none _).symm
  within := fun _ _ impossible => absurd impossible (Option.some_ne_none _).symm
  apart := fun _ _ _ _ impossible => absurd impossible (Option.some_ne_none _).symm
  blank := fun _ _ _ impossible => absurd impossible (Option.some_ne_none _).symm
  same := fun _ _ _ => rfl

/-- Everything has been given back. -/
theorem restored (leases : Leases scheme total first cells held) (nothing : forall name, held name = none) {cell : Nat}
    (inside : cell < total) : cells cell = first cell := by
  refine leases.same cell inside fun name extent impossible => ?_
  rw [nothing name] at impossible
  cases impossible

/-- No name holds a free cell, which was blank in the first table. -/
theorem free_blank (leases : Leases scheme total first cells held)
    (blank : forall cell, cell < total -> scheme.free (first cell) = true -> first cell = scheme.blank) {cell : Nat}
    (inside : cell < total) (free : scheme.free (cells cell) = true) : first cell = scheme.blank := by
  have same := leases.same cell inside fun name extent holds covers => by
    rw [(leases.recorded name extent holds).not_free covers] at free
    exact Bool.false_ne_true free
  rw [same] at free
  exact blank cell inside free

variable [DecidableEq Name]

/-- What a name holds after an update. -/
theorem held_update {name other : Name} {given : Option Extent} {extent : Extent}
    (holds : Function.update held name given other = some extent) :
    (other = name ∧ given = some extent) ∨ (other ≠ name ∧ held other = some extent) := by
  by_cases same : other = name
  · rw [same, Function.update_self] at holds
    exact Or.inl ⟨same, holds⟩
  · rw [Function.update_of_ne same] at holds
    exact Or.inr ⟨same, holds⟩

/-- A name without an extent takes one of free cells. -/
theorem take (leases : Leases scheme total first cells held)
    (blank : forall cell, cell < total -> scheme.free (first cell) = true -> first cell = scheme.blank) {name : Name}
    (unheld : held name = none) {fresh : Extent} (fits : fresh.first + fresh.count ≤ total)
    (free : FreeRun (fun cell => scheme.free (cells cell) = true) fresh.first fresh.count)
    (marked : forall cell, fresh.Covers cell -> cells' cell = scheme.markAt fresh cell)
    (kept : forall cell, ¬ fresh.Covers cell -> cells' cell = cells cell) :
    Leases scheme total first cells' (Function.update held name (some fresh)) where
  recorded := by
    intro other extent holds
    rcases held_update holds with ⟨_, given⟩ | ⟨_, old⟩
    · cases given
      exact marked
    · have recorded := leases.recorded other extent old
      exact recorded.transport fun cell covered => kept cell ((recorded.apart_of_freeRun free).not_covers covered)
  within := by
    intro other extent holds
    rcases held_update holds with ⟨_, given⟩ | ⟨_, old⟩
    · cases given
      exact fits
    · exact leases.within other extent old
  apart := by
    intro one other extent extent' holds holds' different
    rcases held_update holds with ⟨here, given⟩ | ⟨_, old⟩
    · cases given
      rcases held_update holds' with ⟨here', _⟩ | ⟨_, old'⟩
      · exact absurd (here.trans here'.symm) different
      · exact ((leases.recorded other extent' old').apart_of_freeRun free).symm
    · rcases held_update holds' with ⟨_, given'⟩ | ⟨_, old'⟩
      · cases given'
        exact (leases.recorded one extent old).apart_of_freeRun free
      · exact leases.apart one other extent extent' old old' different
  blank := by
    intro other extent cell holds covers
    rcases held_update holds with ⟨_, given⟩ | ⟨_, old⟩
    · cases given
      exact leases.free_blank blank (Nat.lt_of_lt_of_le covers.2 fits) (free cell covers.1 covers.2)
    · exact leases.blank other extent cell old covers
  same := by
    intro cell inside uncovered
    rw [kept cell (uncovered name fresh (Function.update_self _ _ _))]
    refine leases.same cell inside fun other extent old => uncovered other extent ?_
    have different : other ≠ name := by
      rintro rfl
      rw [unheld] at old
      cases old
    rwa [Function.update_of_ne different]

/-- A name gives its extent back. -/
theorem giveBack (leases : Leases scheme total first cells held) {name : Name} {gone : Extent}
    (holds : held name = some gone) (cleared : forall cell, gone.Covers cell -> cells' cell = scheme.blank)
    (kept : forall cell, ¬ gone.Covers cell -> cells' cell = cells cell) :
    Leases scheme total first cells' (Function.update held name none) where
  recorded := by
    intro other extent stays
    rcases held_update stays with ⟨_, given⟩ | ⟨different, old⟩
    · cases given
    · refine (leases.recorded other extent old).transport fun cell covered => kept cell ?_
      exact (leases.apart other name extent gone old holds different).not_covers covered
  within := by
    intro other extent stays
    rcases held_update stays with ⟨_, given⟩ | ⟨_, old⟩
    · cases given
    · exact leases.within other extent old
  apart := by
    intro one other extent extent' stays stays' different
    rcases held_update stays with ⟨_, given⟩ | ⟨_, old⟩
    · cases given
    · rcases held_update stays' with ⟨_, given'⟩ | ⟨_, old'⟩
      · cases given'
      · exact leases.apart one other extent extent' old old' different
  blank := by
    intro other extent cell stays covers
    rcases held_update stays with ⟨_, given⟩ | ⟨_, old⟩
    · cases given
    · exact leases.blank other extent cell old covers
  same := by
    intro cell inside uncovered
    by_cases covered : gone.Covers cell
    · rw [cleared cell covered]
      exact (leases.blank name gone cell holds covered).symm
    · rw [kept cell covered]
      refine leases.same cell inside fun other extent old => ?_
      by_cases here : other = name
      · rw [here, holds] at old
        cases old
        exact covered
      · refine uncovered other extent ?_
        rwa [Function.update_of_ne here]

/-- A name hands its extent on to one that holds none. -/
theorem handOn (leases : Leases scheme total first cells held) {name source : Name} (unheld : held name = none)
    (different : name ≠ source) :
    Leases scheme total first cells (Function.update (Function.update held source none) name (held source)) := by
  -- who holds an extent afterwards has it from exactly one who held it before
  have origin : forall other extent,
      Function.update (Function.update held source none) name (held source) other = some extent ->
        exists before, held before = some extent ∧ (other = name ∧ before = source ∨ other ≠ name ∧ before = other) := by
    intro other extent holds
    rcases held_update holds with ⟨here, given⟩ | ⟨elsewhere, rest⟩
    · exact ⟨source, given, Or.inl ⟨here, rfl⟩⟩
    · rcases held_update rest with ⟨_, impossible⟩ | ⟨_, old⟩
      · cases impossible
      · exact ⟨other, old, Or.inr ⟨elsewhere, rfl⟩⟩
  have notSource : forall extent,
      Function.update (Function.update held source none) name (held source) source ≠ some extent := by
    intro extent
    rw [Function.update_of_ne different.symm, Function.update_self]
    exact (Option.some_ne_none extent).symm
  refine ⟨fun other extent holds => ?_, fun other extent holds => ?_, fun one other extent extent' holds holds' apart => ?_,
    fun other extent cell holds covers => ?_, fun cell inside uncovered => ?_⟩
  · rcases origin other extent holds with ⟨before, old, _⟩
    exact leases.recorded before extent old
  · rcases origin other extent holds with ⟨before, old, _⟩
    exact leases.within before extent old
  · rcases origin one extent holds with ⟨before, old, from'⟩
    rcases origin other extent' holds' with ⟨before', old', from''⟩
    refine leases.apart before before' extent extent' old old' fun same => ?_
    rcases from' with ⟨rfl, rfl⟩ | ⟨_, rfl⟩
    · rcases from'' with ⟨rfl, _⟩ | ⟨_, rfl⟩
      · exact apart rfl
      · exact notSource extent' (same ▸ holds')
    · rcases from'' with ⟨_, rfl⟩ | ⟨_, rfl⟩
      · exact notSource extent (same ▸ holds)
      · exact apart same
  · rcases origin other extent holds with ⟨before, old, _⟩
    exact leases.blank before extent cell old covers
  · refine leases.same cell inside fun other extent old => ?_
    by_cases here : other = source
    · refine uncovered name extent ?_
      rw [Function.update_self, ← here]
      exact old
    · refine uncovered other extent ?_
      have elsewhere : other ≠ name := by
        rintro rfl
        rw [unheld] at old
        cases old
      rw [Function.update_of_ne elsewhere, Function.update_of_ne here]
      exact old

end Leases

end Library
end LarvaOS
