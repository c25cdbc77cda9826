import Mathlib.Data.List.Basic

namespace LarvaOS
namespace Library

/-!
# Properties of whole runs

A component is driven by a list of calls.  The client of the component may
only make a call that its own bookkeeping allows, and a law is expected to
hold after every call.  The two rules below reduce such a law to one step.

`Run.throughout_of_invariant` is the usual invariant rule.  The second rule,
`Run.throughout_iff`, serves a law that one kind of call breaks: when good
calls preserve the invariant and every other call falsifies the law at once,
the law holds throughout a run exactly when each of its calls is good in the
state in which it is made.  `Run.everywhere_iff` is the same rule for a
contract of single calls in the place of a law of states.
-/

namespace Run

variable {State Call : Type*}

/-- Every call of the list is allowed in the state that it is made in. -/
def Everywhere (step : State -> Call -> State) (allowed : State -> Call -> Prop) :
    State -> List Call -> Prop
  | _, [] => True
  | state, call :: rest => allowed state call ∧ Everywhere step allowed (step state call) rest

/-- The law holds in the first state and after every call. -/
def Throughout (step : State -> Call -> State) (law : State -> Prop) : State -> List Call -> Prop
  | state, [] => law state
  | state, call :: rest => law state ∧ Throughout step law (step state call) rest

variable {step : State -> Call -> State} {allowed good : State -> Call -> Prop}
  {law invariant : State -> Prop}

theorem Throughout.first {state : State} {calls : List Call}
    (holds : Throughout step law state calls) : law state := by
  cases calls with
  | nil => exact holds
  | cons call rest => exact holds.1

/-- The law holds in the last state. -/
theorem Throughout.last {state : State} {calls : List Call} (holds : Throughout step law state calls) :
    law (calls.foldl step state) := by
  induction calls generalizing state with
  | nil => exact holds
  | cons call rest inductionHypothesis => exact inductionHypothesis holds.2

theorem Everywhere.imp {state : State} {calls : List Call} (legal : Everywhere step allowed state calls)
    (implies : forall state call, allowed state call -> good state call) : Everywhere step good state calls := by
  induction calls generalizing state with
  | nil => trivial
  | cons call rest inductionHypothesis =>
      exact ⟨implies state call legal.1, inductionHypothesis legal.2⟩

/-- An invariant that every allowed call preserves carries the law through
the whole run. -/
theorem throughout_of_invariant
    (lawful : forall state, invariant state -> law state)
    (preserved : forall state call, invariant state -> allowed state call ->
      invariant (step state call))
    (state : State) (calls : List Call) (start : invariant state)
    (legal : Everywhere step allowed state calls) : Throughout step law state calls := by
  induction calls generalizing state with
  | nil => exact lawful state start
  | cons call rest inductionHypothesis =>
      exact ⟨lawful state start,
        inductionHypothesis (step state call) (preserved state call start legal.1) legal.2⟩

/-- What every allowed call meets under an invariant, all calls of a legal run meet. -/
theorem everywhere_of_invariant
    (met : forall state call, invariant state -> allowed state call -> good state call)
    (preserved : forall state call, invariant state -> allowed state call -> invariant (step state call))
    (state : State) (calls : List Call) (start : invariant state)
    (legal : Everywhere step allowed state calls) : Everywhere step good state calls := by
  induction calls generalizing state with
  | nil => trivial
  | cons call rest inductionHypothesis =>
      exact ⟨met state call start legal.1,
        inductionHypothesis (step state call) (preserved state call start legal.1) legal.2⟩

/-- The exact condition: a law that good calls preserve and that any other
allowed call falsifies holds throughout a legal run exactly when each call of
the run is good. -/
theorem throughout_iff
    (lawful : forall state, invariant state -> law state)
    (preserved : forall state call, invariant state -> allowed state call -> good state call ->
      invariant (step state call))
    (broken : forall state call, invariant state -> allowed state call -> ¬ good state call ->
      ¬ law (step state call))
    (state : State) (calls : List Call) (start : invariant state)
    (legal : Everywhere step allowed state calls) :
    Throughout step law state calls ↔ Everywhere step good state calls := by
  induction calls generalizing state with
  | nil => exact ⟨fun _ => trivial, fun _ => lawful state start⟩
  | cons call rest inductionHypothesis =>
      constructor
      · rintro ⟨_, later⟩
        have isGood : good state call := by
          by_contra bad
          exact broken state call start legal.1 bad later.first
        exact ⟨isGood, (inductionHypothesis (step state call)
          (preserved state call start legal.1 isGood) legal.2).mp later⟩
      · rintro ⟨isGood, later⟩
        exact ⟨lawful state start, (inductionHypothesis (step state call)
          (preserved state call start legal.1 isGood) legal.2).mpr later⟩

/-- A contract that a call meets exactly when it is good is met by all calls of
a run exactly when all of them are good. -/
theorem everywhere_iff {contract : State -> Call -> Prop}
    (preserved : forall state call, invariant state -> good state call -> invariant (step state call))
    (characterized : forall state call, invariant state -> (contract state call ↔ good state call))
    (state : State) (calls : List Call) (start : invariant state) :
    Everywhere step contract state calls ↔ Everywhere step good state calls := by
  induction calls generalizing state with
  | nil => exact Iff.rfl
  | cons call rest inductionHypothesis =>
      constructor
      · rintro ⟨met, later⟩
        have isGood := (characterized state call start).mp met
        exact ⟨isGood, (inductionHypothesis _ (preserved state call start isGood)).mp later⟩
      · rintro ⟨isGood, later⟩
        exact ⟨(characterized state call start).mpr isGood,
          (inductionHypothesis _ (preserved state call start isGood)).mpr later⟩

theorem everywhere_true (state : State) (calls : List Call) : Everywhere step (fun _ _ => True) state calls := by
  induction calls generalizing state with
  | nil => trivial
  | cons call rest inductionHypothesis => exact ⟨trivial, inductionHypothesis (step state call)⟩

/-- A condition on a part of the state that runs on its own. -/
theorem everywhere_part {Part : Type*} {part : State -> Part} {stepPart : Part -> Call -> Part}
    (runs : forall state call, part (step state call) = stepPart (part state) call) (allowedPart : Part -> Call -> Prop)
    (state : State) (calls : List Call) :
    Everywhere step (fun state call => allowedPart (part state) call) state calls ↔
      Everywhere stepPart allowedPart (part state) calls := by
  induction calls generalizing state with
  | nil => exact Iff.rfl
  | cons call rest inductionHypothesis =>
      refine and_congr Iff.rfl ?_
      rw [← runs]
      exact inductionHypothesis (step state call)

/-- The calls are served one after the other, each from the state that the one
before it left. -/
def InTurn (served : State -> Call -> State -> Prop) : State -> List Call -> Prop
  | _, [] => True
  | state, call :: rest => exists next, served state call next ∧ InTurn served next rest

/-- Calls of which each can be served are all served. -/
theorem inTurn_of_each {served : State -> Call -> State -> Prop} {legal : Call -> Prop} (invariant : State -> Prop)
    (serve : forall state call, invariant state -> legal call -> exists next, served state call next ∧ invariant next)
    (state : State) (calls : List Call) (start : invariant state) (each : forall call, call ∈ calls -> legal call) :
    InTurn served state calls := by
  induction calls generalizing state with
  | nil => trivial
  | cons call rest inductionHypothesis =>
      rcases serve state call start (each call List.mem_cons_self) with ⟨next, isServed, kept⟩
      exact ⟨next, isServed, inductionHypothesis next kept fun other member => each other (List.mem_cons_of_mem call member)⟩

/-- When only such calls are served, the calls are all served exactly when each
of them can be. -/
theorem inTurn_iff {served : State -> Call -> State -> Prop} {legal possible : Call -> Prop}
    (invariant : State -> Prop)
    (serve : forall state call, invariant state -> legal call -> possible call -> exists next, served state call next)
    (only : forall state call next, invariant state -> legal call -> served state call next ->
      possible call ∧ invariant next)
    (state : State) (calls : List Call) (start : invariant state) (each : forall call, call ∈ calls -> legal call) :
    InTurn served state calls ↔ forall call, call ∈ calls -> possible call := by
  constructor
  · intro inTurn
    induction calls generalizing state with
    | nil => exact fun call member => absurd member List.not_mem_nil
    | cons call rest inductionHypothesis =>
        rcases inTurn with ⟨next, isServed, later⟩
        have first := only state call next start (each call List.mem_cons_self) isServed
        intro other member
        cases List.mem_cons.mp member with
        | inl same => exact same ▸ first.1
        | inr member =>
            exact inductionHypothesis next first.2 (fun other member => each other (List.mem_cons_of_mem call member)) later
              other member
  · intro possible
    refine inTurn_of_each invariant (fun state call start both => ?_) state calls start
      fun call member => And.intro (each call member) (possible call member)
    rcases serve state call start both.1 both.2 with ⟨next, isServed⟩
    exact ⟨next, isServed, (only state call next start both.1 isServed).2⟩

end Run

end Library
end LarvaOS
