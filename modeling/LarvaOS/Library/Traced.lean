import Mathlib.Logic.Function.Basic

namespace LarvaOS
namespace Library

/-!
# Computations that tell what they do

A computation is instrumented by a list of events beside its value, such as the accesses
that it makes.  The events are told where they happen, and the value without them is that
of the computation itself.  What every event meets is proved along the computation.
-/

/-- A value, and the events on the way to it. -/
structure Traced (Event Value : Type*) where
  value : Value
  events : List Event

namespace Traced

variable {Event Value Result : Type*}

/-- A value without an event. -/
def silent (value : Value) : Traced Event Value := ⟨value, []⟩

/-- A value that is got by one event. -/
def told (event : Event) (value : Value) : Traced Event Value := ⟨value, [event]⟩

def map (convert : Value -> Result) (first : Traced Event Value) : Traced Event Result :=
  ⟨convert first.value, first.events⟩

/-- One computation after the other. -/
def andThen (first : Traced Event Value) (next : Value -> Traced Event Result) : Traced Event Result :=
  ⟨(next first.value).value, first.events ++ (next first.value).events⟩

@[simp] theorem silent_value (value : Value) : (silent value : Traced Event Value).value = value := rfl

@[simp] theorem told_value (event : Event) (value : Value) : (told event value).value = value := rfl

@[simp] theorem map_value (convert : Value -> Result) (first : Traced Event Value) :
    (first.map convert).value = convert first.value := rfl

@[simp] theorem andThen_value (first : Traced Event Value) (next : Value -> Traced Event Result) :
    (first.andThen next).value = (next first.value).value := rfl

@[simp] theorem silent_events (value : Value) : (silent value : Traced Event Value).events = [] := rfl

@[simp] theorem andThen_events (first : Traced Event Value) (next : Value -> Traced Event Result) :
    (first.andThen next).events = first.events ++ (next first.value).events := rfl

@[simp] theorem told_events (event : Event) (value : Value) : (told event value).events = [event] := rfl

@[simp] theorem map_events (convert : Value -> Result) (first : Traced Event Value) :
    (first.map convert).events = first.events := rfl

/-- Every event meets the rule. -/
def Each (rule : Event -> Prop) (first : Traced Event Value) : Prop := forall event, event ∈ first.events -> rule event

variable {rule : Event -> Prop}

theorem each_silent (value : Value) : (silent value).Each rule := fun _ member => nomatch member

theorem each_told {event : Event} (met : rule event) (value : Value) : (told event value).Each rule :=
  fun _ member => List.mem_singleton.mp member ▸ met

theorem Each.map {first : Traced Event Value} (each : first.Each rule) (convert : Value -> Result) :
    (first.map convert).Each rule := each

end Traced

end Library
end LarvaOS
