import LarvaOS.Library.Run
import LarvaOS.Machine.Word

namespace LarvaOS
namespace Syscall

open Library

/-!
# System calls

A handler is registered under a number, and user code calls it by that number
from `eax`.  The table of handlers is an array of 100 pointers.  Its memory is
modelled together with the words around it, and every access to a slot is
noted, so that an access outside the array can be seen.

The abstract registry is a partial map from the 100 numbers to handlers.  The
bounds checks of both functions let the number 100 through; every other number
behaves as in the registry.
-/

def MAXIMUM_NUMBER_OF_SYSCALL_ARGS : Nat := 5
def MAXIMUM_NUMBER_OF_SYSCALLS : Int := 100

/-- `class sys_args`. -/
structure SysArgs where
  retReg : Fin MAXIMUM_NUMBER_OF_SYSCALL_ARGS -> Word

/-- `class syscalls`.  Slots 0 to 99 of `calls` are the array `_calls`, and the
other indexes are the words around it.  `touched` lists the slots that were
read or written; no function looks at it. -/
structure Syscalls where
  calls : Int -> Word
  touched : List Int

/-- The static instance, which is zero when the kernel starts.  Nothing is
known about the memory around it. -/
def getInstance (around : Int -> Word) : Syscalls where
  calls := fun slot => if 0 ≤ slot ∧ slot < MAXIMUM_NUMBER_OF_SYSCALLS then 0#32 else around slot
  touched := []

/-- The value of `_calls[num]`. -/
def Syscalls.readSlot (this : Syscalls) (num : Int) : Word × Syscalls :=
  (this.calls num, { this with touched := num :: this.touched })

/-- A store to `_calls[num]`. -/
def Syscalls.writeSlot (this : Syscalls) (num : Int) (h : Word) : Syscalls where
  calls := Function.update this.calls num h
  touched := num :: this.touched

theorem getInstance_calls (around : Int -> Word) {num : Int}
    (inside : 0 ≤ num ∧ num < MAXIMUM_NUMBER_OF_SYSCALLS) : (getInstance around).calls num = 0#32 := if_pos inside

@[simp] theorem Syscalls.writeSlot_calls (this : Syscalls) (num : Int) (h : Word) :
    (this.writeSlot num h).calls = Function.update this.calls num h := rfl

/-- How a call of `add` ends.  A panic prints a message and loops forever. -/
inductive Ending where
  | returned
  | panic (msg : String)
deriving DecidableEq

/-- `syscalls::add`. -/
def Syscalls.add (this : Syscalls) (num : Int) (h : Word) : Ending × Syscalls :=
  if num < 0 ∨ num > MAXIMUM_NUMBER_OF_SYSCALLS then
    (.panic "The syscall number is out of bounds.", this)
  else
    let found := this.readSlot num
    if found.1 ≠ 0#32 then (.panic "Handler of the syscall number is existing.", found.2)
    else (.returned, found.2.writeSlot num h)

/-- What a system call comes to: a null pointer, or a jump to a handler. -/
inductive Answer where
  | nullptr
  | invoked (handler : Word) (args : SysArgs)

/-- `syscalls::call`. -/
def Syscalls.call (this : Syscalls) (num : Int) (args : SysArgs) : Answer × Syscalls :=
  if num < 0 ∨ num > MAXIMUM_NUMBER_OF_SYSCALLS then (.nullptr, this)
  else
    let found := this.readSlot num
    if found.1 ≠ 0#32 then
      let handler := found.2.readSlot num
      (.invoked handler.1 args, handler.2)
    else (.nullptr, found.2)

/-! ## The registry -/

/-- The handler that is registered under each number. -/
abbrev Registry := Int -> Option Word

/-- The numbers that have a slot. -/
def Numbered (num : Int) : Prop := 0 ≤ num ∧ num < MAXIMUM_NUMBER_OF_SYSCALLS

instance (num : Int) : Decidable (Numbered num) := inferInstanceAs (Decidable (_ ∧ _))

/-- A registration succeeds under a free number.  A null pointer registers
nothing. -/
def Registry.add (registry : Registry) (num : Int) (h : Word) : Ending × Registry :=
  if ¬ Numbered num then (.panic "The syscall number is out of bounds.", registry)
  else if (registry num).isSome then (.panic "Handler of the syscall number is existing.", registry)
  else (.returned, Function.update registry num (if h = 0#32 then none else some h))

def Registry.call (registry : Registry) (num : Int) (args : SysArgs) : Answer :=
  match registry num with
  | some handler => .invoked handler args
  | none => .nullptr

/-- The table holds the registry, and so far only its slots were touched. -/
structure Implements (this : Syscalls) (registry : Registry) : Prop where
  slots : forall num, Numbered num -> registry num = if this.calls num = 0#32 then none else some (this.calls num)
  others : forall num, ¬ Numbered num -> registry num = none
  inside : forall num, num ∈ this.touched -> Numbered num

theorem getInstance_implements (around : Int -> Word) : Implements (getInstance around) fun _ => none where
  slots := by
    intro num numbered
    rw [getInstance_calls around numbered, if_pos rfl]
  others := fun _ _ => rfl
  inside := fun _ touched => absurd touched List.not_mem_nil

namespace Implements

variable {this : Syscalls} {registry : Registry}

theorem readSlot (implements : Implements this registry) {num : Int} (numbered : Numbered num) :
    Implements (this.readSlot num).2 registry where
  slots := implements.slots
  others := implements.others
  inside := by
    intro other touched
    rcases List.mem_cons.mp touched with same | earlier
    · exact same ▸ numbered
    · exact implements.inside other earlier

theorem writeSlot (implements : Implements this registry) {num : Int} (numbered : Numbered num) (h : Word) :
    Implements (this.writeSlot num h) (Function.update registry num (if h = 0#32 then none else some h)) where
  slots := by
    intro other otherNumbered
    rw [Syscalls.writeSlot_calls]
    by_cases same : other = num
    · rw [same, Function.update_self, Function.update_self]
    · rw [Function.update_of_ne same, Function.update_of_ne same]
      exact implements.slots other otherNumbered
  others := by
    intro other notNumbered
    have different : other ≠ num := fun same => notNumbered (same ▸ numbered)
    rw [Function.update_of_ne different]
    exact implements.others other notNumbered
  inside := (implements.readSlot numbered).inside

theorem isSome_iff (implements : Implements this registry) {num : Int} (numbered : Numbered num) :
    (registry num).isSome ↔ this.calls num ≠ 0#32 := by
  rw [implements.slots num numbered]
  by_cases empty : this.calls num = 0#32
  · simp [empty]
  · simp [empty]

theorem add (implements : Implements this registry) {num : Int} (notBoundary : num ≠ MAXIMUM_NUMBER_OF_SYSCALLS)
    (h : Word) :
    (this.add num h).1 = (registry.add num h).1 ∧ Implements (this.add num h).2 (registry.add num h).2 := by
  unfold Syscalls.add Registry.add
  by_cases numbered : Numbered num
  · have accepted : ¬ (num < 0 ∨ num > MAXIMUM_NUMBER_OF_SYSCALLS) := by
      unfold Numbered at numbered
      omega
    rw [if_neg accepted, if_neg (not_not.mpr numbered)]
    by_cases taken : this.calls num = 0#32
    · have free : ¬ (registry num).isSome := fun some => (implements.isSome_iff numbered).mp some taken
      rw [if_neg free]
      simp only [Syscalls.readSlot, taken, ne_eq, not_true_eq_false, if_false]
      exact ⟨trivial, (implements.readSlot numbered).writeSlot numbered h⟩
    · rw [if_pos ((implements.isSome_iff numbered).mpr taken)]
      simp only [Syscalls.readSlot, ne_eq, taken, not_false_eq_true, if_true]
      exact ⟨trivial, implements.readSlot numbered⟩
  · have refused : num < 0 ∨ num > MAXIMUM_NUMBER_OF_SYSCALLS := by
      unfold Numbered at numbered
      omega
    rw [if_pos refused, if_pos numbered]
    exact ⟨rfl, implements⟩

theorem call (implements : Implements this registry) {num : Int} (notBoundary : num ≠ MAXIMUM_NUMBER_OF_SYSCALLS)
    (args : SysArgs) :
    (this.call num args).1 = registry.call num args ∧ Implements (this.call num args).2 registry := by
  unfold Syscalls.call Registry.call
  by_cases numbered : Numbered num
  · have accepted : ¬ (num < 0 ∨ num > MAXIMUM_NUMBER_OF_SYSCALLS) := by
      unfold Numbered at numbered
      omega
    rw [if_neg accepted, implements.slots num numbered]
    by_cases empty : this.calls num = 0#32
    · simp only [Syscalls.readSlot, empty, ne_eq, not_true_eq_false, if_false, if_true]
      exact ⟨trivial, implements.readSlot numbered⟩
    · simp only [Syscalls.readSlot, ne_eq, empty, not_false_eq_true, if_true, if_false]
      exact ⟨trivial, (implements.readSlot numbered).readSlot numbered⟩
  · have refused : num < 0 ∨ num > MAXIMUM_NUMBER_OF_SYSCALLS := by
      unfold Numbered at numbered
      omega
    rw [if_pos refused, implements.others num numbered]
    exact ⟨rfl, implements⟩

end Implements

/-! ## Runs -/

inductive Request where
  | add (num : Int) (h : Word)
  | call (num : Int) (args : SysArgs)

def Request.num : Request -> Int
  | .add num _ => num
  | .call num _ => num

/-- The table, the registry that should describe it, and whether the kernel
has panicked. -/
structure Session where
  table : Syscalls
  registry : Registry
  halted : Bool

def Session.start (around : Int -> Word) : Session := ⟨getInstance around, fun _ => none, false⟩

/-- The effect of one request.  A kernel that has panicked serves no more. -/
def Session.step (session : Session) (request : Request) : Session :=
  if session.halted then session
  else
    match request with
    | .add num h =>
        { table := (session.table.add num h).2
          registry := (session.registry.add num h).2
          halted := (session.table.add num h).1 ≠ .returned }
    | .call num args => { session with table := (session.table.call num args).2 }

/-- A request ends as it does in the registry, and touches no word outside the
array. -/
def Session.Served (session : Session) (request : Request) : Prop :=
  session.halted ∨
    ((forall num, num ∈ (session.step request).table.touched -> Numbered num) ∧
      match request with
      | .add num h => (session.table.add num h).1 = (session.registry.add num h).1
      | .call num args => (session.table.call num args).1 = session.registry.call num args)

/-- The request is not made, or is not made under the number 100. -/
def Session.OffBoundary (session : Session) (request : Request) : Prop :=
  session.halted ∨ request.num ≠ MAXIMUM_NUMBER_OF_SYSCALLS

def Session.Invariant (session : Session) : Prop :=
  session.halted ∨ Implements session.table session.registry

theorem Session.step_running {session : Session} (running : ¬ session.halted = true) (request : Request) :
    session.step request =
      match request with
      | .add num h =>
          { table := (session.table.add num h).2
            registry := (session.registry.add num h).2
            halted := (session.table.add num h).1 ≠ .returned }
      | .call num args => { session with table := (session.table.call num args).2 } := by
  unfold step
  rw [if_neg running]

theorem Session.invariant_step (session : Session) (request : Request) (invariant : session.Invariant)
    (offBoundary : session.OffBoundary request) : (session.step request).Invariant := by
  by_cases halted : session.halted = true
  · left
    unfold step
    rw [if_pos halted]
    exact halted
  · right
    have implements := invariant.resolve_left halted
    have notBoundary := offBoundary.resolve_left halted
    rw [session.step_running halted]
    cases request with
    | add num h => exact (implements.add notBoundary h).2
    | call num args => exact (implements.call notBoundary args).2

/-- A request under the number 100 reads the word after the array. -/
theorem Session.boundary_touched (session : Session) (running : ¬ session.halted = true) (request : Request)
    (boundary : request.num = MAXIMUM_NUMBER_OF_SYSCALLS) :
    MAXIMUM_NUMBER_OF_SYSCALLS ∈ (session.step request).table.touched := by
  have accepted : ¬ (MAXIMUM_NUMBER_OF_SYSCALLS < 0 ∨ MAXIMUM_NUMBER_OF_SYSCALLS > MAXIMUM_NUMBER_OF_SYSCALLS) := by
    decide
  rw [session.step_running running]
  cases request with
  | add num h =>
      obtain rfl : num = MAXIMUM_NUMBER_OF_SYSCALLS := boundary
      simp only [Syscalls.add, accepted, if_false]
      by_cases taken : session.table.calls MAXIMUM_NUMBER_OF_SYSCALLS = 0#32
      · simp [Syscalls.readSlot, Syscalls.writeSlot, taken]
      · simp [Syscalls.readSlot, taken]
  | call num args =>
      obtain rfl : num = MAXIMUM_NUMBER_OF_SYSCALLS := boundary
      simp only [Syscalls.call, accepted, if_false]
      by_cases empty : session.table.calls MAXIMUM_NUMBER_OF_SYSCALLS = 0#32
      · simp [Syscalls.readSlot, empty]
      · simp [Syscalls.readSlot, empty]

theorem Session.served_iff (session : Session) (request : Request) (invariant : session.Invariant) :
    session.Served request ↔ session.OffBoundary request := by
  unfold Served OffBoundary
  by_cases halted : session.halted = true
  · simp only [halted, true_or]
  · have implements := invariant.resolve_left halted
    simp only [halted, Bool.false_eq_true, false_or]
    constructor
    · rintro ⟨inside, _⟩ boundary
      exact absurd (inside _ (session.boundary_touched halted request boundary)) (by decide)
    · intro notBoundary
      have after := (session.invariant_step request invariant (Or.inr notBoundary))
      rw [session.step_running halted] at after ⊢
      cases request with
      | add num h => exact ⟨(implements.add notBoundary h).2.inside, (implements.add notBoundary h).1⟩
      | call num args => exact ⟨(implements.call notBoundary args).2.inside, (implements.call notBoundary args).1⟩

/-- From a new table, all requests of a run are served as in the registry and
stay inside the array exactly when none is made under the number 100. -/
theorem served_iff_offBoundary (around : Int -> Word) (requests : List Request) :
    Run.Everywhere Session.step Session.Served (Session.start around) requests ↔
      Run.Everywhere Session.step Session.OffBoundary (Session.start around) requests :=
  Run.everywhere_iff Session.invariant_step Session.served_iff (Session.start around) requests
    (Or.inr (getInstance_implements around))

/-- A first system call with 100 in `eax` jumps to whatever word follows the
array. -/
theorem call_100_not_served :
    ¬ Run.Everywhere Session.step Session.Served (Session.start fun _ => 0xDEADBEEF#32)
      [.call 100 ⟨fun _ => 0#32⟩] := by
  rintro ⟨served, _⟩
  have notBoundary := (Session.served_iff _ (.call 100 ⟨fun _ => 0#32⟩)
    (Or.inr (getInstance_implements fun _ => 0xDEADBEEF#32))).mp served
  rcases notBoundary with halted | different
  · exact absurd halted (by decide)
  · exact different rfl

end Syscall
end LarvaOS
