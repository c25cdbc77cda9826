import LarvaOS.Interrupt.Dispatch
import LarvaOS.Syscall.SyscallWrapper

namespace LarvaOS
namespace Interrupt

open Library Memory Syscall Tasks X86

/-!
# Interrupts of a program

Whatever interrupts a program but a system call goes to `no_interrupt`, which ends the
interrupt at the controller and takes all registers back.  The program goes on as if
nothing had happened.

Two kinds of interrupts never come back so.  The handler of vector 0 is a function, and
returns by `ret`: the processor goes on with the program in ring 0.  And the error code
that some exceptions push is taken for the address to return to.
-/

/-! ## The quiet handler -/

/-- What has been sent to ports. -/
abbrev PortWrites := List (BitVec 16 × Byte)

/-- `no_interrupt_handler`: the end of the interrupt for the first controller. -/
def noInterruptHandler (writes : PortWrites) : PortWrites := writes ++ [(0x20#16, 0x20#8)]

/-- `no_interrupt`, up to its `iret`, for the address behind the call. -/
def noInterrupt (returnAddress : Word) : List HandlerInstr := [.pushad, .callRoutine returnAddress, .popad]

/-- The compiled functions, and the address behind the call. -/
structure QuietBuild where
  routine : Machine PortWrites -> Option (Machine PortWrites)
  returnAddress : Word
  idtDivideByZero : Machine PortWrites -> Option (Machine PortWrites)

/-- The compiled `no_interrupt_handler` keeps to the calling convention.  Above it lie the
registers, the frame and an error code. -/
structure QuietBuild.Correct (quiet : QuietBuild) : Prop where
  returns : forall entered, exists left, quiet.routine entered = some left ∧ Returned 0 14 entered.cpu left.cpu ∧
    left.cpu.segments = entered.cpu.segments ∧ left.state = noInterruptHandler entered.state

/-- The handler leaves the processor as it was, up to its stack below the words on top. -/
structure LeavesAlone (entered : Cpu) (words : List Word) (left : Cpu) : Prop where
  esp : left.regs .esp = entered.regs .esp
  regs : forall reg, reg ≠ .esp -> left.regs reg = entered.regs reg
  segments : left.segments = entered.segments
  stacked : Stacked left.memory (left.regs .esp) words

/-- An interrupt, and what the program stored to its page before. -/
structure Event where
  program : Program
  stores : Nat -> Option Byte
  vector : Nat
  software : Bool
  errorCode : Word

/-- What interrupts change. -/
structure Attended where
  served : Served
  writes : PortWrites

/-- A program in ring 3, and nobody has stored over the tables. -/
structure Event.Legal (linked : Linked) (tables : X86.Memory) (event : Event) : Prop where
  vector : event.vector < 256
  cs : event.program.cs &&& 3#32 = 3#32
  ss : event.program.ss &&& 3#32 = 3#32
  selectors : event.program.cs ≠ event.program.ss
  tables : TablesKept linked tables event.program.cpu.memory

/-- The processor at the first instruction of the handler. -/
def Event.arrival (event : Event) : Cpu :=
  let entered := event.program.interrupt kernelStack
  if pushesErrorCode event.vector event.software then entered.push event.errorCode else entered

/-- How the handler is left.  The function for vector 0 returns to the word on top of
the stack. -/
def QuietBuild.handler (quiet : QuietBuild) (statusFlags : Word -> Word -> Word) (vector : Nat)
    (arrived : Machine PortWrites) : Option (Exit × Machine PortWrites) :=
  if vector = DIVIDE_BY_ZERO_INTERRUPT_NUMBER then
    (quiet.idtDivideByZero arrived).map fun left => (.near (arrived.cpu.stack 0), left)
  else Machine.handle statusFlags quiet.routine (noInterrupt quiet.returnAddress) arrived

/-- The program goes on as if it had not been interrupted. -/
structure Resumed (program : Program) (exit : Exit) (cpu : Cpu) : Prop where
  exit : exit = .iretd program.ip program.cs program.cpu.flags (program.cpu.regs .esp) program.ss
  regs : forall reg, reg ≠ .esp -> cpu.regs reg = program.cpu.regs reg
  segments : cpu.segments = program.cpu.segments

/-- An interrupt that is ended and forgotten. -/
structure Passes (build : Build) (quiet : QuietBuild) (slot : Nat) (state : Attended) (event : Event) (next : Attended) :
    Prop where
  resumes : exists exit cpu,
    quiet.handler build.statusFlags event.vector ⟨event.arrival, state.writes⟩ = some (exit, ⟨cpu, next.writes⟩) ∧
      Resumed event.program exit cpu
  writes : next.writes = state.writes ++ [(0x20#16, 0x20#8)]
  served : next.served = ⟨storeProgram state.served.kernel slot event.stores, state.served.table⟩

section Attending

variable {linked : Linked} {tables : X86.Memory} {registers : TableRegisters} {build : Build} {quiet : QuietBuild}
  {slot : Nat} {kernelBlocks : SpaceBlocks} {blocks : Nat -> ProcessBlocks} {state : Attended} {event : Event}
  (runs : Runs state.served.kernel slot kernelBlocks blocks) (legal : event.Legal linked tables)
include runs legal

end Attending

end Interrupt
end LarvaOS
