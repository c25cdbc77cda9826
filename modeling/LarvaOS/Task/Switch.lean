import LarvaOS.Library.X86
import LarvaOS.Task.Task

namespace LarvaOS
namespace Tasks

open Library.X86

/-!
# Leaving the kernel

`task_save_state` copies the frame of an interrupt into the registers of a task.
`task_return` is to load these registers and to return from the interrupt.

The source ends it with `ireqd`, which is no instruction, and stands as a label.
The processor goes on into `restore_general_purpose_registers` and leaves by its
`ret`, to the address of the task but in ring 0.
-/

/-- `struct interrupt_frame`. -/
structure InterruptFrame where
  edi : Word
  esi : Word
  ebp : Word
  reserved : Word
  ebx : Word
  edx : Word
  ecx : Word
  eax : Word
  ip : Word
  cs : Word
  flags : Word
  esp : Word
  ss : Word

/-- The registers that a frame holds. -/
def InterruptFrame.registers (frame : InterruptFrame) : Registers where
  edi := frame.edi
  esi := frame.esi
  ebp := frame.ebp
  ebx := frame.ebx
  edx := frame.edx
  ecx := frame.ecx
  eax := frame.eax
  ip := frame.ip
  cs := frame.cs
  flags := frame.flags
  esp := frame.esp
  ss := frame.ss

/-- `task_save_state`. -/
def taskSaveState (kernel : Kernel) (task : Word) (frame : InterruptFrame) : Kernel :=
  modifyTask kernel task ({ · with registers := frame.registers })

/-- The words of `struct registers`, in order. -/
def registerWords (registers : Registers) : List Word :=
  [registers.edi, registers.esi, registers.ebp, registers.ebx, registers.edx, registers.ecx, registers.eax,
    registers.ip, registers.cs, registers.flags, registers.esp, registers.ss]

/-- The memory of the processor holds the registers at an address. -/
def HoldsRegisters (memory : Memory) (regs : Word) (registers : Registers) : Prop :=
  (List.range 12).map (fun index => readWord memory (regs + BitVec.ofNat 32 (4 * index))) = registerWords registers

instance (memory : Memory) (regs : Word) (registers : Registers) : Decidable (HoldsRegisters memory regs registers) :=
  inferInstanceAs (Decidable (_ = _))

/-- `restore_general_purpose_registers`. -/
def restoreGeneralPurposeRegisters : List Instr :=
  [.pushReg .ebp,
    .movReg .ebp .esp,
    .movMem .ebx .ebp 8#32,
    .movMem .edi .ebx 0#32,
    .movMem .esi .ebx 4#32,
    .movMem .ebp .ebx 8#32,
    .movMem .edx .ebx 16#32,
    .movMem .ecx .ebx 20#32,
    .movMem .eax .ebx 24#32,
    .movMem .ebx .ebx 12#32,
    .addImm .esp 4#32,
    .ret]

/-- `task_return`, for the index at which the routine that it calls begins. -/
def taskReturnInstrs (restore : Nat) : List Instr :=
  [.movReg .ebp .esp,
    .movMem .ebx .ebp 4#32,
    .pushMem .ebx 44#32,
    .pushMem .ebx 40#32,
    .pushf,
    .popReg .eax,
    .orImm .eax 0x200#32,
    .pushReg .eax,
    .pushMem .ebx 32#32,
    .pushMem .ebx 28#32,
    .movAxMem .ebx 44#32,
    .movSeg .ds,
    .movSeg .es,
    .movSeg .fs,
    .movSeg .gs,
    .pushMem .ebp 4#32,
    .call restore,
    .addImm .esp 4#32,
    .label "ireqd"]

/-- `task_return` as it lies in memory, before the routine that it calls. -/
def taskReturn (address : Nat -> Word) (statusFlags : Word -> Word -> Word) : Routine where
  instrs := taskReturnInstrs (taskReturnInstrs 0).length ++ restoreGeneralPurposeRegisters
  address := address
  statusFlags := statusFlags

/-- A call of `task_return` leaves the kernel by one `iretd` that resumes the
task as the frame found it, with interrupts enabled. -/
def Resumes (routine : Routine) (cpu : Cpu) (frame : InterruptFrame) : Prop :=
  exists steps resumed,
    run routine steps 0 cpu =
      some (.iretd frame.ip frame.cs (frame.flags ||| 0x200#32) frame.esp frame.ss, resumed) ∧
      resumed.regs .edi = frame.edi ∧ resumed.regs .esi = frame.esi ∧ resumed.regs .ebp = frame.ebp ∧
      resumed.regs .ebx = frame.ebx ∧ resumed.regs .edx = frame.edx ∧ resumed.regs .ecx = frame.ecx ∧
      resumed.regs .eax = frame.eax

theorem taskReturn_noInterruptReturn (address : Nat -> Word) (statusFlags : Word -> Word -> Word) :
    NoInterruptReturn (taskReturn address statusFlags) := by
  unfold NoInterruptReturn taskReturn taskReturnInstrs restoreGeneralPurposeRegisters
  simp only [List.mem_append, List.mem_cons, List.not_mem_nil, reduceCtorEq, or_false, not_false_eq_true]

/-- Wherever the routine lies, however arithmetic sets the flags, and whatever
state the processor is in: no frame is resumed. -/
theorem taskReturn_never_resumes (address : Nat -> Word) (statusFlags : Word -> Word -> Word) (cpu : Cpu)
    (frame : InterruptFrame) : ¬ Resumes (taskReturn address statusFlags) cpu frame := by
  rintro ⟨steps, resumed, leaves, _⟩
  exact run_near (taskReturn_noInterruptReturn address statusFlags) steps 0 cpu leaves

/-- Words stored one after the other. -/
def storeWords (memory : Memory) (address : Word) : List Word -> Memory
  | [] => memory
  | word :: rest => storeWords (writeWord memory address word) (address + 4#32) rest

/-- A frame of a program that runs at the beginning of its image. -/
abbrev loopFrame : InterruptFrame :=
  ⟨1#32, 2#32, 3#32, 0#32, 4#32, 5#32, 6#32, 7#32, 0x400010#32, 0x1B#32, 0x202#32, 0x3FF000#32, 0x23#32⟩

/-- The processor in a call of `task_return` with the registers at `0x300000`. -/
abbrev loopCpu : Cpu where
  regs := Function.update (fun _ => 0#32) .esp 0x200000#32
  segments := fun _ => 0x10#16
  flags := 0x2#32
  memory := storeWords (storeWords (fun _ => 0#8) 0x200000#32 [0x100000#32, 0x300000#32]) 0x300000#32
    (registerWords loopFrame.registers)

/-- The registers of the task are the ones that were saved, and the call returns
near to the program, which goes on in ring 0. -/
theorem taskReturn_fails_loop :
    let kernel := Kernel.loaded Store.blank (fun _ _ => 0#8) fun _ => 0#8
    let routine := taskReturn (fun index => 0x100000#32 + BitVec.ofNat 32 (4 * index)) fun flags _ => flags
    HoldsRegisters loopCpu.memory 0x300000#32 ((taskSaveState kernel 0x1000#32 loopFrame).tasks 0x1000#32).registers ∧
      loopCpu.operand .esp 4#32 = 0x300000#32 ∧
      (run routine 50 0 loopCpu).map Prod.fst = some (.near loopFrame.ip) ∧
      ¬ Resumes routine loopCpu loopFrame := by
  refine ⟨by decide, by decide, by decide, ?_⟩
  rintro ⟨steps, resumed, leaves, _⟩
  exact run_near (taskReturn_noInterruptReturn _ _) steps 0 loopCpu leaves

end Tasks
end LarvaOS
