import LarvaOS.Library.X86Stack
import LarvaOS.Syscall.SyscallHandler

namespace LarvaOS
namespace Syscall

open Fs Library Memory Tasks X86

/-!
# System calls

A program in ring 3 executes `int 0x80`.  The wrapper completes the frame of the
interrupt, calls the handler with it, keeps the result in `res` while it takes the
registers back, and returns from the interrupt.

The compiled handler is a parameter.  It does what the source says and keeps to the
calling convention.  The stack of the kernel lies where all address spaces show the
same memory.
-/

/-- What the handler works on besides the processor. -/
structure Served where
  kernel : Kernel
  table : Syscalls

/-- `syscall_wrapper`, up to its `iretd`, for the address of `res` and the address
behind the call. -/
def syscallWrapper (res returnAddress : Word) : List HandlerInstr :=
  [.pushad,
    .pushReg .esp,
    .pushReg .eax,
    .callRoutine returnAddress,
    .storeAbs res .eax,
    .addImm .esp 8#32,
    .popad,
    .loadAbs .eax res]

/-- The frame that begins at an address. -/
def frameAt (memory : X86.Memory) (frame : Word) : InterruptFrame where
  edi := readWord memory frame
  esi := readWord memory (frame + 4#32)
  ebp := readWord memory (frame + 8#32)
  reserved := readWord memory (frame + 12#32)
  ebx := readWord memory (frame + 16#32)
  edx := readWord memory (frame + 20#32)
  ecx := readWord memory (frame + 24#32)
  eax := readWord memory (frame + 28#32)
  ip := readWord memory (frame + 32#32)
  cs := readWord memory (frame + 36#32)
  flags := readWord memory (frame + 40#32)
  esp := readWord memory (frame + 44#32)
  ss := readWord memory (frame + 48#32)

/-- What the source makes of a call, with the number and the frame on the stack. -/
def handled (invoke : Invoke) (entered : Machine Served) : Handling :=
  syscallHandler invoke (wordToInt (entered.cpu.stack 1)) (frameAt entered.cpu.memory (entered.cpu.stack 2))
    ⟨entered.state.kernel, entered.cpu.segments .ds, entered.state.table⟩

/-- The compiled handler.  Above its arguments lies the frame. -/
structure Compiled (invoke : Invoke) (routine : Machine Served -> Option (Machine Served)) : Prop where
  returns : forall entered res after, handled invoke entered = .returned res after -> exists left,
    routine entered = some left ∧ Returned 2 13 entered.cpu left.cpu ∧ left.cpu.regs .eax = res ∧
      left.cpu.segments = (fun _ => after.segments) ∧ left.state = ⟨after.kernel, after.table⟩

/-- The words of the frame, from the top of the stack. -/
def frameWords (program : Program) (esp0 : Word) : List Word :=
  [program.cpu.regs .edi, program.cpu.regs .esi, program.cpu.regs .ebp, esp0 - 20#32, program.cpu.regs .ebx,
    program.cpu.regs .edx, program.cpu.regs .ecx, program.cpu.regs .eax, program.ip, program.cs, program.cpu.flags,
    program.cpu.regs .esp, program.ss]

/-- The frame of an interrupted program. -/
def frameOf (program : Program) (esp0 : Word) : InterruptFrame where
  edi := program.cpu.regs .edi
  esi := program.cpu.regs .esi
  ebp := program.cpu.regs .ebp
  reserved := esp0 - 20#32
  ebx := program.cpu.regs .ebx
  edx := program.cpu.regs .edx
  ecx := program.cpu.regs .ecx
  eax := program.cpu.regs .eax
  ip := program.ip
  cs := program.cs
  flags := program.cpu.flags
  esp := program.cpu.regs .esp
  ss := program.ss

/-- The variable `res` does not lie on the frame. -/
def ApartFromFrame (esp0 res : Word) : Prop :=
  forall index, index < 52 -> 4 ≤ (esp0 - 52#32 + BitVec.ofNat 32 index - res).toNat

/-! ## Into the handler -/

theorem stacked_frame {memory : X86.Memory} {address : Word} {program : Program} {esp0 : Word}
    (stacked : Stacked memory address (frameWords program esp0)) : frameAt memory address = frameOf program esp0 := by
  have first := stacked 0 _ rfl
  rw [BitVec.add_zero] at first
  rw [frameAt, first, show readWord memory (address + 4#32) = _ from stacked 1 _ rfl,
    show readWord memory (address + 8#32) = _ from stacked 2 _ rfl,
    show readWord memory (address + 12#32) = _ from stacked 3 _ rfl,
    show readWord memory (address + 16#32) = _ from stacked 4 _ rfl,
    show readWord memory (address + 20#32) = _ from stacked 5 _ rfl,
    show readWord memory (address + 24#32) = _ from stacked 6 _ rfl,
    show readWord memory (address + 28#32) = _ from stacked 7 _ rfl,
    show readWord memory (address + 32#32) = _ from stacked 8 _ rfl,
    show readWord memory (address + 36#32) = _ from stacked 9 _ rfl,
    show readWord memory (address + 40#32) = _ from stacked 10 _ rfl,
    show readWord memory (address + 44#32) = _ from stacked 11 _ rfl,
    show readWord memory (address + 48#32) = _ from stacked 12 _ rfl]
  rfl

/-- The processor when the handler is called. -/
structure AtCall (program : Program) (esp0 : Word) (cpu : Cpu) : Prop where
  esp : cpu.regs .esp = esp0 - 60#32
  stacked : Stacked cpu.memory (esp0 - 60#32) (program.cpu.regs .eax :: (esp0 - 52#32) :: frameWords program esp0)
  regs : forall reg, reg ≠ .esp -> cpu.regs reg = program.cpu.regs reg

/-- What the processor has pushed at the first instruction of the wrapper. -/
theorem interrupt_pushed (program : Program) (esp0 : Word) :
    (program.interrupt esp0).regs .esp = esp0 - 20#32 ∧
      (forall reg, reg ≠ .esp -> (program.interrupt esp0).regs reg = program.cpu.regs reg) ∧
      Stacked (program.interrupt esp0).memory (esp0 - 20#32)
        [program.ip, program.cs, program.cpu.flags, program.cpu.regs .esp, program.ss] := by
  have pushed := @pushAll_pushed (program.cpu.setReg .esp esp0) [] (Stacked.nil _ _) program.frame
    (show 4 * (0 + 5) ≤ 2 ^ 32 by decide)
  have esp := pushed.esp
  have stacked := pushed.stacked
  rw [setReg_self] at esp
  rw [esp] at stacked
  exact ⟨esp, fun reg other => (pushed.regs reg other).trans (setReg_of_ne _ other _), stacked⟩

/-- `pushad` completes the frame. -/
theorem pushad_frame (program : Program) (esp0 : Word) :
    (program.interrupt esp0).pushad.regs .esp = esp0 - 52#32 ∧
      (forall reg, reg ≠ .esp -> (program.interrupt esp0).pushad.regs reg = program.cpu.regs reg) ∧
      Stacked (program.interrupt esp0).pushad.memory (esp0 - 52#32) (frameWords program esp0) := by
  rcases interrupt_pushed program esp0 with ⟨interruptedEsp, interruptedRegs, interruptedStack⟩
  rw [← interruptedEsp] at interruptedStack
  have pushed := @pushAll_pushed _ _ interruptedStack (program.interrupt esp0).general
    (show 4 * (5 + 8) ≤ 2 ^ 32 by decide)
  have size : (program.interrupt esp0).general.length = 8 := rfl
  have esp : (program.interrupt esp0).pushad.regs .esp = esp0 - 52#32 := by
    refine pushed.esp.trans ?_
    rw [interruptedEsp, size]
    bv_omega
  have words : (program.interrupt esp0).general.reverse ++
      [program.ip, program.cs, program.cpu.flags, program.cpu.regs .esp, program.ss] = frameWords program esp0 := by
    simp only [Cpu.general, interruptedEsp, interruptedRegs, ne_eq, reduceCtorEq, not_false_eq_true]
    rfl
  have stacked : Stacked (program.interrupt esp0).pushad.memory ((program.interrupt esp0).pushad.regs .esp) _ :=
    pushed.stacked
  rw [words, esp] at stacked
  exact ⟨esp, fun reg other => (pushed.regs reg other).trans (interruptedRegs reg other), stacked⟩

/-- The interrupt and the first three instructions lead to the call. -/
theorem interrupt_atCall (program : Program) (esp0 : Word) {passed : Cpu}
    (passes : passed = (program.interrupt esp0).pushad.push ((program.interrupt esp0).pushad.regs .esp)) :
    AtCall program esp0 (passed.push (passed.regs .eax)) := by
  rcases pushad_frame program esp0 with ⟨esp, regs, stacked⟩
  have passedEsp : passed.regs .esp = esp0 - 56#32 := by
    rw [passes, push_esp, esp]
    bv_omega
  have passedRegs (reg : Reg) (other : reg ≠ .esp) : passed.regs reg = program.cpu.regs reg := by
    rw [passes, push_regs _ other, regs reg other]
  have first := push_stacked esp stacked (esp0 - 52#32) (show 4 * (13 + 1) ≤ 2 ^ 32 by decide)
  rw [← esp, ← passes, esp, show esp0 - 52#32 - 4#32 = esp0 - 56#32 by bv_omega] at first
  have second := push_stacked passedEsp first (program.cpu.regs .eax) (show 4 * (14 + 1) ≤ 2 ^ 32 by decide)
  rw [show esp0 - 56#32 - 4#32 = esp0 - 60#32 by bv_omega, ← passedRegs .eax (by decide)] at second
  refine ⟨?_, ?_, fun reg other => (push_regs passed other _).trans (passedRegs reg other)⟩
  · rw [push_esp, passedEsp]
    bv_omega
  · rw [← passedRegs .eax (by decide)]
    exact second

/-- The processor at the call. -/
def atCall (program : Program) (esp0 : Word) : Cpu :=
  let saved := (program.interrupt esp0).pushad
  let passed := saved.push (saved.regs .esp)
  passed.push (passed.regs .eax)

theorem atCall_atCall (program : Program) (esp0 : Word) : AtCall program esp0 (atCall program esp0) :=
  interrupt_atCall program esp0 rfl

/-- The processor at the first instruction of the compiled handler. -/
structure AtHandler (program : Program) (esp0 : Word) (cpu : Cpu) : Prop where
  esp : cpu.regs .esp = esp0 - 64#32
  number : cpu.stack 1 = program.cpu.regs .eax
  frame : frameAt cpu.memory (cpu.stack 2) = frameOf program esp0
  stacked : Stacked cpu.memory (esp0 - 52#32) (frameWords program esp0)
  regs : forall reg, reg ≠ .esp -> cpu.regs reg = program.cpu.regs reg

theorem call_atHandler (program : Program) (esp0 returnAddress : Word) :
    AtHandler program esp0 ((atCall program esp0).push returnAddress) := by
  have call := atCall_atCall program esp0
  have stacked := push_stacked call.esp call.stacked returnAddress (show 4 * (15 + 1) ≤ 2 ^ 32 by decide)
  rw [show esp0 - 60#32 - 4#32 = esp0 - 64#32 by bv_omega] at stacked
  have esp : ((atCall program esp0).push returnAddress).regs .esp = esp0 - 64#32 := by
    rw [push_esp, call.esp]
    bv_omega
  have here := stacked
  rw [← esp] at here
  have frame := stacked.drop 3
  rw [show esp0 - 64#32 + BitVec.ofNat 32 (4 * 3) = esp0 - 52#32 by bv_omega] at frame
  have pointer : ((atCall program esp0).push returnAddress).stack 2 = esp0 - 52#32 := here.stack rfl
  refine ⟨esp, here.stack rfl, ?_, frame, fun reg other => (push_regs _ other _).trans (call.regs reg other)⟩
  rw [pointer]
  exact stacked_frame frame

/-! ## Out of the handler -/

/-- The instructions after the call. -/
def afterCall (res : Word) : List HandlerInstr := [.storeAbs res .eax, .addImm .esp 8#32, .popad, .loadAbs .eax res]

theorem wrapper_calls (statusFlags : Word -> Word -> Word) (routine : Machine Served -> Option (Machine Served))
    (res returnAddress : Word) (program : Program) (esp0 : Word) (served : Served) :
    Machine.handle statusFlags routine (syscallWrapper res returnAddress) ⟨program.interrupt esp0, served⟩ =
      (routine ⟨(atCall program esp0).push returnAddress, served⟩).bind
        (Machine.handle statusFlags routine (afterCall res)) := by
  simp only [syscallWrapper, Machine.handle, Machine.execute, Machine.onCpu, Option.bind_some]
  rfl

/-- The program goes on behind the interrupt with the result in `eax`. -/
structure Resumes (program : Program) (result : Word) (exit : Exit) (cpu : Cpu) : Prop where
  exit : exit = .iretd program.ip program.cs program.cpu.flags (program.cpu.regs .esp) program.ss
  eax : cpu.regs .eax = result
  regs : forall reg, reg ≠ .eax -> reg ≠ .esp -> cpu.regs reg = program.cpu.regs reg
  segments : cpu.segments = fun _ => USER_DATA_SEGMENT

/-- The four instructions after the call take the registers back. -/
theorem afterCall_resumes (statusFlags : Word -> Word -> Word) (routine : Machine Served -> Option (Machine Served))
    {program : Program} {esp0 res : Word} (ring3 : program.cs &&& 3#32 ≠ 0#32) (apart : ApartFromFrame esp0 res) {left : Cpu}
    (esp : left.regs .esp = esp0 - 60#32) (stacked : Stacked left.memory (esp0 - 52#32) (frameWords program esp0))
    (segments : left.segments = fun _ => USER_DATA_SEGMENT) (served : Served) :
    exists exit cpu, Machine.handle statusFlags routine (afterCall res) ⟨left, served⟩ = some (exit, ⟨cpu, served⟩) ∧
      Resumes program (left.regs .eax) exit cpu := by
  let stored : Cpu := { left with memory := writeWord left.memory res (left.regs .eax) }
  let dropped : Cpu :=
    { stored.setReg .esp (stored.regs .esp + 8#32) with
      flags := statusFlags stored.flags (stored.regs .esp + 8#32) }
  let loaded := dropped.popad.setReg .eax (readWord dropped.popad.memory res)
  have kept : Stacked dropped.memory (esp0 - 52#32) (frameWords program esp0) :=
    stacked.congr fun index below => if_neg (Nat.not_lt.mpr (apart index below))
  have droppedEsp : dropped.regs .esp = esp0 - 52#32 := by
    refine (setReg_self stored .esp _).trans ?_
    change left.regs .esp + 8#32 = _
    rw [esp]
    bv_omega
  have loadedEsp : loaded.regs .esp = esp0 - 20#32 := by
    refine (setReg_of_ne _ (by decide) _).trans ?_
    change dropped.regs .esp + 32#32 = _
    rw [droppedEsp]
    bv_omega
  have returned : Stacked loaded.memory (loaded.regs .esp)
      [program.ip, program.cs, program.cpu.flags, program.cpu.regs .esp, program.ss] := by
    have above := kept.drop 8
    rw [show esp0 - 52#32 + BitVec.ofNat 32 (4 * 8) = esp0 - 20#32 by bv_omega, ← loadedEsp] at above
    exact above
  have popped {index : Nat} {word : Word} (member : (frameWords program esp0)[index]? = some word) :
      dropped.stack index = word := by
    refine Stacked.stack ?_ member
    rw [droppedEsp]
    exact kept
  refine ⟨interruptReturn loaded, loaded, rfl, ?_, ?_, fun reg notEax notEsp => ?_, segments⟩
  · rw [interruptReturn, returned.stack (show _ = some program.cs from rfl), if_pos ring3, returned.stack rfl,
      returned.stack rfl, returned.stack rfl, returned.stack rfl]
  · exact (setReg_self dropped.popad .eax _).trans (readWord_writeWord_self left.memory res _)
  · refine (setReg_of_ne dropped.popad notEax _).trans ?_
    cases reg with
    | eax => exact absurd rfl notEax
    | esp => exact absurd rfl notEsp
    | edi => exact popped rfl
    | esi => exact popped rfl
    | ebp => exact popped rfl
    | ebx => exact popped rfl
    | edx => exact popped rfl
    | ecx => exact popped rfl

/-! ## System calls of a program -/

/-- `esp0` of the task state segment. -/
def kernelStack : Word := 0x600000#32

/-- A system call, and what the program stored to its page before. -/
structure SystemCall where
  program : Program
  stores : Nat -> Option Byte

/-- The stores of a program. -/
def storeProgram (kernel : Kernel) (slot : Nat) (stores : Nat -> Option Byte) : Kernel :=
  let pointer := (slotProcess kernel slot).physicalPointer
  kernel.withStore
    { kernel.toStore with
      bytes := fun place =>
        if OnProgramPage (slotProcess kernel slot) (PROGRAM_VIRTUAL_ADDRESS + (place - pointer)) then
          (stores (place - pointer).toNat).getD (kernel.bytes place)
        else kernel.bytes place }

/-- How the kernel is compiled: its handlers, the compiled `syscall_handler`, the flags
after an addition, and two addresses. -/
structure Build where
  invoke : Invoke
  routine : Machine Served -> Option (Machine Served)
  statusFlags : Word -> Word -> Word
  res : Word
  returnAddress : Word

/-- What is expected of it. -/
structure Build.Correct (build : Build) : Prop where
  keep : forall handler args kernel, HandlerKeeps kernel (build.invoke handler args kernel).2
  compiled : Compiled build.invoke build.routine
  apart : ApartFromFrame kernelStack build.res

/-- The kernel serves a system call of the program in a slot.  The stack is seen alike
in both address spaces, and the program goes on with what the registered handler
returned for the words on its stack. -/
structure Serves (build : Build) (slot : Nat) (served : Served) (call : SystemCall) (next : Served) : Prop where
  stack : forall index, index < 64 ->
    let address := kernelStack - 64#32 + BitVec.ofNat 32 index
    PageWalk.translate served.kernel.words (served.kernel.words (slotPage served.kernel slot)) address = some address ∧
      PageWalk.translate served.kernel.words (served.kernel.words served.kernel.kernelDirectory) address = some address
  resumes :
    let kernel := storeProgram served.kernel slot call.stores
    let answered := answerFor build.invoke kernel slot (wordToInt (call.program.cpu.regs .eax))
      (frameOf call.program kernelStack) served.table
    exists exit cpu,
      Machine.handle build.statusFlags build.routine (syscallWrapper build.res build.returnAddress)
          ⟨call.program.interrupt kernelStack, ⟨kernel, served.table⟩⟩ = some (exit, ⟨cpu, next⟩) ∧
        Resumes call.program answered.1 exit cpu ∧
        next = ⟨answered.2.loadUserPage.kernel, answered.2.loadUserPage.table⟩

/-- Stores of the program change bytes of its page only. -/
theorem Runs.stored {kernel : Kernel} {slot : Nat} {kernelBlocks : SpaceBlocks} {blocks : Nat -> ProcessBlocks}
    (runs : Runs kernel slot kernelBlocks blocks) (stores : Nat -> Option Byte) :
    Runs (storeProgram kernel slot stores) slot kernelBlocks blocks where
  isolated := isolated_keep runs.isolated
    { pool := ⟨rfl, rfl⟩
      owns := fun _ owned => owned
      records := fun _ _ _ _ => ⟨rfl, rfl⟩
      words := fun _ _ _ _ _ => rfl
      encoded := fun encoded => encoded
      kernelDirectory := rfl
      currentDirectory := rfl } rfl
  occupied := runs.occupied
  current := runs.current
  active := runs.active

/-- The stack of the kernel is not on the page of the program. -/
theorem kernelStack_seen (process : Process) {index : Nat} (below : index < 64) :
    seenPlace process (kernelStack - 64#32 + BitVec.ofNat 32 index) = kernelStack - 64#32 + BitVec.ofNat 32 index := by
  refine if_neg fun program => ?_
  have page := program.2
  have value : (kernelStack - 64#32 + BitVec.ofNat 32 index).toNat = 0x5FFFC0 + index := by
    change (0x5FFFC0#32 + BitVec.ofNat 32 index).toNat = _
    rw [BitVec.toNat_add, BitVec.toNat_ofNat, BitVec.toNat_ofNat]
    omega
  have start : PROGRAM_VIRTUAL_ADDRESS.toNat = 0x400000 := rfl
  rw [value, start] at page
  omega

/-- The frame is as it was when the handler has returned. -/
theorem AtHandler.returned {program : Program} {esp0 : Word} {entered left : Cpu} (at_ : AtHandler program esp0 entered)
    (returned : Returned 2 13 entered left) :
    left.regs .esp = esp0 - 60#32 ∧ Stacked left.memory (esp0 - 52#32) (frameWords program esp0) := by
  constructor
  · rw [returned.esp, at_.esp]
    bv_omega
  · refine at_.stacked.congr fun index below => ?_
    have kept := returned.kept index below
    have place : entered.regs .esp + BitVec.ofNat 32 (4 * (2 + 1) + index) = esp0 - 52#32 + BitVec.ofNat 32 index := by
      rw [at_.esp, BitVec.ofNat_add, ← BitVec.add_assoc]
      generalize BitVec.ofNat 32 index = offset
      bv_omega
    rwa [place] at kept

/-- The handler finds the number and the frame where the wrapper has put them. -/
theorem Runs.handled {kernel : Kernel} {slot : Nat} {kernelBlocks : SpaceBlocks} {blocks : Nat -> ProcessBlocks}
    (runs : Runs kernel slot kernelBlocks blocks) {program : Program} {esp0 : Word} {cpu : Cpu}
    (entered : AtHandler program esp0 cpu) (invoke : Invoke) (table : Syscalls) :
    Syscall.handled invoke ⟨cpu, ⟨kernel, table⟩⟩ =
      .returned (answerFor invoke kernel slot (wordToInt (program.cpu.regs .eax)) (frameOf program esp0) table).1
        (answerFor invoke kernel slot (wordToInt (program.cpu.regs .eax)) (frameOf program esp0) table).2.loadUserPage := by
  rw [Syscall.handled, entered.number, entered.frame]
  exact runs.syscallHandler_returns invoke _ _ _ table

/-- The stack of the kernel is the same memory in both address spaces. -/
theorem Runs.stackSeen {kernel : Kernel} {slot : Nat} {kernelBlocks : SpaceBlocks} {blocks : Nat -> ProcessBlocks}
    (runs : Runs kernel slot kernelBlocks blocks) {index : Nat} (below : index < 64) :
    let address := kernelStack - 64#32 + BitVec.ofNat 32 index
    PageWalk.translate kernel.words (kernel.words (slotPage kernel slot)) address = some address ∧
      PageWalk.translate kernel.words (kernel.words kernel.kernelDirectory) address = some address := by
  have program := (runs.isolated.processes slot runs.occupied).sees (kernelStack - 64#32 + BitVec.ofNat 32 index)
  exact ⟨program.trans (congrArg some (kernelStack_seen _ below)), runs.isolated.active.sees _⟩

/-- A system call is served, and the program runs again. -/
theorem Runs.serves {build : Build} (correct : build.Correct) {served : Served} {slot : Nat} {kernelBlocks : SpaceBlocks}
    {blocks : Nat -> ProcessBlocks} (runs : Runs served.kernel slot kernelBlocks blocks) {call : SystemCall}
    (ring3 : call.program.cs &&& 3#32 ≠ 0#32) :
    exists next, Serves build slot served call next ∧ Runs next.kernel slot kernelBlocks blocks := by
  have stored := runs.stored call.stores
  have entered := call_atHandler call.program kernelStack build.returnAddress
  rcases correct.compiled.returns _ _ _ (stored.handled entered build.invoke served.table) with
    ⟨left, returns, convention, eax, segments, state⟩
  rcases entered.returned convention with ⟨esp, stacked⟩
  rcases afterCall_resumes build.statusFlags build.routine ring3 correct.apart esp stacked segments left.state with
    ⟨exit, cpu, leaves, resumes⟩
  refine ⟨left.state, ⟨fun index => runs.stackSeen, exit, cpu, ?_, eax ▸ resumes, state⟩, ?_⟩
  · rw [wrapper_calls, returns, Option.bind_some]
    exact leaves
  · rw [state]
    exact stored.answered correct.keep _ _ _

end Syscall
end LarvaOS
