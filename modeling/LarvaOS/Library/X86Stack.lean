import Mathlib.Algebra.Group.Nat.Defs
import LarvaOS.Library.X86

namespace LarvaOS
namespace Library

/-!
# The stack of a 32-bit x86 processor

Words that are pushed lie below what was on the stack, and stay there as long as
nothing else is stored to their addresses.  `pushad` and `popad` move the eight
general registers.  An interrupt from ring 3 pushes what `iretd` takes back.

A handler is a straight line of instructions with calls of a routine that is
compiled elsewhere.  The routine works on the processor and on a state of its own,
and keeps to the calling convention: it returns with the stack pointer behind its
return address, keeps four registers, and stores nothing above its arguments on the
stack.
-/

namespace X86

/-! ## Words -/

theorem readWord_writeWord_self (memory : Memory) (address value : BitVec 32) :
    readWord (writeWord memory address value) address = value := by
  have byte (k : Nat) (small : k < 4) :
      writeWord memory address value (address + BitVec.ofNat 32 k) = value.extractLsb' (8 * k) 8 := by
    have place : (address + BitVec.ofNat 32 k - address).toNat = k := by
      rw [BitVec.add_comm, BitVec.add_sub_cancel, BitVec.toNat_ofNat]
      omega
    rw [writeWord, place, if_pos small]
  have low := byte 0 (by decide)
  rw [BitVec.add_zero] at low
  rw [readWord, byte 3 (by decide), byte 2 (by decide), byte 1 (by decide), low,
    BitVec.extractLsb'_append_extractLsb'_eq_extractLsb' (by rfl),
    BitVec.extractLsb'_append_extractLsb'_eq_extractLsb' (by rfl),
    BitVec.extractLsb'_append_extractLsb'_eq_extractLsb' (by rfl)]
  exact BitVec.extractLsb'_eq_self

/-- Words that do not overlap. -/
theorem readWord_writeWord_apart (memory : Memory) {address other : BitVec 32} (value : BitVec 32)
    (behind : 4 ≤ (other - address).toNat) (before : 4 ≤ (address - other).toNat) :
    readWord (writeWord memory address value) other = readWord memory other := by
  have byte (k : BitVec 32) (small : k.toNat < 4) :
      writeWord memory address value (other + k) = memory (other + k) := by
    refine if_neg ?_
    bv_omega
  have low := byte 0#32 (by decide)
  rw [BitVec.add_zero] at low
  rw [readWord, byte 3#32 (by decide), byte 2#32 (by decide), byte 1#32 (by decide), low]
  rfl

/-- A word depends on its four bytes. -/
theorem readWord_congr {memory after : Memory} {address : BitVec 32}
    (same : forall k : BitVec 32, k.toNat < 4 -> after (address + k) = memory (address + k)) :
    readWord after address = readWord memory address := by
  have low := same 0#32 (by decide)
  rw [BitVec.add_zero] at low
  rw [readWord, same 3#32 (by decide), same 2#32 (by decide), same 1#32 (by decide), low]
  rfl

/-- The words from an address on. -/
def Stacked (memory : Memory) (address : BitVec 32) (words : List (BitVec 32)) : Prop :=
  forall index word, words[index]? = some word -> readWord memory (address + BitVec.ofNat 32 (4 * index)) = word

namespace Stacked

variable {memory after : Memory} {address : BitVec 32} {words : List (BitVec 32)}

theorem nil (memory : Memory) (address : BitVec 32) : Stacked memory address [] := by
  intro index word member
  cases member

theorem push (stacked : Stacked memory address words) (value : BitVec 32) (small : 4 * (words.length + 1) ≤ 2 ^ 32) :
    Stacked (writeWord memory (address - 4#32) value) (address - 4#32) (value :: words) := by
  intro index word member
  cases index with
  | zero =>
      cases member
      rw [BitVec.add_zero]
      exact readWord_writeWord_self memory _ value
  | succ index =>
      have inside : index < words.length := Nat.lt_of_succ_lt_succ (List.getElem?_eq_some_iff.mp member).1
      have value : (BitVec.ofNat 32 (4 * index)).toNat = 4 * index := by
        rw [BitVec.toNat_ofNat]
        omega
      have place : address - 4#32 + BitVec.ofNat 32 (4 * (index + 1)) = address + BitVec.ofNat 32 (4 * index) := by
        rw [Nat.mul_add, Nat.mul_one, BitVec.ofNat_add]
        generalize BitVec.ofNat 32 (4 * index) = offset
        bv_omega
      rw [place, ← stacked index word member]
      generalize BitVec.ofNat 32 (4 * index) = offset at value
      refine readWord_writeWord_apart memory _ ?_ ?_
      · bv_omega
      · bv_omega

/-- What lies above the first words. -/
theorem drop (stacked : Stacked memory address words) (count : Nat) :
    Stacked memory (address + BitVec.ofNat 32 (4 * count)) (words.drop count) := by
  intro index word member
  rw [List.getElem?_drop] at member
  rw [BitVec.add_assoc, ← BitVec.ofNat_add, ← Nat.mul_add]
  exact stacked (count + index) word member

theorem congr (stacked : Stacked memory address words)
    (same : forall index, index < 4 * words.length ->
      after (address + BitVec.ofNat 32 index) = memory (address + BitVec.ofNat 32 index)) :
    Stacked after address words := by
  intro index word member
  have inside : index < words.length := (List.getElem?_eq_some_iff.mp member).1
  rw [← stacked index word member]
  refine readWord_congr fun k small => ?_
  have joined : address + BitVec.ofNat 32 (4 * index) + k = address + BitVec.ofNat 32 (4 * index + k.toNat) := by
    rw [BitVec.add_assoc, BitVec.ofNat_add, BitVec.ofNat_toNat, BitVec.setWidth_eq]
  rw [joined]
  exact same _ (by omega)

/-- A word of the stack, counted from the top. -/
theorem stack {cpu : Cpu} (stacked : Stacked cpu.memory (cpu.regs .esp) words) {index : Nat} {word : BitVec 32}
    (member : words[index]? = some word) : cpu.stack index = word := stacked index word member

end Stacked

/-! ## Pushes -/

section Registers

variable (cpu : Cpu)

theorem setReg_self (d : Reg) (value : BitVec 32) : (cpu.setReg d value).regs d = value := Function.update_self _ _ _

theorem setReg_of_ne {d reg : Reg} (other : reg ≠ d) (value : BitVec 32) : (cpu.setReg d value).regs reg = cpu.regs reg :=
  Function.update_of_ne other _ _

theorem push_esp (value : BitVec 32) : (cpu.push value).regs .esp = cpu.regs .esp - 4#32 :=
  setReg_self cpu .esp (cpu.regs .esp - 4#32)

theorem push_regs {reg : Reg} (other : reg ≠ .esp) (value : BitVec 32) : (cpu.push value).regs reg = cpu.regs reg :=
  setReg_of_ne cpu other (cpu.regs .esp - 4#32)

end Registers

/-- One more word on the stack. -/
theorem push_stacked {cpu : Cpu} {address : BitVec 32} {words : List (BitVec 32)} (esp : cpu.regs .esp = address)
    (stacked : Stacked cpu.memory address words) (value : BitVec 32) (small : 4 * (words.length + 1) ≤ 2 ^ 32) :
    Stacked (cpu.push value).memory (address - 4#32) (value :: words) := by
  cases esp
  exact stacked.push value small

/-- Values are pushed one after the other. -/
def Cpu.pushAll (cpu : Cpu) (values : List (BitVec 32)) : Cpu := values.foldl Cpu.push cpu

/-- What pushing leaves: the values on top of the stack, and everything but the
stack as it was. -/
structure Pushed (cpu : Cpu) (words values : List (BitVec 32)) (after : Cpu) : Prop where
  stacked : Stacked after.memory (after.regs .esp) (values.reverse ++ words)
  esp : after.regs .esp = cpu.regs .esp - BitVec.ofNat 32 (4 * values.length)
  regs : forall reg, reg ≠ .esp -> after.regs reg = cpu.regs reg
  segments : after.segments = cpu.segments
  flags : after.flags = cpu.flags

theorem pushAll_pushed {cpu : Cpu} {words : List (BitVec 32)} (stacked : Stacked cpu.memory (cpu.regs .esp) words)
    {values : List (BitVec 32)} (small : 4 * (words.length + values.length) ≤ 2 ^ 32) :
    Pushed cpu words values (cpu.pushAll values) := by
  induction values generalizing cpu words with
  | nil =>
      refine ⟨stacked, ?_, fun reg _ => rfl, rfl, rfl⟩
      exact (BitVec.sub_zero _).symm
  | cons value values inductionHypothesis =>
      have length : (value :: values).length = values.length + 1 := rfl
      have pushed : Stacked (cpu.push value).memory ((cpu.push value).regs .esp) (value :: words) :=
        stacked.push value (by omega)
      have rest := inductionHypothesis pushed (by rw [List.length_cons]; omega)
      refine ⟨?_, rest.esp.trans ?_, fun reg other => (rest.regs reg other).trans (push_regs cpu other value),
        rest.segments, rest.flags⟩
      · rw [List.reverse_cons, List.append_assoc]
        exact rest.stacked
      · change cpu.regs .esp - 4#32 - _ = _
        rw [length, Nat.mul_add, Nat.mul_one, BitVec.ofNat_add]
        generalize BitVec.ofNat 32 (4 * values.length) = offset
        bv_omega

namespace Cpu

variable (cpu : Cpu)

/-- The general registers in the order in which `pushad` pushes them. -/
def general : List (BitVec 32) :=
  [cpu.regs .eax, cpu.regs .ecx, cpu.regs .edx, cpu.regs .ebx, cpu.regs .esp, cpu.regs .ebp, cpu.regs .esi, cpu.regs .edi]

def pushad : Cpu := cpu.pushAll cpu.general

/-- `popad` skips the stack pointer. -/
def popad : Cpu :=
  { cpu with
    regs := fun
      | .edi => cpu.stack 0
      | .esi => cpu.stack 1
      | .ebp => cpu.stack 2
      | .ebx => cpu.stack 4
      | .edx => cpu.stack 5
      | .ecx => cpu.stack 6
      | .eax => cpu.stack 7
      | .esp => cpu.regs .esp + 32#32 }

end Cpu

/-! ## Interrupts -/

/-- A program in ring 3 at an instruction `int`. -/
structure Program where
  cpu : Cpu
  ip : BitVec 32
  cs : BitVec 32
  ss : BitVec 32

/-- What the processor pushes. -/
def Program.frame (program : Program) : List (BitVec 32) :=
  [program.ss, program.cpu.regs .esp, program.cpu.flags, program.cs, program.ip]

/-- An interrupt gate clears the flags TF, IF, NT, RF and VM. -/
def gateFlags (flags : BitVec 32) : BitVec 32 := flags &&& ~~~0x34300#32

/-- The processor at the first instruction of the handler, on the stack that the
task state segment names. -/
def Program.interrupt (program : Program) (esp0 : BitVec 32) : Cpu :=
  { (program.cpu.setReg .esp esp0).pushAll program.frame with flags := gateFlags program.cpu.flags }

/-! ## Handlers -/

/-- The processor and the state of the routines that are called. -/
structure Machine (State : Type) where
  cpu : Cpu
  state : State

inductive HandlerInstr where
  | pushad
  | popad
  | pushReg (s : Reg)
  | callRoutine (returnAddress : BitVec 32)
  | storeAbs (address : BitVec 32) (s : Reg)
  | loadAbs (d : Reg) (address : BitVec 32)
  | addImm (d : Reg) (value : BitVec 32)

namespace Machine

variable {State : Type} (machine : Machine State)

def onCpu (change : Cpu -> Cpu) : Machine State := { machine with cpu := change machine.cpu }

/-- One instruction of a handler.  The routine may not return. -/
def execute (statusFlags : BitVec 32 -> BitVec 32 -> BitVec 32) (routine : Machine State -> Option (Machine State)) :
    HandlerInstr -> Option (Machine State)
  | .pushad => some (machine.onCpu Cpu.pushad)
  | .popad => some (machine.onCpu Cpu.popad)
  | .pushReg s => some (machine.onCpu fun cpu => cpu.push (cpu.regs s))
  | .callRoutine returnAddress => routine (machine.onCpu fun cpu => cpu.push returnAddress)
  | .storeAbs address s =>
      some (machine.onCpu fun cpu => { cpu with memory := writeWord cpu.memory address (cpu.regs s) })
  | .loadAbs d address => some (machine.onCpu fun cpu => cpu.setReg d (readWord cpu.memory address))
  | .addImm d value =>
      some (machine.onCpu fun cpu =>
        { cpu.setReg d (cpu.regs d + value) with flags := statusFlags cpu.flags (cpu.regs d + value) })

/-- A handler, up to the `iretd` at its end. -/
def handle (statusFlags : BitVec 32 -> BitVec 32 -> BitVec 32) (routine : Machine State -> Option (Machine State)) :
    List HandlerInstr -> Machine State -> Option (Exit × Machine State)
  | [], machine => some (interruptReturn machine.cpu, machine)
  | instr :: rest, machine => (machine.execute statusFlags routine instr).bind (handle statusFlags routine rest)

end Machine

/-- A routine with this number of arguments has returned as the calling convention
says, with the words above its arguments as they were. -/
structure Returned (arguments above : Nat) (before after : Cpu) : Prop where
  esp : after.regs .esp = before.regs .esp + 4#32
  ebx : after.regs .ebx = before.regs .ebx
  esi : after.regs .esi = before.regs .esi
  edi : after.regs .edi = before.regs .edi
  ebp : after.regs .ebp = before.regs .ebp
  kept : forall index, index < 4 * above ->
    after.memory (before.regs .esp + BitVec.ofNat 32 (4 * (arguments + 1) + index)) =
      before.memory (before.regs .esp + BitVec.ofNat 32 (4 * (arguments + 1) + index))

end X86

end Library
end LarvaOS
