import Mathlib.Data.List.Basic
import Mathlib.Logic.Function.Basic

namespace LarvaOS
namespace Library

/-!
# Routines of a 32-bit x86 processor

A routine is a list of instructions with the address of each one.  It runs in
ring 0 until it leaves: by `iretd`, by a near return to an address outside the
routine, or past its last instruction.  A mnemonic that the assembler does not
know stands alone on its line as a label, and a label executes nothing.

How arithmetic sets the status flags is a parameter.  Segment registers accept
every selector here.
-/

namespace X86

inductive Reg where
  | eax
  | ebx
  | ecx
  | edx
  | esi
  | edi
  | ebp
  | esp
deriving DecidableEq

inductive SegReg where
  | ds
  | es
  | fs
  | gs
deriving DecidableEq

/-- A memory of bytes. -/
abbrev Memory := BitVec 32 -> BitVec 8

/-- The double word at an address, least significant byte first. -/
def readWord (memory : Memory) (address : BitVec 32) : BitVec 32 :=
  memory (address + 3#32) ++ memory (address + 2#32) ++ memory (address + 1#32) ++ memory address

def writeWord (memory : Memory) (address value : BitVec 32) : Memory := fun place =>
  if (place - address).toNat < 4 then value.extractLsb' (8 * (place - address).toNat) 8 else memory place

structure Cpu where
  regs : Reg -> BitVec 32
  segments : SegReg -> BitVec 16
  flags : BitVec 32
  memory : Memory

inductive Instr where
  | label (name : String)
  | movReg (d s : Reg)
  | movMem (d base : Reg) (offset : BitVec 32)
  | movAxMem (base : Reg) (offset : BitVec 32)
  | movSeg (d : SegReg)
  | pushReg (s : Reg)
  | pushMem (base : Reg) (offset : BitVec 32)
  | pushf
  | popReg (d : Reg)
  | orImm (d : Reg) (value : BitVec 32)
  | addImm (d : Reg) (value : BitVec 32)
  | call (target : Nat)
  | ret
  | iretd

/-- Instructions, the address of each, and the flags after an operation with a
given result. -/
structure Routine where
  instrs : List Instr
  address : Nat -> BitVec 32
  statusFlags : BitVec 32 -> BitVec 32 -> BitVec 32

/-- How a routine is left. -/
inductive Exit where
  | iretd (ip cs flags esp ss : BitVec 32)
  | near (target : BitVec 32)
  | ranOff
deriving DecidableEq

namespace Cpu

variable (cpu : Cpu)

def setReg (d : Reg) (value : BitVec 32) : Cpu := { cpu with regs := Function.update cpu.regs d value }

/-- `mov ax, value`. -/
def setAx (value : BitVec 16) : Cpu := cpu.setReg .eax ((cpu.regs .eax).extractLsb' 16 16 ++ value)

def setSeg (d : SegReg) (value : BitVec 16) : Cpu := { cpu with segments := Function.update cpu.segments d value }

/-- The double word at an offset from a base register. -/
def operand (base : Reg) (offset : BitVec 32) : BitVec 32 := readWord cpu.memory (cpu.regs base + offset)

def push (value : BitVec 32) : Cpu :=
  { cpu.setReg .esp (cpu.regs .esp - 4#32) with memory := writeWord cpu.memory (cpu.regs .esp - 4#32) value }

/-- The double word on top of the stack, counted from the top. -/
def stack (index : Nat) : BitVec 32 := readWord cpu.memory (cpu.regs .esp + BitVec.ofNat 32 (4 * index))

def drop (count : Nat) : Cpu := cpu.setReg .esp (cpu.regs .esp + BitVec.ofNat 32 (4 * count))

end Cpu

/-- The state after one instruction: where the routine goes on, or how it is
left. -/
inductive Next where
  | goesOn (index : Nat) (cpu : Cpu)
  | leaves (exit : Exit) (cpu : Cpu)

/-- A near return.  The address may be one of the routine. -/
def returnTo (routine : Routine) (target : BitVec 32) (cpu : Cpu) : Next :=
  match (List.range routine.instrs.length).find? fun index => routine.address index = target with
  | some index => .goesOn index cpu
  | none => .leaves (.near target) cpu

/-- `iretd` returns to an outer ring with the stack pointer that lies above the
flags, and to ring 0 with its own. -/
def interruptReturn (cpu : Cpu) : Exit :=
  if cpu.stack 1 &&& 3#32 ≠ 0#32 then .iretd (cpu.stack 0) (cpu.stack 1) (cpu.stack 2) (cpu.stack 3) (cpu.stack 4)
  else .iretd (cpu.stack 0) (cpu.stack 1) (cpu.stack 2) (cpu.regs .esp + 12#32) 0#32

/-- One instruction. -/
def execute (routine : Routine) (index : Nat) (cpu : Cpu) : Instr -> Next
  | .label _ => .goesOn (index + 1) cpu
  | .movReg d s => .goesOn (index + 1) (cpu.setReg d (cpu.regs s))
  | .movMem d base offset => .goesOn (index + 1) (cpu.setReg d (cpu.operand base offset))
  | .movAxMem base offset => .goesOn (index + 1) (cpu.setAx ((cpu.operand base offset).extractLsb' 0 16))
  | .movSeg d => .goesOn (index + 1) (cpu.setSeg d ((cpu.regs .eax).extractLsb' 0 16))
  | .pushReg s => .goesOn (index + 1) (cpu.push (cpu.regs s))
  | .pushMem base offset => .goesOn (index + 1) (cpu.push (cpu.operand base offset))
  | .pushf => .goesOn (index + 1) (cpu.push cpu.flags)
  | .popReg d => .goesOn (index + 1) ((cpu.drop 1).setReg d (cpu.stack 0))
  | .orImm d value =>
      let result := cpu.regs d ||| value
      .goesOn (index + 1) { cpu.setReg d result with flags := routine.statusFlags cpu.flags result }
  | .addImm d value =>
      let result := cpu.regs d + value
      .goesOn (index + 1) { cpu.setReg d result with flags := routine.statusFlags cpu.flags result }
  | .call target => .goesOn target (cpu.push (routine.address (index + 1)))
  | .ret => returnTo routine (cpu.stack 0) (cpu.drop 1)
  | .iretd => .leaves (interruptReturn cpu) cpu

/-- One step of a routine at an index. -/
def step (routine : Routine) (index : Nat) (cpu : Cpu) : Next :=
  match routine.instrs[index]? with
  | none => .leaves .ranOff cpu
  | some instr => execute routine index cpu instr

/-- How the routine is left within a number of steps. -/
def run (routine : Routine) : Nat -> Nat -> Cpu -> Option (Exit × Cpu)
  | 0, _, _ => none
  | steps + 1, index, cpu =>
      match step routine index cpu with
      | .goesOn index cpu => run routine steps index cpu
      | .leaves exit cpu => some (exit, cpu)

/-- A routine that holds no `iretd`. -/
def NoInterruptReturn (routine : Routine) : Prop := Instr.iretd ∉ routine.instrs

/-- The exit is no return from an interrupt. -/
def Exit.IsNear : Exit -> Prop
  | .iretd _ _ _ _ _ => False
  | .near _ => True
  | .ranOff => True

theorem returnTo_near (routine : Routine) (target : BitVec 32) (cpu : Cpu) {exit : Exit} {left : Cpu}
    (leaves : returnTo routine target cpu = .leaves exit left) : exit.IsNear := by
  unfold returnTo at leaves
  cases found : (List.range routine.instrs.length).find? fun index => routine.address index = target with
  | some index =>
      rw [found] at leaves
      exact Next.noConfusion leaves
  | none =>
      rw [found] at leaves
      injection leaves with same
      rw [← same]
      trivial

/-- Only `iretd` leaves by a return from an interrupt. -/
theorem execute_near (routine : Routine) (index : Nat) (cpu : Cpu) {instr : Instr} (other : instr ≠ .iretd)
    {exit : Exit} {left : Cpu} (leaves : execute routine index cpu instr = .leaves exit left) : exit.IsNear := by
  cases instr with
  | ret => exact returnTo_near routine _ _ leaves
  | iretd => exact absurd rfl other
  | _ => exact Next.noConfusion leaves

/-- A routine without `iretd` is never left by a return from an interrupt. -/
theorem run_near {routine : Routine} (none : NoInterruptReturn routine) (steps index : Nat) (cpu : Cpu) {exit : Exit}
    {left : Cpu} (leaves : run routine steps index cpu = some (exit, left)) : exit.IsNear := by
  induction steps generalizing index cpu with
  | zero =>
      rw [run] at leaves
      cases leaves
  | succ steps inductionHypothesis =>
      rw [run] at leaves
      cases next : step routine index cpu with
      | goesOn index' cpu' =>
          rw [next] at leaves
          exact inductionHypothesis index' cpu' leaves
      | leaves exit' cpu' =>
          rw [next] at leaves
          obtain rfl : exit' = exit := congrArg Prod.fst (Option.some.inj leaves)
          unfold step at next
          cases instr : routine.instrs[index]? with
          | none =>
              rw [instr] at next
              injection next with same
              rw [← same]
              trivial
          | some instr' =>
              rw [instr] at next
              refine execute_near routine index cpu (fun isReturn => none ?_) next
              rw [← isReturn]
              exact List.mem_of_getElem? instr

end X86

end Library
end LarvaOS
