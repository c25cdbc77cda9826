import Mathlib.Algebra.Group.Nat.Defs
import LarvaOS.Library.Buffer
import LarvaOS.Library.SegmentDescriptor
import LarvaOS.Library.X86

namespace LarvaOS
namespace Library

/-!
# Protection of a 32-bit x86 processor

Three tables in memory lead an interrupt to its handler: the gate of the vector in the
interrupt descriptor table names a code segment of the global descriptor table, and the
task state segment has the stack of the inner ring.  Of gates the processor here knows the
32-bit interrupt gate alone.  Where it finds no entrance, it raises an exception in the
place of the interrupt.

A ring without the privilege to use ports may use those that the bit map of the task
state segment permits, as far as the segment reaches.
-/

namespace SegmentDescriptor.Segment

variable (segment : Segment)

def present : Bool := segment.access.getLsbD 7

def ring : Nat := (segment.access.extractLsb' 5 2).toNat

/-- A code segment that does not conform to the ring of its callers. -/
def isCode : Bool := segment.access.extractLsb' 2 3 = 0b110#3

/-- A data segment that may be written. -/
def isWritable : Bool := segment.access.extractLsb' 3 2 = 0b10#2 && segment.access.getLsbD 1

/-- A task state segment that is not in use. -/
def isTask : Bool := segment.access.extractLsb' 0 5 = 0b01001#5

end SegmentDescriptor.Segment

namespace X86

open SegmentDescriptor

/-! ## Tables in memory -/

/-- Bytes that are stored from an address on. -/
def storeTable (memory : Memory) (base : BitVec 32) (size : Nat) (table : Nat -> BitVec 8) : Memory := fun address =>
  if (address - base).toNat < size then table (address - base).toNat else memory address

/-- The memory has the bytes of a table. -/
def Holds (memory : Memory) (base : BitVec 32) (size : Nat) (table : Nat -> BitVec 8) : Prop :=
  forall place, place < size -> memory (base + BitVec.ofNat 32 place) = table place

/-- Two regions of memory without a common byte. -/
def RegionsApart (base : BitVec 32) (size : Nat) (other : BitVec 32) (size' : Nat) : Prop :=
  forall place, place < size -> forall place', place' < size' ->
    base + BitVec.ofNat 32 place ≠ other + BitVec.ofNat 32 place'

theorem offset_eq (base address : BitVec 32) : base + BitVec.ofNat 32 (address - base).toNat = address := by
  rw [BitVec.ofNat_toNat, BitVec.setWidth_eq, BitVec.add_comm, BitVec.sub_add_cancel]

theorem storeTable_holds (memory : Memory) (base : BitVec 32) {size : Nat} (table : Nat -> BitVec 8) (small : size ≤ 2 ^ 32) :
    Holds (storeTable memory base size table) base size table := by
  intro place below
  unfold storeTable
  rw [offset_toNat base (Nat.lt_of_lt_of_le below small), if_pos below]

/-- A table stays when another one is stored beside it. -/
theorem Holds.storeTable {memory : Memory} {base other : BitVec 32} {size size' : Nat} {table : Nat -> BitVec 8}
    (holds : Holds memory base size table) (apart : RegionsApart base size other size') (table' : Nat -> BitVec 8) :
    Holds (storeTable memory other size' table') base size table := by
  intro place below
  unfold X86.storeTable
  rw [if_neg fun inside => apart place below _ inside (offset_eq other _).symm]
  exact holds place below

section Reading

variable {memory : Memory} {base : BitVec 32} {size : Nat} {table : Nat -> BitVec 8} (holds : Holds memory base size table)
include holds

/-- A byte behind another one of a table. -/
theorem Holds.behind {place : Nat} (offset : Nat) (inside : place + offset < size) :
    memory (base + BitVec.ofNat 32 place + BitVec.ofNat 32 offset) = table (place + offset) := by
  rw [BitVec.add_assoc, ← BitVec.ofNat_add]
  exact holds _ inside

theorem Holds.readWord {place : Nat} (inside : place + 3 < size) :
    readWord memory (base + BitVec.ofNat 32 place) =
      table (place + 3) ++ table (place + 2) ++ table (place + 1) ++ table place := by
  rw [X86.readWord, ← holds.behind 3 inside, ← holds.behind 2 (by omega), ← holds.behind 1 (by omega),
    ← holds place (by omega)]

end Reading

/-- A double byte, least significant byte first. -/
def readHalf (memory : Memory) (address : BitVec 32) : BitVec 16 := memory (address + 1#32) ++ memory address

theorem Holds.readHalf {memory : Memory} {base : BitVec 32} {size : Nat} {table : Nat -> BitVec 8}
    (holds : Holds memory base size table) {place : Nat} (inside : place + 1 < size) :
    readHalf memory (base + BitVec.ofNat 32 place) = table (place + 1) ++ table place := by
  rw [X86.readHalf, ← holds.behind 1 inside, ← holds place (by omega)]

/-! ## Gates -/

/-- What a gate says. -/
structure Gate where
  offset : BitVec 32
  selector : BitVec 16
  attributes : BitVec 8

namespace Gate

def decode (bytes : Nat -> BitVec 8) : Gate := ⟨bytes 7 ++ bytes 6 ++ bytes 1 ++ bytes 0, bytes 3 ++ bytes 2, bytes 5⟩

variable (gate : Gate)

def present : Bool := gate.attributes.getLsbD 7

/-- The outermost ring that may use the gate. -/
def ring : Nat := (gate.attributes.extractLsb' 5 2).toNat

/-- A 32-bit interrupt gate. -/
def isInterrupt : Bool := gate.attributes.extractLsb' 0 5 = 0b01110#5

theorem decode_congr {bytes other : Nat -> BitVec 8} (same : forall place, place < 8 -> other place = bytes place) :
    decode other = decode bytes := by
  unfold decode
  rw [same 0 (by decide), same 1 (by decide), same 2 (by decide), same 3 (by decide), same 5 (by decide),
    same 6 (by decide), same 7 (by decide)]

end Gate

/-- The gate of a vector. -/
def gateAt (memory : Memory) (base : BitVec 32) (vector : Nat) : Gate :=
  Gate.decode fun place => memory (base + BitVec.ofNat 32 (8 * vector + place))

/-! ## Segments -/

/-- Where a table begins, and its last byte. -/
structure TableRegister where
  base : BitVec 32
  limit : BitVec 16

/-- The registers that lead to the tables.  The task register holds the segment that it
was loaded with. -/
structure TableRegisters where
  idtr : TableRegister
  gdtr : TableRegister
  task : Segment

/-- The descriptor of a selector in the global table, whose first descriptor is none. -/
def descriptorAt (memory : Memory) (gdtr : TableRegister) (selector : BitVec 16) : Option Segment :=
  let offset := 8 * (selector.toNat / 8)
  if offset = 0 ∨ selector.getLsbD 2 = true ∨ gdtr.limit.toNat < offset + 7 then none
  else some (decode fun place => memory (gdtr.base + BitVec.ofNat 32 (offset + place)))

/-- `ltr`: the task state segment is marked as in use. -/
def loadTask (memory : Memory) (gdtr : TableRegister) (selector : BitVec 16) : Option (Segment × Memory) :=
  (descriptorAt memory gdtr selector).bind fun segment =>
    if segment.isTask && segment.present then
      let access := gdtr.base + BitVec.ofNat 32 (8 * (selector.toNat / 8) + 5)
      some (segment, Function.update memory access (memory access ||| 2#8))
    else none

/-! ## Entrances -/

/-- Where an interrupt leads. -/
structure Entrance where
  address : BitVec 32
  cs : BitVec 16
  ring : Nat
  esp : BitVec 32
  ss : BitVec 16
deriving DecidableEq

/-- The entrance of an interrupt into an inner ring. -/
def entrance (registers : TableRegisters) (memory : Memory) (vector : Nat) (software : Bool) (ring : Nat) :
    Option Entrance :=
  let gate := gateAt memory registers.idtr.base vector
  if registers.idtr.limit.toNat < 8 * vector + 7 ∨ gate.isInterrupt = false ∨ (software = true ∧ gate.ring < ring) ∨
      gate.present = false then none
  else
    (descriptorAt memory registers.gdtr gate.selector).bind fun code =>
      let stack := 8 * code.ring + 4
      if code.isCode = false ∨ code.present = false ∨ ring ≤ code.ring ∨ code.limit.toNat < gate.offset.toNat ∨
          registers.task.limit.toNat < stack + 5 then none
      else
        let esp := readWord memory (registers.task.base + BitVec.ofNat 32 stack)
        let ss := readHalf memory (registers.task.base + BitVec.ofNat 32 (stack + 4))
        (descriptorAt memory registers.gdtr ss).bind fun data =>
          if data.isWritable = false ∨ data.present = false ∨ data.ring ≠ code.ring ∨ ss.toNat % 4 ≠ code.ring then none
          else some ⟨code.base + gate.offset, gate.selector &&& ~~~3#16 ||| BitVec.ofNat 16 code.ring, code.ring, esp, ss⟩

/-- The exceptions for which the processor pushes an error code on top of the frame. -/
def pushesErrorCode (vector : Nat) (software : Bool) : Bool := !software && decide (vector ∈ [8, 10, 11, 12, 13, 14, 17])

/-- A gate through which an interrupt passes. -/
structure Gate.Passes (gate : Gate) (software : Bool) (ring : Nat) : Prop where
  interrupt : gate.isInterrupt = true
  present : gate.present = true
  allowed : software = true -> ring ≤ gate.ring

/-- A code segment for an inner ring that has an offset. -/
structure CodeAccepts (code : Segment) (ring inner : Nat) (offset : BitVec 32) : Prop where
  isCode : code.isCode = true
  present : code.present = true
  same : code.ring = inner
  below : inner < ring
  inside : offset.toNat ≤ code.limit.toNat

/-- A stack segment for a ring. -/
structure StackAccepts (data : Segment) (ring : Nat) (ss : BitVec 16) : Prop where
  writable : data.isWritable = true
  present : data.present = true
  same : data.ring = ring
  requested : ss.toNat % 4 = ring

/-- The entrance of an interrupt for which every check is passed. -/
theorem entrance_eq {registers : TableRegisters} {memory : Memory} {vector ring inner : Nat} {software : Bool}
    {gate : Gate} {code data : Segment} {ss : BitVec 16} (inside : 8 * vector + 7 ≤ registers.idtr.limit.toNat)
    (found : gateAt memory registers.idtr.base vector = gate) (passes : gate.Passes software ring)
    (codeFound : descriptorAt memory registers.gdtr gate.selector = some code)
    (accepts : CodeAccepts code ring inner gate.offset) (reaches : 8 * inner + 9 ≤ registers.task.limit.toNat)
    (stackSegment : readHalf memory (registers.task.base + BitVec.ofNat 32 (8 * inner + 8)) = ss)
    (dataFound : descriptorAt memory registers.gdtr ss = some data) (stack : StackAccepts data inner ss) :
    entrance registers memory vector software ring =
      some
        { address := code.base + gate.offset
          cs := gate.selector &&& ~~~3#16 ||| BitVec.ofNat 16 inner
          ring := inner
          esp := readWord memory (registers.task.base + BitVec.ofNat 32 (8 * inner + 4))
          ss := ss } := by
  subst found
  subst stackSegment
  unfold entrance
  dsimp only
  rw [if_neg, codeFound, Option.bind_some, accepts.same, if_neg, dataFound, Option.bind_some, if_neg]
  · rintro (writable | present | other | requested)
    · exact Bool.false_ne_true (writable.symm.trans stack.writable)
    · exact Bool.false_ne_true (present.symm.trans stack.present)
    · exact other stack.same
    · exact requested stack.requested
  · rintro (other | present | outer | beyond | short)
    · exact Bool.false_ne_true (other.symm.trans accepts.isCode)
    · exact Bool.false_ne_true (present.symm.trans accepts.present)
    · exact Nat.not_le.mpr accepts.below outer
    · exact Nat.not_lt.mpr accepts.inside beyond
    · omega
  · rintro (beyond | other | ⟨isSoftware, refused⟩ | absent)
    · exact Nat.not_lt.mpr inside beyond
    · exact Bool.false_ne_true (other.symm.trans passes.interrupt)
    · exact Nat.not_lt.mpr (passes.allowed isSoftware) refused
    · exact Bool.false_ne_true (absent.symm.trans passes.present)

/-! ## Ports -/

/-- The processor lets a ring use a port of one byte.  It reads two bytes of the map. -/
def portPermitted (task : Segment) (memory : Memory) (ring iopl : Nat) (port : BitVec 16) : Bool :=
  let map := (readHalf memory (task.base + 102#32)).toNat
  let place := map + port.toNat / 8
  decide (ring ≤ iopl) ||
    (decide (103 ≤ task.limit.toNat) && decide (place + 1 ≤ task.limit.toNat) &&
      !(readHalf memory (task.base + BitVec.ofNat 32 place)).getLsbD (port.toNat % 8))

end X86

end Library
end LarvaOS
