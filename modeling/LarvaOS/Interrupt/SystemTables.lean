import LarvaOS.Gdt.Gdt
import LarvaOS.Library.Protection
import LarvaOS.Syscall.SyscallHandler

namespace LarvaOS
namespace Interrupt

open Gdt Library X86

/-!
# The tables of the processor

`arch::initialize` fills in three tables: the descriptors of the segments, the gates of
the interrupts, and the task state segment.  Each is an array of the kernel image, and
the registers of the processor lead to it from then on.

A handler for every vector is set first, and the two that are meant are set over it.
-/

/-! ## Stores -/

/-- A `uint16_t` in a table. -/
def storeHalf (table : Table) (place : Nat) (value : BitVec 16) : Table :=
  Function.update (Function.update table place (value.extractLsb' 0 8)) (place + 1) (value.extractLsb' 8 8)

/-- A `uint32_t` in a table. -/
def storeWord (table : Table) (place : Nat) (value : Word) : Table :=
  storeHalf (storeHalf table place (value.extractLsb' 0 16)) (place + 2) (value.extractLsb' 16 16)

/-- `memset` of a table to 0. -/
def clearTable (size : Nat) (table : Table) : Table := fun place => if place < size then 0#8 else table place

/-! ## The interrupt descriptor table -/

def TOTAL_INTERRUPTS : Nat := 512
def KERNEL_CODE_SELECTOR : BitVec 16 := 0x08#16
def DIVIDE_BY_ZERO_INTERRUPT_NUMBER : Nat := 0x00
def SYSTEM_CALL_INTERRUPT_NUMBER : Nat := 0x80

/-- The size of `struct idt_desc`. -/
def sizeofIdtDesc : Nat := 8

/-- `set_interrupt_handler`, for a position in the table. -/
def setInterruptHandler (idtDescriptors : Table) (pos : Nat) (address : Word) : Table :=
  let desc := sizeofIdtDesc * pos
  let table := storeHalf idtDescriptors desc ((address &&& 0x0000ffff#32).setWidth 16)
  let table := storeHalf table (desc + 2) KERNEL_CODE_SELECTOR
  let table := Function.update table (desc + 4) 0x00#8
  let table := Function.update table (desc + 5) 0xEE#8
  storeHalf table (desc + 6) ((address >>> 16).setWidth 16)

/-- The addresses of the handlers. -/
structure Handlers where
  noInterrupt : Word
  idtDivideByZero : Word
  syscallWrapper : Word

/-- `init_interrupt_descriptor_table`, before the register is loaded. -/
def initInterruptDescriptorTable (handlers : Handlers) (idtDescriptors : Table) : Table :=
  let cleared := clearTable (sizeofIdtDesc * TOTAL_INTERRUPTS) idtDescriptors
  let all := (List.range TOTAL_INTERRUPTS).foldl (fun table i => setInterruptHandler table i handlers.noInterrupt) cleared
  let divided := setInterruptHandler all DIVIDE_BY_ZERO_INTERRUPT_NUMBER handlers.idtDivideByZero
  setInterruptHandler divided SYSTEM_CALL_INTERRUPT_NUMBER handlers.syscallWrapper

/-! ## The segments -/

def TOTAL_GDT_SEGMENTS : Nat := 6

/-- The size of `struct task_state_segment`. -/
def sizeofTaskStateSegment : Nat := 104

/-- The segments of `global_descriptor_table`, for the address of the task state
segment. -/
def structuredGdtRuntime (tss : Word) : List StructuredSegmentDescriptor :=
  [⟨0x00#32, 0x00#32, 0x00#8⟩,
    ⟨0x00#32, 0xFFFFFFFF#32, 0x9A#8⟩,
    ⟨0x00#32, 0xFFFFFFFF#32, 0x92#8⟩,
    ⟨0x00#32, 0xFFFFFFFF#32, 0xF8#8⟩,
    ⟨0x00#32, 0xFFFFFFFF#32, 0xF2#8⟩,
    ⟨tss, BitVec.ofNat 32 sizeofTaskStateSegment, 0xE9#8⟩]

/-- `global_descriptor_table::initialize`, before the register is loaded. -/
def gdtInitialize (tss : Word) (gdtRuntime : Table) : Option Table :=
  extractStructuredGdt (clearTable (sizeofSegmentDescriptor * TOTAL_GDT_SEGMENTS) gdtRuntime) (structuredGdtRuntime tss)

/-! ## The task state segment -/

/-- `proc::__initialize_task_state_segment`, before the register is loaded.  The fields
`esp0` and `ss0` lie at 4 and 8. -/
def initializeTaskStateSegment (tss : Table) : Table :=
  let cleared := clearTable sizeofTaskStateSegment tss
  storeHalf (storeWord cleared 4 0x600000#32) 8 Syscall.KERNEL_DATA_SELECTOR

/-! ## Initialization -/

/-- Where the linker has put the tables and the handlers. -/
structure Linked where
  gdt : Word
  idt : Word
  tss : Word
  handlers : Handlers

/-- The bytes from an address on. -/
def tableAt (memory : X86.Memory) (base : Word) : Table := fun place => memory (base + BitVec.ofNat 32 place)

/-- The tables, stored one after the other. -/
def storeTables (linked : Linked) (memory : X86.Memory) (gdt : Table) : X86.Memory :=
  let memory := storeTable memory linked.gdt (sizeofSegmentDescriptor * TOTAL_GDT_SEGMENTS) gdt
  let memory := storeTable memory linked.idt (sizeofIdtDesc * TOTAL_INTERRUPTS)
    (initInterruptDescriptorTable linked.handlers (tableAt memory linked.idt))
  storeTable memory linked.tss sizeofTaskStateSegment (initializeTaskStateSegment (tableAt memory linked.tss))

/-- What `arch::initialize` does to the tables and to the registers that lead to them.
The limit of the segment table is its size, one more than its last byte. -/
def archInitialize (linked : Linked) (memory : X86.Memory) : Option (X86.Memory × TableRegisters) :=
  (gdtInitialize linked.tss (tableAt memory linked.gdt)).bind fun gdt =>
    let idtr : TableRegister := ⟨linked.idt, BitVec.ofNat 16 (sizeofIdtDesc * TOTAL_INTERRUPTS - 1)⟩
    let gdtr : TableRegister := ⟨linked.gdt, BitVec.ofNat 16 (sizeofSegmentDescriptor * TOTAL_GDT_SEGMENTS)⟩
    (loadTask (storeTables linked memory gdt) gdtr 0x28#16).map fun loaded => (loaded.2, ⟨idtr, gdtr, loaded.1⟩)

/-! ## One gate -/

/-- What the processor reads in a gate of the table. -/
def gateOf (table : Table) (pos : Nat) : Gate := Gate.decode fun place => table (sizeofIdtDesc * pos + place)

/-- The gate of a handler. -/
def handlerGate (address : Word) : Gate := ⟨address, KERNEL_CODE_SELECTOR, 0xEE#8⟩

/-- A byte of the lower half of an address. -/
theorem lowHalf_byte (address : Word) {start : Nat} (inside : start + 8 ≤ 16) :
    ((address &&& 0x0000ffff#32).setWidth 16).extractLsb' start 8 = address.extractLsb' start 8 := by
  refine BitVec.eq_of_getLsbD_eq fun i below => ?_
  have mask : forall bit, bit < 16 -> (0x0000ffff#32).getLsbD bit = true := by decide
  have bit : start + i < 16 := by omega
  simp only [BitVec.getLsbD_extractLsb', BitVec.getLsbD_setWidth, BitVec.getLsbD_and, mask _ bit, bit, below, decide_true,
    Bool.true_and, Bool.and_true]

/-- A byte of the upper half of an address. -/
theorem highHalf_byte (address : Word) {start : Nat} (inside : start + 8 ≤ 16) :
    ((address >>> 16).setWidth 16).extractLsb' start 8 = address.extractLsb' (16 + start) 8 := by
  refine BitVec.eq_of_getLsbD_eq fun i below => ?_
  have bit : start + i < 16 := by omega
  simp only [BitVec.getLsbD_extractLsb', BitVec.getLsbD_setWidth, BitVec.getLsbD_ushiftRight, bit, below, decide_true,
    Bool.true_and, Nat.add_assoc]

/-- The bytes of an address, put together again. -/
theorem address_of_bytes (address : Word) :
    address.extractLsb' 24 8 ++ address.extractLsb' 16 8 ++ address.extractLsb' 8 8 ++ address.extractLsb' 0 8 = address := by
  rw [BitVec.extractLsb'_append_extractLsb'_eq_extractLsb' (by rfl),
    BitVec.extractLsb'_append_extractLsb'_eq_extractLsb' (by rfl),
    BitVec.extractLsb'_append_extractLsb'_eq_extractLsb' (by rfl)]
  exact BitVec.extractLsb'_eq_self

section Setting

variable (table : Table) (pos : Nat) (address : Word)

theorem setInterruptHandler_self : gateOf (setInterruptHandler table pos address) pos = handlerGate address := by
  have lower : forall start, start + 8 ≤ 16 -> _ := fun start inside => @lowHalf_byte address start inside
  have upper : forall start, start + 8 ≤ 16 -> _ := fun start inside => @highHalf_byte address start inside
  unfold gateOf Gate.decode handlerGate setInterruptHandler KERNEL_CODE_SELECTOR
  generalize (address &&& 0x0000ffff#32).setWidth 16 = low at lower ⊢
  generalize (address >>> 16).setWidth 16 = high at upper ⊢
  have bytes := address_of_bytes address
  rw [← lower 0 (by decide), ← lower 8 (by decide), ← upper 0 (by decide), ← upper 8 (by decide)] at bytes
  rw [Gate.mk.injEq]
  refine ⟨?_, ?_, ?_⟩
  · refine Eq.trans ?_ bytes
    simp [storeHalf, Nat.add_assoc]
  · simp [storeHalf]
  · simp [storeHalf]

/-- Outside its eight bytes a gate changes nothing. -/
theorem setInterruptHandler_outside {place : Nat}
    (outside : place < sizeofIdtDesc * pos ∨ sizeofIdtDesc * pos + sizeofIdtDesc ≤ place) :
    setInterruptHandler table pos address place = table place := by
  unfold setInterruptHandler storeHalf
  unfold sizeofIdtDesc at *
  have apart : forall offset, offset < 8 -> place ≠ 8 * pos + offset := by
    intro offset inside
    omega
  rw [Function.update_of_ne (apart 7 (by decide)), Function.update_of_ne (apart 6 (by decide)),
    Function.update_of_ne (apart 5 (by decide)), Function.update_of_ne (apart 4 (by decide)),
    Function.update_of_ne (apart 3 (by decide)), Function.update_of_ne (apart 2 (by decide)),
    Function.update_of_ne (apart 1 (by decide)), Function.update_of_ne (Nat.add_zero (8 * pos) ▸ apart 0 (by decide))]

/-- A gate that is set is the only one that changes. -/
theorem setInterruptHandler_gates :
    gateOf (setInterruptHandler table pos address) = Function.update (gateOf table) pos (handlerGate address) := by
  funext other
  by_cases same : other = pos
  · rw [same, Function.update_self]
    exact setInterruptHandler_self table pos address
  · rw [Function.update_of_ne same]
    refine Gate.decode_congr fun place below => setInterruptHandler_outside table pos address ?_
    unfold sizeofIdtDesc
    omega

end Setting

/-! ## The whole table of gates -/

/-- The handler that a vector is meant to have. -/
def Handlers.handlerOf (handlers : Handlers) (vector : Nat) : Word :=
  if vector = SYSTEM_CALL_INTERRUPT_NUMBER then handlers.syscallWrapper
  else if vector = DIVIDE_BY_ZERO_INTERRUPT_NUMBER then handlers.idtDivideByZero
  else handlers.noInterrupt

/-- The loop sets the gates in front of its counter. -/
theorem setAll_gates (table : Table) (address : Word) (count : Nat) {vector : Nat} (below : vector < count) :
    gateOf ((List.range count).foldl (fun table i => setInterruptHandler table i address) table) vector =
      handlerGate address := by
  induction count with
  | zero => exact absurd below (Nat.not_lt_zero vector)
  | succ count inductionHypothesis =>
      rw [List.range_succ, List.foldl_append, List.foldl_cons, List.foldl_nil, setInterruptHandler_gates]
      by_cases last : vector = count
      · rw [last, Function.update_self]
      · rw [Function.update_of_ne last]
        exact inductionHypothesis (by omega)

/-- Every vector has its handler. -/
theorem initInterruptDescriptorTable_gates (handlers : Handlers) (table : Table) {vector : Nat}
    (below : vector < TOTAL_INTERRUPTS) :
    gateOf (initInterruptDescriptorTable handlers table) vector = handlerGate (handlers.handlerOf vector) := by
  unfold initInterruptDescriptorTable Handlers.handlerOf
  dsimp only
  rw [setInterruptHandler_gates]
  by_cases systemCall : vector = SYSTEM_CALL_INTERRUPT_NUMBER
  · rw [if_pos systemCall, systemCall, Function.update_self]
  · rw [if_neg systemCall, Function.update_of_ne systemCall, setInterruptHandler_gates]
    by_cases divide : vector = DIVIDE_BY_ZERO_INTERRUPT_NUMBER
    · rw [if_pos divide, divide, Function.update_self]
    · rw [if_neg divide, Function.update_of_ne divide]
      exact setAll_gates _ _ _ below

/-! ## The task state segment -/

/-- The bytes of the task state segment: the stack of the kernel, and zeros. -/
def taskByte (place : Nat) : Byte := if place = 6 then 0x60#8 else if place = 8 then 0x10#8 else 0x00#8

theorem initializeTaskStateSegment_bytes (tss : Table) {place : Nat} (below : place < sizeofTaskStateSegment) :
    initializeTaskStateSegment tss place = taskByte place := by
  have cleared : clearTable sizeofTaskStateSegment tss place = 0x00#8 := if_pos below
  unfold initializeTaskStateSegment storeWord storeHalf
  by_cases late : 10 ≤ place
  · have apart : forall offset, offset < 10 -> place ≠ offset := by
      intro offset inside
      omega
    rw [Function.update_of_ne (apart (8 + 1) (by decide)), Function.update_of_ne (apart 8 (by decide)),
      Function.update_of_ne (apart (4 + 2 + 1) (by decide)), Function.update_of_ne (apart (4 + 2) (by decide)),
      Function.update_of_ne (apart (4 + 1) (by decide)), Function.update_of_ne (apart 4 (by decide)), cleared, taskByte,
      if_neg (apart 6 (by decide)), if_neg (apart 8 (by decide))]
  · match place, Nat.not_le.mp late with
    | 0, _ => exact cleared
    | 1, _ => exact cleared
    | 2, _ => exact cleared
    | 3, _ => exact cleared
    | 4, _ => rfl
    | 5, _ => rfl
    | 6, _ => rfl
    | 7, _ => rfl
    | 8, _ => rfl
    | 9, _ => rfl

end Interrupt
end LarvaOS
