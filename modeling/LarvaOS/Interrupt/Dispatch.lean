import LarvaOS.Interrupt.SystemTables

namespace LarvaOS
namespace Interrupt

open Gdt Library SegmentDescriptor X86

/-!
# The way of an interrupt into the kernel

Once the tables are filled in, every vector leads from ring 3 to its handler in ring 0, on
the stack of the kernel: each gate may be used by `int`, since all of them have the
privilege of ring 3.

The map of the ports lies at the beginning of the task state segment, where its offset
of 0 puts it.  Almost all of its bits are clear, and a program in ring 3 may use their
ports.
-/

/-! ## Tables that are loaded -/

/-- The linker has put the tables beside each other. -/
structure Linked.Apart (linked : Linked) : Prop where
  gates : RegionsApart linked.gdt (sizeofSegmentDescriptor * TOTAL_GDT_SEGMENTS) linked.idt (sizeofIdtDesc * TOTAL_INTERRUPTS)
  state : RegionsApart linked.gdt (sizeofSegmentDescriptor * TOTAL_GDT_SEGMENTS) linked.tss sizeofTaskStateSegment
  both : RegionsApart linked.idt (sizeofIdtDesc * TOTAL_INTERRUPTS) linked.tss sizeofTaskStateSegment

/-- The bytes of the tables are the same. -/
structure TablesKept (linked : Linked) (memory current : X86.Memory) : Prop where
  gdt : forall place, place < sizeofSegmentDescriptor * TOTAL_GDT_SEGMENTS ->
    current (linked.gdt + BitVec.ofNat 32 place) = memory (linked.gdt + BitVec.ofNat 32 place)
  idt : forall place, place < sizeofIdtDesc * TOTAL_INTERRUPTS ->
    current (linked.idt + BitVec.ofNat 32 place) = memory (linked.idt + BitVec.ofNat 32 place)
  tss : forall place, place < sizeofTaskStateSegment ->
    current (linked.tss + BitVec.ofNat 32 place) = memory (linked.tss + BitVec.ofNat 32 place)

/-- The segment that the task register holds. -/
def taskSegment (linked : Linked) : Segment := ⟨linked.tss, BitVec.ofNat 32 sizeofTaskStateSegment, 0xE9#8⟩

/-- What the processor finds in the tables. -/
structure TablesLoaded (linked : Linked) (memory : X86.Memory) (registers : TableRegisters) : Prop where
  idtr : registers.idtr = ⟨linked.idt, 4095#16⟩
  gdtr : registers.gdtr = ⟨linked.gdt, 48#16⟩
  task : registers.task = taskSegment linked
  gates : forall vector, vector < TOTAL_INTERRUPTS ->
    gateAt memory linked.idt vector = handlerGate (linked.handlers.handlerOf vector)
  code : descriptorAt memory ⟨linked.gdt, 48#16⟩ KERNEL_CODE_SELECTOR = some ⟨0#32, 0xFFFFFFFF#32, 0x9A#8⟩
  data : descriptorAt memory ⟨linked.gdt, 48#16⟩ Syscall.KERNEL_DATA_SELECTOR = some ⟨0#32, 0xFFFFFFFF#32, 0x92#8⟩
  state : Holds memory linked.tss sizeofTaskStateSegment taskByte

/-- The table of segments decodes to what was asked for. -/
theorem gdtInitialize_entries (tss : Word) (table : Table) : exists gdt, gdtInitialize tss table = some gdt ∧
    forall index descriptor, (structuredGdtRuntime tss)[index]? = some descriptor ->
      entryOf gdt index = descriptor.segment := by
  have accepted : forall descriptor, descriptor ∈ structuredGdtRuntime tss -> LimitAccepted descriptor.limit := by
    intro descriptor member
    unfold structuredGdtRuntime at member
    simp only [List.mem_cons, List.not_mem_nil, or_false] at member
    rcases member with rfl | rfl | rfl | rfl | rfl | rfl
    · exact (by decide : LimitAccepted 0x00#32)
    · exact (by decide : LimitAccepted 0xFFFFFFFF#32)
    · exact (by decide : LimitAccepted 0xFFFFFFFF#32)
    · exact (by decide : LimitAccepted 0xFFFFFFFF#32)
    · exact (by decide : LimitAccepted 0xFFFFFFFF#32)
    · exact (by decide : LimitAccepted (BitVec.ofNat 32 sizeofTaskStateSegment))
  rcases extractEntries_spec 0 (clearTable (sizeofSegmentDescriptor * TOTAL_GDT_SEGMENTS) table) accepted with
    ⟨gdt, extracts, entries, _⟩
  refine ⟨gdt, extracts, fun index descriptor found => ?_⟩
  rw [← entries index descriptor found, Nat.zero_add]

/-- A descriptor of the table, by its selector. -/
theorem descriptorAt_entry {memory : X86.Memory} {base : Word} {table : Table}
    (holds : Holds memory base (sizeofSegmentDescriptor * TOTAL_GDT_SEGMENTS) table) {selector : BitVec 16} {index : Nat}
    (number : selector.toNat = sizeofSegmentDescriptor * index) (global : selector.getLsbD 2 = false) (some : index ≠ 0)
    (below : index < TOTAL_GDT_SEGMENTS) : descriptorAt memory ⟨base, 48#16⟩ selector = Option.some (entryOf table index) := by
  unfold sizeofSegmentDescriptor TOTAL_GDT_SEGMENTS at *
  have quotient : selector.toNat / 8 = index := by omega
  have limit : (48#16).toNat = 48 := rfl
  unfold descriptorAt
  dsimp only
  simp only [quotient, global, limit, Bool.false_eq_true, false_or]
  rw [if_neg (by omega)]
  exact congrArg Option.some (decode_congr fun place inside => holds _ (by omega))

/-- `ltr` marks the descriptor of the task as in use, and changes nothing else. -/
theorem loadTask_busy {memory : X86.Memory} {base : Word} {segment : Segment} (task : segment.isTask = true)
    (present : segment.present = true) (found : descriptorAt memory ⟨base, 48#16⟩ 0x28#16 = some segment) :
    exists busy, loadTask memory ⟨base, 48#16⟩ 0x28#16 = some (segment, Function.update memory (base + 45#32) busy) := by
  unfold loadTask
  rw [found, Option.bind_some, task, present]
  exact ⟨_, rfl⟩

/-- A byte beside the access rights of the task. -/
theorem busy_other {memory : X86.Memory} {base address : Word} {busy : Byte}
    (apart : address ≠ base + 45#32) : Function.update memory (base + 45#32) busy address = memory address :=
  Function.update_of_ne apart _ _

/-- The tables lie in memory. -/
structure TablesStored (linked : Linked) (memory : X86.Memory) : Prop where
  segments : exists gdt, Holds memory linked.gdt (sizeofSegmentDescriptor * TOTAL_GDT_SEGMENTS) gdt ∧
    forall index descriptor, (structuredGdtRuntime linked.tss)[index]? = some descriptor ->
      entryOf gdt index = descriptor.segment
  gates : exists idt, Holds memory linked.idt (sizeofIdtDesc * TOTAL_INTERRUPTS) idt ∧
    forall vector, vector < TOTAL_INTERRUPTS -> gateOf idt vector = handlerGate (linked.handlers.handlerOf vector)
  state : Holds memory linked.tss sizeofTaskStateSegment taskByte

theorem storeTables_stored {linked : Linked} (apart : linked.Apart) (memory : X86.Memory) {gdt : Table}
    (entries : forall index descriptor, (structuredGdtRuntime linked.tss)[index]? = some descriptor ->
      entryOf gdt index = descriptor.segment) : TablesStored linked (storeTables linked memory gdt) := by
  unfold storeTables
  dsimp only
  have segments := storeTable_holds memory linked.gdt gdt
    (by decide : sizeofSegmentDescriptor * TOTAL_GDT_SEGMENTS ≤ 2 ^ 32)
  generalize storeTable memory linked.gdt (sizeofSegmentDescriptor * TOTAL_GDT_SEGMENTS) gdt = first at *
  have gates := fun vector below =>
    @initInterruptDescriptorTable_gates linked.handlers (tableAt first linked.idt) vector below
  generalize initInterruptDescriptorTable linked.handlers (tableAt first linked.idt) = idt at *
  have held := storeTable_holds first linked.idt idt (by decide : sizeofIdtDesc * TOTAL_INTERRUPTS ≤ 2 ^ 32)
  have kept := segments.storeTable apart.gates idt
  generalize storeTable first linked.idt (sizeofIdtDesc * TOTAL_INTERRUPTS) idt = second at *
  have bytes := fun place below => @initializeTaskStateSegment_bytes (tableAt second linked.tss) place below
  generalize initializeTaskStateSegment (tableAt second linked.tss) = state at *
  have stored := storeTable_holds second linked.tss state (by decide : sizeofTaskStateSegment ≤ 2 ^ 32)
  refine ⟨⟨gdt, kept.storeTable apart.state state, entries⟩, ⟨idt, held.storeTable apart.both state, gates⟩, ?_⟩
  exact fun place below => (stored place below).trans (bytes place below)

/-- The busy mark is none of the bytes of a code or data segment. -/
theorem descriptorAt_busy (memory : X86.Memory) (base : Word) (busy : Byte) {selector : BitVec 16}
    (before : selector.toNat / 8 < 5) :
    descriptorAt (Function.update memory (base + 45#32) busy) ⟨base, 48#16⟩ selector =
      descriptorAt memory ⟨base, 48#16⟩ selector := by
  unfold descriptorAt
  dsimp only
  refine congrArg _ (congrArg some (decode_congr fun place inside => busy_other fun same => ?_))
  have numbers := congrArg (fun address : Word => (address - base).toNat) same
  change (base + BitVec.ofNat 32 (8 * (selector.toNat / 8) + place) - base).toNat =
    (base + BitVec.ofNat 32 45 - base).toNat at numbers
  rw [offset_toNat _ (by omega), offset_toNat _ (by omega)] at numbers
  omega

/-- The tables are loaded. -/
theorem archInitialize_loads {linked : Linked} (apart : linked.Apart) (memory : X86.Memory) :
    exists after registers, archInitialize linked memory = some (after, registers) ∧ TablesLoaded linked after registers := by
  rcases gdtInitialize_entries linked.tss (tableAt memory linked.gdt) with ⟨gdt, initializes, entries⟩
  rcases storeTables_stored apart memory entries with ⟨⟨held, segments, decodes⟩, ⟨idt, heldGates, gates⟩, state⟩
  unfold archInitialize
  rw [initializes, Option.bind_some]
  generalize storeTables linked memory gdt = stored at *
  have found : descriptorAt stored ⟨linked.gdt, 48#16⟩ 0x28#16 = some (taskSegment linked) := by
    rw [@descriptorAt_entry _ _ _ segments 0x28#16 5 rfl rfl (by decide) (by decide), decodes 5 _ rfl]
    rfl
  have free : (taskSegment linked).isTask = true := (by decide : decide ((0xE9#8).extractLsb' 0 5 = 0b01001#5) = true)
  have present : (taskSegment linked).present = true := (by decide : (0xE9#8).getLsbD 7 = true)
  rcases loadTask_busy free present found with ⟨busy, loads⟩
  have register : (⟨linked.gdt, BitVec.ofNat 16 (sizeofSegmentDescriptor * TOTAL_GDT_SEGMENTS)⟩ : TableRegister) =
      ⟨linked.gdt, 48#16⟩ := rfl
  refine ⟨Function.update stored (linked.gdt + 45#32) busy, ⟨⟨linked.idt, 4095#16⟩, ⟨linked.gdt, 48#16⟩, taskSegment linked⟩,
    ?_, rfl, rfl, rfl, fun vector below => ?_, ?_, ?_, fun place below => ?_⟩
  · dsimp only
    rw [register, loads, Option.map_some]
    rfl
  · rw [← gates vector below]
    refine Gate.decode_congr fun place inside => ?_
    have small : 8 * vector + place < sizeofIdtDesc * TOTAL_INTERRUPTS := by
      unfold sizeofIdtDesc TOTAL_INTERRUPTS at *
      omega
    rw [busy_other fun same => apart.gates 45 (by decide) _ small same.symm]
    exact heldGates _ small
  · rw [descriptorAt_busy _ _ _ (by decide)]
    exact (@descriptorAt_entry _ _ _ segments 0x08#16 1 rfl rfl (by decide) (by decide)).trans
      (congrArg some (decodes 1 _ rfl))
  · rw [descriptorAt_busy _ _ _ (by decide)]
    exact (@descriptorAt_entry _ _ _ segments 0x10#16 2 rfl rfl (by decide) (by decide)).trans
      (congrArg some (decodes 2 _ rfl))
  · rw [busy_other fun same => apart.state 45 (by decide) place below same.symm]
    exact state place below

/-! ## The processor at the tables -/

/-- The bits that are set in the task state segment. -/
theorem taskByte_bit {place bit : Nat} (small : bit < 8) : (taskByte place).getLsbD bit = true ↔
    8 * place + bit = 53 ∨ 8 * place + bit = 54 ∨ 8 * place + bit = 68 := by
  unfold taskByte
  by_cases sixth : place = 6
  · have bits : forall bit, bit < 8 -> ((0x60#8).getLsbD bit = true ↔ bit = 5 ∨ bit = 6) := by decide
    rw [if_pos sixth, bits bit small]
    omega
  · rw [if_neg sixth]
    by_cases eighth : place = 8
    · have bits : forall bit, bit < 8 -> ((0x10#8).getLsbD bit = true ↔ bit = 4) := by decide
      rw [if_pos eighth, bits bit small]
      omega
    · rw [if_neg eighth, BitVec.getLsbD_zero]
      constructor
      · exact fun impossible => absurd impossible Bool.false_ne_true
      · omega

namespace TablesLoaded

variable {linked : Linked} {memory current : X86.Memory} {registers : TableRegisters}
  (loaded : TablesLoaded linked memory registers)
include loaded

/-- The tables stay loaded while their bytes are the same. -/
theorem keep (kept : TablesKept linked memory current) : TablesLoaded linked current registers := by
  have descriptor : forall selector : BitVec 16, selector.toNat / 8 < TOTAL_GDT_SEGMENTS ->
      descriptorAt current ⟨linked.gdt, 48#16⟩ selector = descriptorAt memory ⟨linked.gdt, 48#16⟩ selector := by
    intro selector before
    unfold TOTAL_GDT_SEGMENTS at before
    unfold descriptorAt
    dsimp only
    refine congrArg _ (congrArg some (decode_congr fun place inside => kept.gdt _ ?_))
    unfold sizeofSegmentDescriptor TOTAL_GDT_SEGMENTS
    omega
  refine ⟨loaded.idtr, loaded.gdtr, loaded.task, fun vector below => ?_, ?_, ?_, fun place below => ?_⟩
  · rw [← loaded.gates vector below]
    refine Gate.decode_congr fun place inside => kept.idt _ ?_
    unfold sizeofIdtDesc TOTAL_INTERRUPTS at *
    omega
  · exact (descriptor _ (by decide)).trans loaded.code
  · exact (descriptor _ (by decide)).trans loaded.data
  · exact (kept.tss place below).trans (loaded.state place below)

/-- Every vector leads from ring 3 to its handler. -/
theorem entrance {vector : Nat} (below : vector < 256) (software : Bool) :
    X86.entrance registers memory vector software 3 =
      some ⟨linked.handlers.handlerOf vector, KERNEL_CODE_SELECTOR, 0, 0x600000#32, Syscall.KERNEL_DATA_SELECTOR⟩ := by
  have limit : (4095#16).toNat = 4095 := rfl
  have esp : readWord memory (linked.tss + BitVec.ofNat 32 4) = 0x600000#32 := loaded.state.readWord (by decide)
  have ss : readHalf memory (linked.tss + BitVec.ofNat 32 8) = Syscall.KERNEL_DATA_SELECTOR :=
    loaded.state.readHalf (by decide)
  have gate := loaded.gates vector (Nat.lt_trans below (by decide))
  have code := loaded.code
  have data := loaded.data
  rcases registers with ⟨idtr, gdtr, task⟩
  cases loaded.idtr
  cases loaded.gdtr
  cases loaded.task
  have passes : (handlerGate (linked.handlers.handlerOf vector)).Passes software 3 :=
    ⟨(by decide : decide ((0xEE#8).extractLsb' 0 5 = 0b01110#5) = true), (by decide : (0xEE#8).getLsbD 7 = true),
      fun _ => (by decide : 3 ≤ ((0xEE#8).extractLsb' 5 2).toNat)⟩
  have accepts : CodeAccepts ⟨0#32, 0xFFFFFFFF#32, 0x9A#8⟩ 3 0 (linked.handlers.handlerOf vector) :=
    ⟨rfl, rfl, rfl, by decide, by bv_omega⟩
  have stack : StackAccepts ⟨0#32, 0xFFFFFFFF#32, 0x92#8⟩ 0 Syscall.KERNEL_DATA_SELECTOR := ⟨rfl, rfl, rfl, rfl⟩
  have inside : 8 * vector + 7 ≤ (4095#16).toNat := by omega
  refine (@entrance_eq ⟨⟨linked.idt, 4095#16⟩, ⟨linked.gdt, 48#16⟩, taskSegment linked⟩ memory vector 3 0 software _ _ _ _
    inside gate passes code accepts (by decide : 8 * 0 + 9 ≤ (BitVec.ofNat 32 sizeofTaskStateSegment).toNat) ss data
      stack).trans ?_
  change some (Entrance.mk (0#32 + linked.handlers.handlerOf vector) _ 0 (readWord memory (linked.tss + BitVec.ofNat 32 4)) _) = _
  have cs : KERNEL_CODE_SELECTOR &&& ~~~3#16 ||| BitVec.ofNat 16 0 = KERNEL_CODE_SELECTOR := by decide
  rw [BitVec.zero_add, esp]
  exact congrArg (fun selector => some (Entrance.mk _ selector _ _ _)) cs

/-- The ports of ring 3: those whose bits are clear in the task state segment itself. -/
theorem ports {iopl : Nat} (outer : iopl < 3) (port : BitVec 16) :
    portPermitted registers.task memory 3 iopl port = true ↔
      port.toNat < 832 ∧ port.toNat ≠ 53 ∧ port.toNat ≠ 54 ∧ port.toNat ≠ 68 := by
  have map : readHalf memory (linked.tss + 102#32) = 0#16 := loaded.state.readHalf (by decide)
  have limit : (taskSegment linked).limit.toNat = 104 := rfl
  have ring : decide (3 ≤ iopl) = false := decide_eq_false (Nat.not_le.mpr outer)
  have base : (taskSegment linked).base = linked.tss := rfl
  unfold portPermitted
  dsimp only
  rw [loaded.task, limit, base, map, ring]
  have start : (0#16).toNat + port.toNat / 8 = port.toNat / 8 := Nat.zero_add _
  rw [start]
  by_cases within : port.toNat / 8 + 1 ≤ 104
  · have bit : port.toNat % 8 < 8 := Nat.mod_lt _ (by decide)
    have low : (readHalf memory (linked.tss + BitVec.ofNat 32 (port.toNat / 8))).getLsbD (port.toNat % 8) =
        (taskByte (port.toNat / 8)).getLsbD (port.toNat % 8) := by
      rw [readHalf, BitVec.getLsbD_append, if_pos bit, loaded.state (port.toNat / 8) within]
    have number := Nat.div_add_mod port.toNat 8
    have taken := @taskByte_bit (port.toNat / 8) (port.toNat % 8) bit
    rw [number] at taken
    have enough : decide (103 ≤ 104) = true := rfl
    rw [low, decide_eq_true within, enough, Bool.false_or, Bool.true_and, Bool.true_and, Bool.not_eq_true',
      ← Bool.not_eq_true, taken]
    omega
  · rw [decide_eq_false within, Bool.and_false, Bool.false_and, Bool.false_or]
    constructor
    · exact fun impossible => absurd impossible Bool.false_ne_true
    · omega

end TablesLoaded

/-! ## What initialization comes to -/

/-- Whatever lies in memory before, the tables are set up.  From then on, as long as
nothing is stored over them, every vector leads from ring 3 to the handler that it is
meant to have, be it by `int` or not, in ring 0 and on the stack of the kernel; and the
ports that ring 3 may use are those below 832 but for three. -/
theorem archInitialize_protects {linked : Linked} (apart : linked.Apart) (memory : X86.Memory) :
    exists after registers, archInitialize linked memory = some (after, registers) ∧
      forall current, TablesKept linked after current ->
        (forall vector software, vector < 256 -> entrance registers current vector software 3 =
          some ⟨linked.handlers.handlerOf vector, KERNEL_CODE_SELECTOR, 0, 0x600000#32, Syscall.KERNEL_DATA_SELECTOR⟩) ∧
        forall iopl port, iopl < 3 -> (portPermitted registers.task current 3 iopl port = true ↔
          port.toNat < 832 ∧ port.toNat ≠ 53 ∧ port.toNat ≠ 54 ∧ port.toNat ≠ 68) := by
  rcases archInitialize_loads apart memory with ⟨after, registers, initializes, loaded⟩
  refine ⟨after, registers, initializes, fun current kept => ⟨?_, ?_⟩⟩
  · exact fun vector software below => (loaded.keep kept).entrance below software
  · exact fun iopl port outer => (loaded.keep kept).ports outer port

/-- Regions that follow each other. -/
theorem regionsApart_of_before {base other : Word} {size size' : Nat} (before : base.toNat + size ≤ other.toNat)
    (fits : other.toNat + size' ≤ 2 ^ 32) : RegionsApart base size other size' := by
  intro place below place' below' same
  have numbers := congrArg BitVec.toNat same
  rw [BitVec.toNat_add, BitVec.toNat_add, BitVec.toNat_ofNat, BitVec.toNat_ofNat] at numbers
  omega

/-- An image of the kernel. -/
def kernelImage : Linked := ⟨0x110000#32, 0x111000#32, 0x113000#32, ⟨0x101000#32, 0x101100#32, 0x101200#32⟩⟩

theorem kernelImage_apart : kernelImage.Apart where
  gates := regionsApart_of_before (by decide) (by decide)
  state := regionsApart_of_before (by decide) (by decide)
  both := regionsApart_of_before (by decide) (by decide)

theorem archInitialize_protects_image : exists after registers,
    archInitialize kernelImage (fun _ => 0#8) = some (after, registers) ∧
      forall current, TablesKept kernelImage after current ->
        (forall vector software, vector < 256 -> entrance registers current vector software 3 =
          some ⟨kernelImage.handlers.handlerOf vector, KERNEL_CODE_SELECTOR, 0, 0x600000#32, Syscall.KERNEL_DATA_SELECTOR⟩) ∧
        forall iopl port, iopl < 3 -> (portPermitted registers.task current 3 iopl port = true ↔
          port.toNat < 832 ∧ port.toNat ≠ 53 ∧ port.toNat ≠ 54 ∧ port.toNat ≠ 68) :=
  archInitialize_protects kernelImage_apart _

end Interrupt
end LarvaOS
