import LarvaOS.Library.SegmentDescriptor
import LarvaOS.Machine.Word

namespace LarvaOS
namespace Gdt

open Library

/-!
# The runtime descriptor table

The kernel describes its segments by structured descriptors, and
`extract_structured_gdt` writes the table that the processor reads.  A limit
above `0x10000` is stored in pages, which only works when its low twelve bits are
set; for any other such limit the kernel stops, and the table has the value
`none`.  The two arrays of the source are apart, so the structured descriptors
are a list here, and the table is the memory from its first byte on.
-/

/-- `struct structured_segment_descriptor`. -/
structure StructuredSegmentDescriptor where
  base : Word
  limit : Word
  type : Byte
deriving DecidableEq

/-- The size of `struct segment_descriptor`. -/
def sizeofSegmentDescriptor : Nat := 8

/-- The memory of the table. -/
abbrev Table := Nat -> Byte

/-- The limits that `extract_structured_gdt_to_gdt` accepts. -/
def LimitAccepted (limit : Word) : Prop := ¬ (limit.toNat > 0x10000 ∧ limit &&& 0xFFF#32 ≠ 0xFFF#32)

instance (limit : Word) : Decidable (LimitAccepted limit) := inferInstanceAs (Decidable (¬ _))

/-- The bytes that `extract_structured_gdt_to_gdt` stores, with the limit in the
unit of the flags. -/
def storeFields (table : Table) (dst : Nat) (structuredGdt : StructuredSegmentDescriptor) (flags : Byte) (limit : Word) :
    Table :=
  let table := Function.update table (dst + 6) flags
  let table := Function.update table (dst + 0) ((limit &&& 0xFF#32).setWidth 8)
  let table := Function.update table (dst + 1) ((limit >>> 8 &&& 0xFF#32).setWidth 8)
  let table := Function.update table (dst + 6) (table (dst + 6) ||| (limit >>> 16 &&& 0x0F#32).setWidth 8)
  let table := Function.update table (dst + 2) ((structuredGdt.base &&& 0xFF#32).setWidth 8)
  let table := Function.update table (dst + 3) ((structuredGdt.base >>> 8 &&& 0xFF#32).setWidth 8)
  let table := Function.update table (dst + 4) ((structuredGdt.base >>> 16 &&& 0xFF#32).setWidth 8)
  let table := Function.update table (dst + 7) ((structuredGdt.base >>> 24 &&& 0xFF#32).setWidth 8)
  Function.update table (dst + 5) structuredGdt.type

/-- `extract_structured_gdt_to_gdt`. -/
def extractStructuredGdtToGdt (table : Table) (dst : Nat) (structuredGdt : StructuredSegmentDescriptor) :
    Option Table :=
  if ¬ LimitAccepted structuredGdt.limit then none
  else if structuredGdt.limit.toNat > 0x10000 then
    some (storeFields table dst structuredGdt 0xC0#8 (structuredGdt.limit >>> 12))
  else some (storeFields table dst structuredGdt 0x40#8 structuredGdt.limit)

/-- The loop of `extract_structured_gdt`, from an entry on. -/
def extractEntries : Nat -> Table -> List StructuredSegmentDescriptor -> Option Table
  | _, table, [] => some table
  | i, table, structuredGdt :: rest =>
      (extractStructuredGdtToGdt table (sizeofSegmentDescriptor * i) structuredGdt).bind fun table =>
        extractEntries (i + 1) table rest

/-- `extract_structured_gdt`. -/
def extractStructuredGdt (gdt : Table) (structuredGdt : List StructuredSegmentDescriptor) : Option Table :=
  extractEntries 0 gdt structuredGdt

/-- What the processor reads in an entry. -/
def entryOf (table : Table) (i : Nat) : SegmentDescriptor.Segment :=
  SegmentDescriptor.decode fun place => table (sizeofSegmentDescriptor * i + place)

/-- The segment that a structured descriptor asks for. -/
def StructuredSegmentDescriptor.segment (descriptor : StructuredSegmentDescriptor) : SegmentDescriptor.Segment :=
  ⟨descriptor.base, descriptor.limit, descriptor.type⟩

/-! ## One entry -/

/-- A byte of a word. -/
theorem byteOf_eq (value : Word) (shift : Nat) : (value >>> shift).setWidth 8 &&& 255#8 = value.extractLsb' shift 8 := by
  have mask : 255#8 = BitVec.allOnes 8 := rfl
  rw [mask, BitVec.and_allOnes, BitVec.setWidth_ushiftRight_eq_extractLsb]

theorem lowByte_eq (value : Word) : value.setWidth 8 &&& 255#8 = value.extractLsb' 0 8 := byteOf_eq value 0

/-- The byte that the limit shares with the flags. -/
theorem sharedByte_low (flags : Byte) (limit : Word) (clear : flags.extractLsb' 0 4 = 0#4) :
    (flags ||| (limit >>> 16 &&& 0x0F#32).setWidth 8).extractLsb' 0 4 = limit.extractLsb' 16 4 := by
  rw [BitVec.extractLsb'_or, clear, BitVec.zero_or]
  refine BitVec.eq_of_getLsbD_eq fun i inside => ?_
  have mask : (0x0F#32).getLsbD i = true := by
    revert i
    decide
  have low : i < 8 := by omega
  simp only [BitVec.getLsbD_extractLsb', BitVec.getLsbD_setWidth, BitVec.getLsbD_and, BitVec.getLsbD_ushiftRight,
    Nat.zero_add, mask, inside, low, decide_true, Bool.true_and, Bool.and_true]

theorem sharedByte_high (flags : Byte) (limit : Word) :
    (flags ||| (limit >>> 16 &&& 0x0F#32).setWidth 8).getLsbD 7 = flags.getLsbD 7 := by
  have mask : (0x0F#32).getLsbD 7 = false := by decide
  simp only [BitVec.getLsbD_or, BitVec.getLsbD_setWidth, BitVec.getLsbD_and, mask, Bool.and_false, Bool.or_false]

/-- Outside its eight bytes an entry changes nothing. -/
theorem storeFields_other (table : Table) {dst place : Nat} (structuredGdt : StructuredSegmentDescriptor) (flags : Byte)
    (limit : Word) (outside : place < dst ∨ dst + sizeofSegmentDescriptor ≤ place) :
    storeFields table dst structuredGdt flags limit place = table place := by
  unfold sizeofSegmentDescriptor at outside
  unfold storeFields
  have apart (offset : Nat) (inside : offset < 8) : place ≠ dst + offset := by omega
  rw [Function.update_of_ne (apart 5 (by decide)), Function.update_of_ne (apart 7 (by decide)),
    Function.update_of_ne (apart 4 (by decide)), Function.update_of_ne (apart 3 (by decide)),
    Function.update_of_ne (apart 2 (by decide)), Function.update_of_ne (apart 6 (by decide)),
    Function.update_of_ne (apart 1 (by decide)), Function.update_of_ne (apart 0 (by decide)),
    Function.update_of_ne (apart 6 (by decide))]

section Stored

variable (table : Table) (dst : Nat) (structuredGdt : StructuredSegmentDescriptor) (flags : Byte) (limit : Word)

theorem storeFields_base :
    SegmentDescriptor.base (fun place => storeFields table dst structuredGdt flags limit (dst + place)) =
      structuredGdt.base := by
  apply SegmentDescriptor.base_of_bytes
  · simp [storeFields, lowByte_eq]
  · simp [storeFields, byteOf_eq]
  · simp [storeFields, byteOf_eq]
  · simp [storeFields, byteOf_eq]

theorem storeFields_flags :
    storeFields table dst structuredGdt flags limit (dst + 6) = flags ||| (limit >>> 16 &&& 0x0F#32).setWidth 8 := by
  simp [storeFields]

theorem storeFields_access :
    SegmentDescriptor.access (fun place => storeFields table dst structuredGdt flags limit (dst + place)) =
      structuredGdt.type := Function.update_self _ _ _

theorem storeFields_limitField (clear : flags.extractLsb' 0 4 = 0#4) :
    SegmentDescriptor.limitField (fun place => storeFields table dst structuredGdt flags limit (dst + place)) =
      limit.setWidth 20 := by
  apply SegmentDescriptor.limitField_of_bytes
  · simp [storeFields, lowByte_eq]
  · simp [storeFields, byteOf_eq]
  · rw [storeFields_flags]
    exact sharedByte_low flags limit clear

theorem storeFields_granularity :
    SegmentDescriptor.granularity (fun place => storeFields table dst structuredGdt flags limit (dst + place)) =
      flags.getLsbD 7 := by
  change (storeFields table dst structuredGdt flags limit (dst + 6)).getLsbD 7 = _
  rw [storeFields_flags]
  exact sharedByte_high flags limit

end Stored

/-- A limit in pages, with its low bits set. -/
theorem limit_of_pages {limit : Word} (full : limit &&& 0xFFF#32 = 0xFFF#32) :
    ((limit >>> 12).setWidth 20).setWidth 32 <<< 12 ||| 0xFFF#32 = limit := by
  refine BitVec.eq_of_getLsbD_eq fun i inside => ?_
  simp only [BitVec.getLsbD_or, BitVec.getLsbD_shiftLeft, BitVec.getLsbD_setWidth, BitVec.getLsbD_ushiftRight]
  have bit := congrArg (fun value : Word => value.getLsbD i) full
  simp only [BitVec.getLsbD_and] at bit
  clear full
  by_cases low : i < 12
  · have mask : (0xFFF#32).getLsbD i = true := by
      clear bit
      revert i
      decide
    rw [mask, Bool.and_true] at bit
    rw [mask, bit, Bool.or_true]
  · have mask : (0xFFF#32).getLsbD i = false := by
      clear bit
      revert i
      decide
    have high : i - 12 < 20 := by omega
    have place : 12 + (i - 12) = i := by omega
    have small : i - 12 < 32 := by omega
    simp only [mask, low, inside, high, small, place, decide_true, decide_false, Bool.not_false, Bool.true_and,
      Bool.or_false]

/-- A limit in bytes. -/
theorem limit_of_bytes {limit : Word} (small : limit.toNat ≤ 0x10000) : (limit.setWidth 20).setWidth 32 = limit := by
  apply BitVec.eq_of_toNat_eq
  rw [BitVec.toNat_setWidth, BitVec.toNat_setWidth]
  omega

/-- An accepted descriptor is stored, its segment is the one that was asked for,
and no other byte of the table has changed. -/
theorem extractStructuredGdtToGdt_spec (table : Table) (dst : Nat) {structuredGdt : StructuredSegmentDescriptor}
    (accepted : LimitAccepted structuredGdt.limit) :
    exists after, extractStructuredGdtToGdt table dst structuredGdt = some after ∧
      SegmentDescriptor.decode (fun place => after (dst + place)) = structuredGdt.segment ∧
      forall place, place < dst ∨ dst + sizeofSegmentDescriptor ≤ place -> after place = table place := by
  unfold extractStructuredGdtToGdt
  rw [if_neg (not_not_intro accepted)]
  by_cases pages : structuredGdt.limit.toNat > 0x10000
  · rw [if_pos pages]
    refine ⟨_, rfl, ?_, fun place outside => storeFields_other table structuredGdt _ _ outside⟩
    have full : structuredGdt.limit &&& 0xFFF#32 = 0xFFF#32 := by
      by_contra short
      exact accepted ⟨pages, short⟩
    unfold SegmentDescriptor.decode StructuredSegmentDescriptor.segment SegmentDescriptor.limit
    rw [storeFields_base, storeFields_access, storeFields_granularity, storeFields_limitField _ _ _ _ _ (by decide),
      if_pos (by decide), limit_of_pages full]
  · rw [if_neg pages]
    refine ⟨_, rfl, ?_, fun place outside => storeFields_other table structuredGdt _ _ outside⟩
    unfold SegmentDescriptor.decode StructuredSegmentDescriptor.segment SegmentDescriptor.limit
    rw [storeFields_base, storeFields_access, storeFields_granularity, storeFields_limitField _ _ _ _ _ (by decide),
      if_neg (by decide), limit_of_bytes (Nat.not_lt.mp pages)]

/-! ## The whole table -/

theorem extractEntries_spec (i : Nat) (table : Table) {structuredGdt : List StructuredSegmentDescriptor}
    (accepted : forall descriptor, descriptor ∈ structuredGdt -> LimitAccepted descriptor.limit) :
    exists after, extractEntries i table structuredGdt = some after ∧
      (forall index descriptor, structuredGdt[index]? = some descriptor ->
        entryOf after (i + index) = descriptor.segment) ∧
      forall place, place < sizeofSegmentDescriptor * i ∨
        sizeofSegmentDescriptor * (i + structuredGdt.length) ≤ place -> after place = table place := by
  induction structuredGdt generalizing i table with
  | nil =>
      refine ⟨table, rfl, fun index descriptor found => ?_, fun _ _ => rfl⟩
      rw [List.getElem?_nil] at found
      cases found
  | cons descriptor rest inductionHypothesis =>
      rcases extractStructuredGdtToGdt_spec table (sizeofSegmentDescriptor * i) (accepted descriptor List.mem_cons_self)
        with ⟨stored, stores, decoded, other⟩
      rcases inductionHypothesis (i + 1) stored (fun later member => accepted later (List.mem_cons_of_mem _ member)) with
        ⟨after, extracts, entries, outside⟩
      refine ⟨after, ?_, ?_, ?_⟩
      · rw [extractEntries, stores]
        exact extracts
      · intro index wanted found
        cases index with
        | zero =>
            obtain rfl := Option.some.inj found
            rw [← decoded]
            refine SegmentDescriptor.decode_congr fun place inside => outside _ (Or.inl ?_)
            unfold sizeofSegmentDescriptor
            omega
        | succ index =>
            have later := entries index wanted found
            rwa [Nat.add_assoc, Nat.add_comm 1 index] at later
      · intro place apart
        rw [List.length_cons] at apart
        unfold sizeofSegmentDescriptor at *
        rw [outside place (by omega), other place (by omega)]

/-- For every array whose limits are accepted: each entry of the table decodes to
its descriptor, and storing one entry leaves every other byte of the table as it
was. -/
theorem extractStructuredGdt_decodes (gdt : Table) (structuredGdt : List StructuredSegmentDescriptor)
    (accepted : forall descriptor, descriptor ∈ structuredGdt -> LimitAccepted descriptor.limit) :
    (exists after, extractStructuredGdt gdt structuredGdt = some after ∧
      (forall index descriptor, structuredGdt[index]? = some descriptor -> entryOf after index = descriptor.segment) ∧
      forall place, sizeofSegmentDescriptor * structuredGdt.length ≤ place -> after place = gdt place) ∧
    forall table index descriptor after, structuredGdt[index]? = some descriptor ->
      extractStructuredGdtToGdt table (sizeofSegmentDescriptor * index) descriptor = some after ->
        forall place, place / sizeofSegmentDescriptor ≠ index -> after place = table place := by
  constructor
  · rcases extractEntries_spec 0 gdt accepted with ⟨after, extracts, entries, outside⟩
    refine ⟨after, extracts, fun index descriptor found => ?_, fun place beyond => outside place (Or.inr ?_)⟩
    · rw [← entries index descriptor found, Nat.zero_add]
    · rwa [Nat.zero_add]
  · intro table index descriptor after found stores place different
    rcases extractStructuredGdtToGdt_spec table (sizeofSegmentDescriptor * index)
      (accepted descriptor (List.mem_of_getElem? found)) with ⟨stored, same, _, other⟩
    obtain rfl := Option.some.inj (same.symm.trans stores)
    apply other
    unfold sizeofSegmentDescriptor at *
    omega

/-- The null descriptor, and a code segment over all of memory. -/
def flatSegments : List StructuredSegmentDescriptor := [⟨0#32, 0#32, 0#8⟩, ⟨0#32, 0xFFFFFFFF#32, 0x9A#8⟩]

theorem extractStructuredGdt_decodes_flat :
    (exists after, extractStructuredGdt (fun _ => 0#8) flatSegments = some after ∧
      (forall index descriptor, flatSegments[index]? = some descriptor -> entryOf after index = descriptor.segment) ∧
      forall place, sizeofSegmentDescriptor * flatSegments.length ≤ place -> after place = 0#8) ∧
    forall table index descriptor after, flatSegments[index]? = some descriptor ->
      extractStructuredGdtToGdt table (sizeofSegmentDescriptor * index) descriptor = some after ->
        forall place, place / sizeofSegmentDescriptor ≠ index -> after place = table place :=
  extractStructuredGdt_decodes (fun _ => 0#8) flatSegments (by decide)

end Gdt
end LarvaOS
