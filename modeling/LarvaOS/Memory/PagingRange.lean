import LarvaOS.Memory.PagingRefinement

namespace LarvaOS
namespace Memory

/-!
# Mapping a range

`paging_map_virtual_memory` hands a range of pages to a loop that is left as
soon as one page is mapped.  On an address space every page of an admissible
range can be mapped, so the loop always ends in its first iteration.  The range
law below therefore holds only where the rest of the range happened to be
mapped already.
-/

/-- The arguments that pass the checks of `paging_map_virtual_memory`. -/
def RangeAccepted (virt phys physEnd : Word) : Prop :=
  virt.toNat % pagingPageSize = 0 ∧ phys.toNat % pagingPageSize = 0 ∧
    physEnd.toNat % pagingPageSize = 0 ∧ phys.toNat ≤ physEnd.toNat

instance (virt phys physEnd : Word) : Decidable (RangeAccepted virt phys physEnd) :=
  inferInstanceAs (Decidable (_ ∧ _))

/-- The number of pages from `phys` to `physEnd`. -/
def rangePages (phys physEnd : Word) : Nat := (physEnd.toNat - phys.toNat) / pagingPageSize

/-- The address `index` pages above `base`. -/
def pageAfter (base : Word) (index : Nat) : Word := base + BitVec.ofNat 32 (index * pagingPageSize)

/-- A range of pages that the caller may ask for. -/
structure RangeAsked (virt phys physEnd flags : Word) : Prop where
  accepted : RangeAccepted virt phys physEnd
  fits : virt.toNat + rangePages phys physEnd * pagingPageSize ≤ 2 ^ 32
  flagBits : flags.toNat < pagingPageSize

/-- What the call promises on a range of pages: it returns 0, maps every page
of the range, and leaves every other page alone. -/
def MapsRange (kernel : Kernel) (page virt phys physEnd flags : Word) : Prop :=
  let result := pagingMapVirtualMemory kernel page virt phys physEnd flags
  result.1 = 0 ∧
    (forall i, i < rangePages phys physEnd ->
      pagingGetEntryOfAddress result.2 page (pageAfter virt i) = (pageAfter phys i ||| flags)) ∧
    forall other : Word, other.toNat % pagingPageSize = 0 ->
      (forall i, i < rangePages phys physEnd -> other ≠ pageAfter virt i) ->
        pagingGetEntryOfAddress result.2 page other = pagingGetEntryOfAddress kernel page other

/-- What the call promises on arguments that it must refuse. -/
def RefusesRange (kernel : Kernel) (page virt phys physEnd flags : Word) : Prop :=
  let result := pagingMapVirtualMemory kernel page virt phys physEnd flags
  result.1 = -EINVAL ∧
    forall other : Word, pagingGetEntryOfAddress result.2 page other = pagingGetEntryOfAddress kernel page other

/-- The whole contract of `paging_map_virtual_memory` in one state. -/
def RangeLaw (kernel : Kernel) (page virt phys physEnd flags : Word) : Prop :=
  (RangeAsked virt phys physEnd flags -> MapsRange kernel page virt phys physEnd flags) ∧
    (¬ RangeAccepted virt phys physEnd -> RefusesRange kernel page virt phys physEnd flags)

/-- Every page of the range but the first has its entry already. -/
def RestMapped (kernel : Kernel) (page virt phys physEnd flags : Word) : Prop :=
  forall i, 1 ≤ i -> i < rangePages phys physEnd ->
    pagingGetEntryOfAddress kernel page (pageAfter virt i) = (pageAfter phys i ||| flags)

/-! ## Addresses of a range -/

theorem pageAfter_zero (base : Word) : pageAfter base 0 = base := by
  rw [pageAfter, Nat.zero_mul, BitVec.add_zero]

theorem toNat_pageAfter {base : Word} {index count : Nat} (inside : index < count)
    (fits : base.toNat + count * pagingPageSize ≤ 2 ^ 32) :
    (pageAfter base index).toNat = base.toNat + index * pagingPageSize := by
  rw [pageAfter, BitVec.toNat_add, BitVec.toNat_ofNat]
  unfold pagingPageSize at *
  omega

theorem pageAfter_aligned {base : Word} {index count : Nat} (inside : index < count)
    (fits : base.toNat + count * pagingPageSize ≤ 2 ^ 32) (aligned : base.toNat % pagingPageSize = 0) :
    (pageAfter base index).toNat % pagingPageSize = 0 := by
  rw [toNat_pageAfter inside fits]
  unfold pagingPageSize at *
  omega

theorem pageAfter_ne_base {base : Word} {index count : Nat} (positive : 1 ≤ index) (inside : index < count)
    (fits : base.toNat + count * pagingPageSize ≤ 2 ^ 32) : pageAfter base index ≠ base := by
  intro same
  have value := toNat_pageAfter inside fits
  rw [same] at value
  unfold pagingPageSize at *
  omega

/-! ## The call -/

theorem pagingMapVirtualMemory_rejected {kernel : Kernel} {page virt phys physEnd flags : Word}
    (rejected : ¬ RangeAccepted virt phys physEnd) :
    pagingMapVirtualMemory kernel page virt phys physEnd flags = (-EINVAL, kernel) := by
  unfold pagingMapVirtualMemory
  by_cases virtAligned : virt.toNat % pagingPageSize = 0
  · by_cases physAligned : phys.toNat % pagingPageSize = 0
    · by_cases endAligned : physEnd.toNat % pagingPageSize = 0
      · have reversed : physEnd.toNat < phys.toNat := by
          by_contra ordered
          exact rejected ⟨virtAligned, physAligned, endAligned, by omega⟩
        rw [if_neg (not_not.mpr virtAligned), if_neg (not_not.mpr physAligned), if_neg (not_not.mpr endAligned),
          if_pos reversed]
      · rw [if_neg (not_not.mpr virtAligned), if_neg (not_not.mpr physAligned), if_pos endAligned]
    · rw [if_neg (not_not.mpr virtAligned), if_pos physAligned]
  · rw [if_pos virtAligned]

theorem pagingMapVirtualMemory_accepted {kernel : Kernel} {page virt phys physEnd flags : Word}
    (accepted : RangeAccepted virt phys physEnd) :
    pagingMapVirtualMemory kernel page virt phys physEnd flags =
      pagingMapMemoryByRange page flags (rangePages phys physEnd) kernel virt phys 0 := by
  rcases accepted with ⟨virtAligned, physAligned, endAligned, ordered⟩
  have totalBytes : (physEnd - phys).toNat = physEnd.toNat - phys.toNat := BitVec.toNat_sub_of_le ordered
  unfold pagingMapVirtualMemory
  rw [if_neg (not_not.mpr virtAligned), if_neg (not_not.mpr physAligned), if_neg (not_not.mpr endAligned),
    if_neg (by omega), rangePages, ← totalBytes]

/-- The loop is left after a page that could be mapped, whatever remains. -/
theorem pagingMapMemoryByRange_first {page flags : Word} {kernel : Kernel} {virt phys : Word} {remaining : Nat}
    (mapped : (pagingMapPage kernel page virt phys flags).1 = 0) :
    pagingMapMemoryByRange page flags (remaining + 1) kernel virt phys 0 =
      (0, (pagingMapPage kernel page virt phys flags).2) := by
  rw [pagingMapMemoryByRange]
  simp only [mapped, if_true]

namespace Represents

variable {kernel : Kernel} {page bits : Word} {blocks : SpaceBlocks} {map : FlatMap}

/-- On an address space the call sets the entry of the first page of the
range, and of no other page. -/
theorem mapVirtualMemory (represents : Represents kernel page bits blocks map) (low : bits.toNat < 256)
    {virt phys physEnd : Word} (flags : Word) (accepted : RangeAccepted virt phys physEnd) :
    (pagingMapVirtualMemory kernel page virt phys physEnd flags).1 = 0 ∧
      Represents (pagingMapVirtualMemory kernel page virt phys physEnd flags).2 page bits blocks
        (if rangePages phys physEnd = 0 then map else Function.update map virt (phys ||| flags)) := by
  rw [pagingMapVirtualMemory_accepted accepted]
  have aligned : (PagingCall.mapPage virt phys flags).Aligned := ⟨accepted.1, accepted.2.1⟩
  have one := represents.run low (.mapPage virt phys flags)
  rw [if_pos aligned] at one
  cases rangePages phys physEnd with
  | zero => exact ⟨rfl, represents⟩
  | succ remaining =>
      rw [pagingMapMemoryByRange_first one.1]
      refine ⟨rfl, ?_⟩
      have after := one.2
      rw [PagingCall.apply, if_pos aligned] at after
      exact after

/-- The contract holds in a state exactly when the rest of an admissible range
is mapped already. -/
theorem rangeLaw_iff (represents : Represents kernel page bits blocks map) (low : bits.toNat < 256)
    (virt phys physEnd flags : Word) :
    RangeLaw kernel page virt phys physEnd flags ↔
      (RangeAsked virt phys physEnd flags -> RestMapped kernel page virt phys physEnd flags) := by
  constructor
  · rintro ⟨maps, _⟩ asked i positive inside
    have spec := represents.mapVirtualMemory low flags asked.accepted
    have aligned := pageAfter_aligned inside asked.fits asked.accepted.1
    have promised := (maps asked).2.1 i inside
    rw [spec.2.getEntry low aligned, if_neg (by omega),
      Function.update_of_ne (pageAfter_ne_base positive inside asked.fits)] at promised
    rw [represents.getEntry low aligned, promised]
  · refine fun rest => ⟨fun asked => ?_, fun rejected => ?_⟩
    · have spec := represents.mapVirtualMemory low flags asked.accepted
      refine ⟨spec.1, fun i inside => ?_, fun other aligned outside => ?_⟩
      · have aligned := pageAfter_aligned inside asked.fits asked.accepted.1
        rw [spec.2.getEntry low aligned, if_neg (by omega)]
        by_cases first : i = 0
        · rw [first, pageAfter_zero, pageAfter_zero, Function.update_self]
        · rw [Function.update_of_ne (pageAfter_ne_base (by omega) inside asked.fits),
            ← represents.getEntry low aligned]
          exact rest asked i (by omega) inside
      · rw [spec.2.getEntry low aligned, represents.getEntry low aligned]
        by_cases empty : rangePages phys physEnd = 0
        · rw [if_pos empty]
        · have different : other ≠ virt := by
            have first := outside 0 (by omega)
            rwa [pageAfter_zero] at first
          rw [if_neg empty, Function.update_of_ne different]
    · rw [RefusesRange, pagingMapVirtualMemory_rejected rejected]
      exact ⟨rfl, fun _ => rfl⟩

end Represents

/-- A new address space after any list of calls represents a flat map. -/
theorem newSpace_represents (kernel : Kernel) (placed : kernel.heap.WellPlaced) (flags : Byte)
    (made : (makeNew4GBVirtualMemoryAddressSpace kernel flags).1 ≠ 0#32) (calls : List PagingCall) :
    exists blocks, Represents
      (PagingCall.runAll (makeNew4GBVirtualMemoryAddressSpace kernel flags).1
        (makeNew4GBVirtualMemoryAddressSpace kernel flags).2 calls)
      (makeNew4GBVirtualMemoryAddressSpace kernel flags).1 (flags.setWidth 32) blocks
      (calls.foldl PagingCall.apply fun virt => virt ||| flags.setWidth 32) := by
  rcases makeNew4GB_spec placed flags made with ⟨blocks, space, identity, _⟩
  have placed' := ((Keeps.refl (fun _ => True) kernel).spaceMade placed flags).1.pool.wellPlaced placed
  exact ⟨blocks, (represents_identity placed' space identity).runAll (toNat_flags_lt flags) calls⟩

/-- In a new address space, after any list of calls, the contract of a range
call holds exactly when every page of the range but the first already has the
entry that the call should give it.  A range of at most one page meets this,
and so do arguments that are refused. -/
theorem rangeLaw_iff_restMapped (kernel : Kernel) (placed : kernel.heap.WellPlaced) (constructorFlags : Byte)
    (made : (makeNew4GBVirtualMemoryAddressSpace kernel constructorFlags).1 ≠ 0#32) (calls : List PagingCall)
    (virt phys physEnd flags : Word) :
    let page := (makeNew4GBVirtualMemoryAddressSpace kernel constructorFlags).1
    let before := PagingCall.runAll page (makeNew4GBVirtualMemoryAddressSpace kernel constructorFlags).2 calls
    RangeLaw before page virt phys physEnd flags ↔
      (RangeAsked virt phys physEnd flags -> RestMapped before page virt phys physEnd flags) := by
  rcases newSpace_represents kernel placed constructorFlags made calls with ⟨blocks, represents⟩
  exact represents.rangeLaw_iff (toNat_flags_lt constructorFlags) virt phys physEnd flags

/-- A kernel that has just created its heap. -/
abbrev bootKernel : Kernel := kheapInit (Kernel.loaded Store.blank (fun _ _ => 0) fun _ => 0) fun _ => 0

theorem bootKernel_placed : bootKernel.heap.WellPlaced :=
  (kheapInit_isKernelHeap (Kernel.loaded Store.blank (fun _ _ => 0) fun _ => 0) fun _ => 0).wellPlaced

theorem bootKernel_makesSpace (flags : Byte) :
    (makeNew4GBVirtualMemoryAddressSpace bootKernel flags).1 ≠ 0#32 := by
  have free := kheapInit_freeFrom (Kernel.loaded Store.blank (fun _ _ => 0) fun _ => 0) fun _ => 0
  exact (makeNew4GB_freeFrom bootKernel_placed flags free (by rw [kheapInit_heap]; decide)).1

/-- A program image of one page. -/
theorem rangeLaw_onePage :
    let page := (makeNew4GBVirtualMemoryAddressSpace bootKernel 0b101#8).1
    let before := PagingCall.runAll page (makeNew4GBVirtualMemoryAddressSpace bootKernel 0b101#8).2 []
    RangeLaw before page 0x400000#32 0x1500000#32 0x1501000#32 0b111#32 := by
  intro page before
  refine (rangeLaw_iff_restMapped bootKernel bootKernel_placed 0b101#8 (bootKernel_makesSpace _) [] 0x400000#32
    0x1500000#32 0x1501000#32 0b111#32).mpr fun _ i positive inside => ?_
  have single : rangePages 0x1500000#32 0x1501000#32 = 1 := by decide
  omega

/-- The second page of a program image of two pages is never mapped. -/
theorem rangeLaw_fails_twoPages :
    let page := (makeNew4GBVirtualMemoryAddressSpace bootKernel 0b101#8).1
    let before := PagingCall.runAll page (makeNew4GBVirtualMemoryAddressSpace bootKernel 0b101#8).2 []
    ¬ RangeLaw before page 0x400000#32 0x1500000#32 0x1502000#32 0b111#32 := by
  intro page before law
  rcases newSpace_represents bootKernel bootKernel_placed 0b101#8 (bootKernel_makesSpace _) [] with
    ⟨blocks, represents⟩
  have asked : RangeAsked 0x400000#32 0x1500000#32 0x1502000#32 0b111#32 :=
    ⟨by decide, by decide, by decide⟩
  have second := (represents.rangeLaw_iff (toNat_flags_lt _) _ _ _ _).mp law asked 1 (by decide) (by decide)
  rw [represents.getEntry (toNat_flags_lt _) (by decide)] at second
  exact absurd second (by decide)

end Memory
end LarvaOS
