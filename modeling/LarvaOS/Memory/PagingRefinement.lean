import LarvaOS.Library.PageWalk
import LarvaOS.Memory.PagingSpec

namespace LarvaOS
namespace Memory

open Library

/-!
# An address space is a flat map of pages

The two levels of tables implement a map from page addresses to entries.  The
abstract map is updated by a call whose addresses are aligned, and is left
alone by any other call.  `Represents` relates the two, every call preserves
it, and the lookup of an entry is the lookup in the map.
-/

/-- The abstract address space. -/
abbrev FlatMap := Word -> Word

/-- The calls that set an entry. -/
inductive PagingCall where
  | mapPage (virt phys flags : Word)
  | setEntry (virtualAddress val : Word)
deriving DecidableEq

namespace PagingCall

/-- The call, on the address space of `page`. -/
def run (page : Word) (kernel : Kernel) : PagingCall -> Int × Kernel
  | .mapPage virt phys flags => pagingMapPage kernel page virt phys flags
  | .setEntry virtualAddress val => pagingSetEntryForVirtualAddress kernel page virtualAddress val

/-- The kernel after a list of calls. -/
def runAll (page : Word) (kernel : Kernel) (calls : List PagingCall) : Kernel :=
  calls.foldl (fun kernel call => (call.run page kernel).2) kernel

/-- Every address that the call is given is page aligned. -/
def Aligned : PagingCall -> Prop
  | .mapPage virt phys _ => virt.toNat % pagingPageSize = 0 ∧ phys.toNat % pagingPageSize = 0
  | .setEntry virtualAddress _ => virtualAddress.toNat % pagingPageSize = 0

instance : DecidablePred Aligned
  | .mapPage _ _ _ => inferInstanceAs (Decidable (_ ∧ _))
  | .setEntry _ _ => inferInstanceAs (Decidable (_ = _))

def virtualAddress : PagingCall -> Word
  | .mapPage virt _ _ => virt
  | .setEntry virtualAddress _ => virtualAddress

/-- The entry that the call writes. -/
def value : PagingCall -> Word
  | .mapPage _ phys flags => phys ||| flags
  | .setEntry _ val => val

/-- The effect of a call on the abstract address space. -/
def apply (map : FlatMap) (call : PagingCall) : FlatMap :=
  if call.Aligned then Function.update map call.virtualAddress call.value else map

/-- The value of the last aligned call for an address. -/
def lastValue (calls : List PagingCall) (virt : Word) : Option Word :=
  calls.reverse.findSome? fun call =>
    if call.Aligned ∧ call.virtualAddress = virt then some call.value else none

/-- The abstract address space remembers the last value of each page. -/
theorem foldl_apply (map : FlatMap) (calls : List PagingCall) (virt : Word) :
    calls.foldl apply map virt = (lastValue calls virt).getD (map virt) := by
  induction calls generalizing map with
  | nil => rfl
  | cons call calls inductionHypothesis =>
      rw [List.foldl_cons, inductionHypothesis, lastValue, lastValue, List.reverse_cons, List.findSome?_append]
      cases calls.reverse.findSome? fun call =>
          if call.Aligned ∧ call.virtualAddress = virt then some call.value else none with
      | some later => rfl
      | none =>
          unfold apply
          by_cases aligned : call.Aligned
          · by_cases here : call.virtualAddress = virt
            · subst here
              simp [aligned]
            · simp [aligned, here, Function.update_of_ne (Ne.symm here)]
          · simp [aligned]

end PagingCall

/-! ## The lookup -/

/-- The word that holds the entry of a page. -/
def SpaceBlocks.entryAddress (blocks : SpaceBlocks) (heap : Heap) (virt : Word) : Word :=
  wordAt (heap.addressOf (blocks.table (virt.toNat / (pagingTotalEntriesPerTable * pagingPageSize))))
    (virt.toNat % (pagingTotalEntriesPerTable * pagingPageSize) / pagingPageSize)

theorem directoryIndex_lt (virt : Word) : virt.toNat / (pagingTotalEntriesPerTable * pagingPageSize) < 1024 :=
  PageWalk.directoryIndex_lt virt

theorem tableIndex_lt (virt : Word) :
    virt.toNat % (pagingTotalEntriesPerTable * pagingPageSize) / pagingPageSize < 1024 := PageWalk.tableIndex_lt virt

theorem pagingGetIndexes_aligned {virt : Word} (aligned : virt.toNat % pagingPageSize = 0) :
    pagingGetIndexes virt =
      (0, virt.toNat / (pagingTotalEntriesPerTable * pagingPageSize),
        virt.toNat % (pagingTotalEntriesPerTable * pagingPageSize) / pagingPageSize) := by
  have check : pagingCheckAddressIsAligned virt = true := beq_iff_eq.mpr aligned
  rw [pagingGetIndexes, check]
  rfl

namespace SpaceAt

variable {kernel : Kernel} {page flags : Word} {blocks : SpaceBlocks}

theorem getEntry (space : SpaceAt kernel page flags blocks) (placed : kernel.heap.WellPlaced)
    (low : flags.toNat < 256) {virt : Word} (aligned : virt.toNat % pagingPageSize = 0) :
    pagingGetEntryOfAddress kernel page virt = kernel.words (blocks.entryAddress kernel.heap virt) := by
  unfold pagingGetEntryOfAddress
  simp only [pagingGetIndexes_aligned aligned]
  rw [space.tablePointer placed low (directoryIndex_lt virt)]
  rfl

theorem setEntry (space : SpaceAt kernel page flags blocks) (placed : kernel.heap.WellPlaced)
    (low : flags.toNat < 256) {virt : Word} (aligned : virt.toNat % pagingPageSize = 0) (val : Word) :
    pagingSetEntryForVirtualAddress kernel page virt val =
      (0, storeWord kernel (blocks.entryAddress kernel.heap virt) val) := by
  have check : pagingCheckAddressIsAligned virt = true := beq_iff_eq.mpr aligned
  unfold pagingSetEntryForVirtualAddress
  simp only [check, pagingGetIndexes_aligned aligned]
  rw [space.tablePointer placed low (directoryIndex_lt virt)]
  rfl

/-- Different pages have their entries in different words. -/
theorem entryAddress_injective (space : SpaceAt kernel page flags blocks) (placed : kernel.heap.WellPlaced)
    {left right : Word} (leftAligned : left.toNat % pagingPageSize = 0)
    (rightAligned : right.toNat % pagingPageSize = 0)
    (same : blocks.entryAddress kernel.heap left = blocks.entryAddress kernel.heap right) : left = right := by
  have leftTable := space.tableOwned (directoryIndex_lt left)
  have rightTable := space.tableOwned (directoryIndex_lt right)
  have sameTable : blocks.table (left.toNat / (pagingTotalEntriesPerTable * pagingPageSize)) =
      blocks.table (right.toNat / (pagingTotalEntriesPerTable * pagingPageSize)) := by
    by_contra different
    exact wordAt_ne placed leftTable rightTable different (tableIndex_lt left) (tableIndex_lt right) same
  have directory := space.injective _ _ (directoryIndex_lt left) (directoryIndex_lt right) sameTable
  rw [SpaceBlocks.entryAddress, SpaceBlocks.entryAddress, sameTable] at same
  have index := wordAt_injective (tableIndex_lt left) (tableIndex_lt right) same
  apply BitVec.eq_of_toNat_eq
  unfold pagingTotalEntriesPerTable pagingPageSize at *
  omega

/-- A store to a table entry leaves the pages of the address space in place. -/
theorem storeEntry (space : SpaceAt kernel page flags blocks) (placed : kernel.heap.WellPlaced)
    (virt val : Word) :
    SpaceAt (storeWord kernel (blocks.entryAddress kernel.heap virt) val) page flags blocks := by
  have tableOwned := space.tableOwned (directoryIndex_lt virt)
  have notChunk : page ≠ blocks.entryAddress kernel.heap virt := by
    have different := wordAt_ne placed space.chunkOwned tableOwned
      (space.chunkApart.2 _ (directoryIndex_lt virt)) (show 0 < 1024 by decide) (tableIndex_lt virt)
    rw [← space.pageAddress, wordAt, BitVec.add_zero] at different
    exact different
  have notDirectory (i : Nat) (inside : i < 1024) :
      wordAt (kernel.heap.addressOf blocks.directory) i ≠ blocks.entryAddress kernel.heap virt :=
    wordAt_ne placed space.directoryOwned tableOwned (space.directoryApart _ (directoryIndex_lt virt)) inside
      (tableIndex_lt virt)
  exact
    { pageAddress := space.pageAddress
      owned := space.owned
      chunkApart := space.chunkApart
      directoryApart := space.directoryApart
      injective := space.injective
      chunkWord := (Function.update_of_ne notChunk _ _).trans space.chunkWord
      directoryWord := fun i inside =>
        (Function.update_of_ne (notDirectory i inside) _ _).trans (space.directoryWord i inside) }

end SpaceAt

theorem SpaceAt.run_aligned {kernel : Kernel} {page flags : Word} {blocks : SpaceBlocks}
    (space : SpaceAt kernel page flags blocks) (placed : kernel.heap.WellPlaced) (low : flags.toNat < 256)
    {call : PagingCall} (aligned : call.Aligned) :
    call.run page kernel =
      (0, storeWord kernel (blocks.entryAddress kernel.heap call.virtualAddress) call.value) := by
  cases call with
  | mapPage virt phys bits =>
      have both : virt.toNat % pagingPageSize = 0 ∧ phys.toNat % pagingPageSize = 0 := aligned
      rw [PagingCall.run, pagingMapPage, if_neg (by omega), space.setEntry placed low both.1]
      rfl
  | setEntry virtualAddress val => exact space.setEntry placed low aligned val

/-- A call with an unaligned address changes nothing at all. -/
theorem PagingCall.run_unaligned {kernel : Kernel} {page : Word} {call : PagingCall} (unaligned : ¬ call.Aligned) :
    call.run page kernel = (-EINVAL, kernel) := by
  cases call with
  | mapPage virt phys bits =>
      have either : ¬ (virt.toNat % pagingPageSize = 0 ∧ phys.toNat % pagingPageSize = 0) := unaligned
      rw [PagingCall.run, pagingMapPage, if_pos (by omega)]
  | setEntry virtualAddress val =>
      have failed : pagingCheckAddressIsAligned virtualAddress = false := beq_eq_false_iff_ne.mpr unaligned
      rw [PagingCall.run, pagingSetEntryForVirtualAddress, failed]
      rfl

/-! ## Refinement -/

/-- The address space of `page` represents the abstract map. -/
structure Represents (kernel : Kernel) (page flags : Word) (blocks : SpaceBlocks) (map : FlatMap) : Prop where
  placed : kernel.heap.WellPlaced
  space : SpaceAt kernel page flags blocks
  entries : forall virt : Word, virt.toNat % pagingPageSize = 0 ->
    kernel.words (blocks.entryAddress kernel.heap virt) = map virt

namespace Represents

variable {kernel : Kernel} {page flags : Word} {blocks : SpaceBlocks} {map : FlatMap}

theorem getEntry (represents : Represents kernel page flags blocks map) (low : flags.toNat < 256) {virt : Word}
    (aligned : virt.toNat % pagingPageSize = 0) : pagingGetEntryOfAddress kernel page virt = map virt :=
  (represents.space.getEntry represents.placed low aligned).trans (represents.entries virt aligned)

theorem storeEntry (represents : Represents kernel page flags blocks map) {virt : Word}
    (aligned : virt.toNat % pagingPageSize = 0) (val : Word) :
    Represents (storeWord kernel (blocks.entryAddress kernel.heap virt) val) page flags blocks
      (Function.update map virt val) where
  placed := represents.placed
  space := represents.space.storeEntry represents.placed virt val
  entries := by
    intro other otherAligned
    rw [storeWord_words, storeWord_heap]
    by_cases same : other = virt
    · rw [same, Function.update_self, Function.update_self]
    · have different : blocks.entryAddress kernel.heap other ≠ blocks.entryAddress kernel.heap virt := fun equal =>
        same (represents.space.entryAddress_injective represents.placed otherAligned aligned equal)
      rw [Function.update_of_ne different, Function.update_of_ne same]
      exact represents.entries other otherAligned

/-- The return value of a call, and its simulation by the abstract map. -/
theorem run (represents : Represents kernel page flags blocks map) (low : flags.toNat < 256) (call : PagingCall) :
    (call.run page kernel).1 = (if call.Aligned then 0 else -EINVAL) ∧
      Represents (call.run page kernel).2 page flags blocks (call.apply map) := by
  unfold PagingCall.apply
  by_cases aligned : call.Aligned
  · rw [if_pos aligned, if_pos aligned, represents.space.run_aligned represents.placed low aligned]
    refine ⟨rfl, represents.storeEntry ?_ _⟩
    cases call with
    | mapPage virt phys bits => exact aligned.1
    | setEntry virtualAddress val => exact aligned
  · rw [if_neg aligned, if_neg aligned, PagingCall.run_unaligned aligned]
    exact ⟨rfl, represents⟩

theorem runAll (represents : Represents kernel page flags blocks map) (low : flags.toNat < 256)
    (calls : List PagingCall) :
    Represents (PagingCall.runAll page kernel calls) page flags blocks (calls.foldl PagingCall.apply map) := by
  induction calls generalizing kernel map with
  | nil => exact represents
  | cons call calls inductionHypothesis => exact inductionHypothesis (represents.run low call).2

end Represents

/-- A new address space represents the identity map under its flags. -/
theorem represents_identity {kernel : Kernel} {page flags : Word} {blocks : SpaceBlocks}
    (placed : kernel.heap.WellPlaced) (space : SpaceAt kernel page flags blocks)
    (identity : IdentityMapped kernel flags blocks) :
    Represents kernel page flags blocks (fun virt => virt ||| flags) where
  placed := placed
  space := space
  entries := by
    intro virt aligned
    rw [SpaceBlocks.entryAddress, identity _ _ (directoryIndex_lt virt) (tableIndex_lt virt)]
    have joined : virt.toNat / (pagingTotalEntriesPerTable * pagingPageSize) *
          (pagingTotalEntriesPerTable * pagingPageSize) +
        virt.toNat % (pagingTotalEntriesPerTable * pagingPageSize) / pagingPageSize * pagingPageSize =
          virt.toNat := by
      unfold pagingTotalEntriesPerTable pagingPageSize at *
      omega
    rw [joined, BitVec.ofNat_toNat, BitVec.setWidth_eq]

theorem toNat_flags_lt (flags : Byte) : (flags.setWidth 32).toNat < 256 := by
  have bound := flags.isLt
  rw [BitVec.toNat_setWidth]
  omega

/-- After any list of calls on a new address space, the entry of a page is the
value of the last aligned call for it, or else the page with the constructor's
flags.  An aligned call returns 0, and any other call returns `-EINVAL` and
changes no entry. -/
theorem addressSpace_refines_flatMap (kernel : Kernel) (placed : kernel.heap.WellPlaced) (flags : Byte)
    (made : (makeNew4GBVirtualMemoryAddressSpace kernel flags).1 ≠ 0#32) (calls : List PagingCall) :
    let page := (makeNew4GBVirtualMemoryAddressSpace kernel flags).1
    let after := PagingCall.runAll page (makeNew4GBVirtualMemoryAddressSpace kernel flags).2 calls
    (forall virt : Word, virt.toNat % pagingPageSize = 0 ->
      pagingGetEntryOfAddress after page virt =
        (PagingCall.lastValue calls virt).getD (virt ||| flags.setWidth 32)) ∧
    forall call : PagingCall,
      (call.Aligned -> (call.run page after).1 = 0) ∧
      (¬ call.Aligned -> (call.run page after).1 = -EINVAL ∧
        forall virt : Word, pagingGetEntryOfAddress (call.run page after).2 page virt =
          pagingGetEntryOfAddress after page virt) := by
  rcases makeNew4GB_spec placed flags made with ⟨blocks, space, identity, _⟩
  have placed' := ((Keeps.refl (fun _ => True) kernel).spaceMade placed flags).1.pool.wellPlaced placed
  have low := toNat_flags_lt flags
  have represents := (represents_identity placed' space identity).runAll low calls
  refine ⟨fun virt aligned => ?_, fun call => ⟨fun aligned => ?_, fun unaligned => ?_⟩⟩
  · rw [represents.getEntry low aligned]
    exact PagingCall.foldl_apply _ calls virt
  · rw [(represents.run low call).1, if_pos aligned]
  · rw [PagingCall.run_unaligned unaligned]
    exact ⟨rfl, fun _ => rfl⟩

/-- The kernel's own address space, after a user page was mapped and a call
with an unaligned address failed. -/
theorem addressSpace_refines_flatMap_kernel :
    let kernel := kheapInit (Kernel.loaded Store.blank (fun _ _ => 0) fun _ => 0) fun _ => 0
    let made := makeNew4GBVirtualMemoryAddressSpace kernel 0b111#8
    let calls := [.mapPage 0x400000#32 0x1500000#32 0b111#32, .setEntry 0x400001#32 0#32]
    pagingGetEntryOfAddress (PagingCall.runAll made.1 made.2 calls) made.1 0x400000#32 = 0x1500007#32 := by
  intro kernel made calls
  have placed := (kheapInit_isKernelHeap (Kernel.loaded Store.blank (fun _ _ => 0) fun _ => 0) fun _ => 0).wellPlaced
  have free := kheapInit_freeFrom (Kernel.loaded Store.blank (fun _ _ => 0) fun _ => 0) fun _ => 0
  have room := (makeNew4GB_freeFrom placed 0b111#8 free (by rw [kheapInit_heap]; decide)).1
  exact ((addressSpace_refines_flatMap kernel placed 0b111#8 room calls).1 0x400000#32 (by decide)).trans (by decide)

end Memory
end LarvaOS
