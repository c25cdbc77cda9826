import LarvaOS.Memory.FreeBlocks
import LarvaOS.Memory.PagingRefinement
import LarvaOS.Memory.Requests

namespace LarvaOS
namespace Memory

open Library

/-!
# The release of an address space

The constructor takes 1026 blocks that were free and changes no other entry of
the table, and the address space refers to 1026 different blocks which were free
before.  The two sets have the same number of elements, so they are the same.
Calls that set entries store to the tables only, hence the release finds the
tables again under the flags, and it gives back what the constructor took.
-/

/-! ## Blocks that are taken -/

/-- The only entries that changed are those of free blocks, which were taken. -/
def Takes (before after : Heap) : Prop :=
  forall j : Int, after.table.entries j = before.table.entries j ∨
    exists block : Nat, j = block ∧ block < before.table.total.toNat ∧
      BlockFree before.table.entries block ∧ ¬ BlockFree after.table.entries block

namespace Takes

variable {first before after : Heap}

theorem refl (heap : Heap) : Takes heap heap := fun _ => Or.inl rfl

/-- A block that is free was free before. -/
theorem free (takes : Takes before after) {block : Nat} (isFree : BlockFree after.table.entries block) :
    BlockFree before.table.entries block := by
  rcases takes block with same | ⟨block', place, _, _, taken⟩
  · unfold BlockFree at *
    rwa [same] at isFree
  · rw [Int.natCast_inj.mp place] at isFree
    exact absurd isFree taken

theorem trans (left : Takes first before) (right : Takes before after) (pool : first.SamePool before) :
    Takes first after := by
  intro j
  rcases right j with same | ⟨block, rfl, inside, wasFree, taken⟩
  · rcases left j with same' | ⟨block, rfl, inside, wasFree, taken⟩
    · exact Or.inl (same.trans same')
    · refine Or.inr ⟨block, rfl, inside, wasFree, ?_⟩
      unfold BlockFree at *
      rwa [same]
  · refine Or.inr ⟨block, rfl, ?_, left.free wasFree, taken⟩
    rwa [pool.total] at inside

end Takes

theorem takes_kzalloc {kernel : Kernel} (placed : kernel.heap.WellPlaced) (size : Word) :
    Takes kernel.heap (kzalloc kernel size).2.heap := by
  rcases kzalloc_cases placed size with ⟨extent, hands, result⟩ | ⟨_, result⟩
  · intro j
    rw [result]
    change markExtent kernel.heap.table.entries extent j = _ ∨ _
    by_cases inside : (extent.first : Int) ≤ j ∧ j < extent.first + extent.count
    · rcases Int.eq_ofNat_of_zero_le (show 0 ≤ j by omega) with ⟨block, rfl⟩
      have covered : extent.Covers block := ⟨by omega, by omega⟩
      have within := hands.within
      refine Or.inr ⟨block, rfl, by omega, ?_, fun isFree => ?_⟩
      · refine hands.fits.2 block covered.1 ?_
        rw [← hands.count]
        exact covered.2
      · exact (blockFree_markExtent.mp isFree).1 covered
    · exact Or.inl (if_neg inside)
  · rw [result]
    exact Takes.refl kernel.heap

/-- The tables are taken. -/
theorem takes_makeTables {kernel : Kernel} (placed : kernel.heap.WellPlaced) (directory flags : Word) {count : Nat}
    (bound : count ≤ 1024) : Takes kernel.heap (makeTables directory flags kernel count).1.heap := by
  induction count with
  | zero => exact Takes.refl kernel.heap
  | succ count inductionHypothesis =>
      have kept := (Keeps.refl (fun _ => False) kernel).tablesMade placed (freshRange_unguarded kernel directory) flags
        (show count ≤ 1024 by omega)
      have one := takes_kzalloc (kept.pool.wellPlaced placed) tableSize
      rw [makeTables, makeTable_heap]
      exact (inductionHypothesis (by omega)).trans one kept.pool

/-- The constructor takes free blocks and changes no other entry. -/
theorem takes_makeNew4GB {kernel : Kernel} (placed : kernel.heap.WellPlaced) (flags : Byte) :
    Takes kernel.heap (makeNew4GBVirtualMemoryAddressSpace kernel flags).2.heap := by
  have directoryPool := (keeps_kzalloc (fun _ => False) placed tableSize).pool
  have directoryPlaced := directoryPool.wellPlaced placed
  have tables := takes_makeTables directoryPlaced (kzalloc kernel tableSize).1 (flags.setWidth 32)
    (Nat.le_refl pagingTotalEntriesPerTable)
  have tablesPool := ((Keeps.refl (fun _ => False) (kzalloc kernel tableSize).2).tablesMade directoryPlaced
    (freshRange_unguarded (kzalloc kernel tableSize).2 (kzalloc kernel tableSize).1) (flags.setWidth 32)
    (Nat.le_refl pagingTotalEntriesPerTable)).pool
  have chunk := takes_kzalloc (tablesPool.wellPlaced directoryPlaced) 4#32
  have directory := takes_kzalloc placed tableSize
  rw [makeNew4GBVirtualMemoryAddressSpace, makeChunk, storeWord_heap]
  exact (directory.trans tables directoryPool).trans chunk (directoryPool.trans tablesPool)

/-! ## The blocks of an address space -/

/-- The blocks that were free and are not any more. -/
def takenBlocks (before after : Heap) : Finset Nat :=
  (Finset.range before.table.total.toNat).filter fun block =>
    BlockFree before.table.entries block ∧ ¬ BlockFree after.table.entries block

theorem mem_takenBlocks {before after : Heap} {block : Nat} :
    block ∈ takenBlocks before after ↔ block < before.table.total.toNat ∧
      BlockFree before.table.entries block ∧ ¬ BlockFree after.table.entries block := by
  rw [takenBlocks, Finset.mem_filter, Finset.mem_range]

theorem Takes.card {before after : Heap} (takes : Takes before after) (pool : before.SamePool after) :
    after.freeBlocks + (takenBlocks before after).card = before.freeBlocks := by
  unfold Heap.freeBlocks takenBlocks
  rw [pool.total]
  exact freeCells_lost fun _ => takes.free

/-- All blocks of an address space. -/
def SpaceBlocks.all (blocks : SpaceBlocks) : Finset Nat :=
  insert blocks.chunk (insert blocks.directory ((Finset.range 1024).image blocks.table))

theorem SpaceBlocks.mem_all {blocks : SpaceBlocks} {block : Nat} : block ∈ blocks.all ↔ blocks.Has block := by
  rw [all, Finset.mem_insert, Finset.mem_insert, Finset.mem_image]
  constructor
  · rintro (isChunk | isDirectory | ⟨i, inside, same⟩)
    · exact Or.inl isChunk
    · exact Or.inr (Or.inl isDirectory)
    · exact Or.inr (Or.inr ⟨i, Finset.mem_range.mp inside, same.symm⟩)
  · rintro (isChunk | isDirectory | ⟨i, inside, same⟩)
    · exact Or.inl isChunk
    · exact Or.inr (Or.inl isDirectory)
    · exact Or.inr (Or.inr ⟨i, Finset.mem_range.mpr inside, same.symm⟩)

theorem SpaceAt.card_all {kernel : Kernel} {page flags : Word} {blocks : SpaceBlocks}
    (space : SpaceAt kernel page flags blocks) : blocks.all.card = 1026 := by
  have tables : ((Finset.range 1024).image blocks.table).card = 1024 := by
    rw [Finset.card_image_of_injOn, Finset.card_range]
    intro i iInside j jInside same
    exact space.injective i j (Finset.mem_range.mp iInside) (Finset.mem_range.mp jInside) same
  have notTable {block : Nat} (apart : forall i, i < 1024 -> block ≠ blocks.table i) :
      block ∉ (Finset.range 1024).image blocks.table := by
    intro member
    rcases Finset.mem_image.mp member with ⟨i, inside, same⟩
    exact apart i (Finset.mem_range.mp inside) same.symm
  rw [SpaceBlocks.all, Finset.card_insert_of_notMem, Finset.card_insert_of_notMem (notTable space.directoryApart), tables]
  intro member
  rcases Finset.mem_insert.mp member with same | isTable
  · exact space.chunkApart.1 same
  · exact notTable space.chunkApart.2 isTable

/-- New memory was free. -/
theorem blockFree_of_fresh {kernel : Kernel} (encoded : kernel.heap.Encoded) {block : Nat}
    (inside : block < kernel.heap.table.total.toNat)
    (fresh : FreshExtent (fun _ => True) kernel (Extent.single block)) : BlockFree kernel.heap.table.entries block := by
  rcases encoded with ⟨extents, encodes⟩
  by_contra taken
  rcases encodes.exists_covers inside taken with ⟨old, member, covers⟩
  have apart := fresh old trivial ⟨encodes.recorded old member, encodes.within old member⟩
  exact apart.not_covers covers (Extent.covers_single.mpr rfl)

/-- When 1026 blocks were taken, they are those of the address space. -/
theorem SpaceAt.takenBlocks {before after : Kernel} {page flags : Word} {blocks : SpaceBlocks}
    (space : SpaceAt after page flags blocks) (encoded : before.heap.Encoded)
    (takes : Takes before.heap after.heap) (pool : before.heap.SamePool after.heap)
    (fewer : after.heap.freeBlocks + 1026 = before.heap.freeBlocks)
    (fresh : forall block, blocks.Has block -> FreshExtent (fun _ => True) before (Extent.single block)) :
    Memory.takenBlocks before.heap after.heap = blocks.all := by
  have inside : blocks.all ⊆ Memory.takenBlocks before.heap after.heap := by
    intro block member
    have has := SpaceBlocks.mem_all.mp member
    have owned := space.owned block has
    have below : block < before.heap.table.total.toNat := by
      rw [← pool.total]
      exact owned.address_inside
    refine mem_takenBlocks.mpr ⟨below, blockFree_of_fresh encoded below (fresh block has), fun isFree => ?_⟩
    have taken := owned.recorded.not_free (Extent.covers_single.mpr rfl)
    exact Bool.false_ne_true (taken.symm.trans isFree)
  have card := takes.card pool
  refine (Finset.eq_of_subset_of_card_le inside ?_).symm
  rw [space.card_all]
  omega

/-- The blocks that the constructor takes are those of the address space. -/
theorem takenBlocks_makeNew4GB {kernel : Kernel} (placed : kernel.heap.WellPlaced) (encoded : kernel.heap.Encoded)
    (flags : Byte) (made : (makeNew4GBVirtualMemoryAddressSpace kernel flags).1 ≠ 0#32) {page bits : Word}
    {blocks : SpaceBlocks} (space : SpaceAt (makeNew4GBVirtualMemoryAddressSpace kernel flags).2 page bits blocks)
    (fresh : forall block, blocks.Has block -> FreshExtent (fun _ => True) kernel (Extent.single block)) :
    takenBlocks kernel.heap (makeNew4GBVirtualMemoryAddressSpace kernel flags).2.heap = blocks.all := by
  have pool := ((Keeps.refl (fun _ => True) kernel).spaceMade placed flags).1.pool
  have counts := makeNew4GB_freeBlocks placed flags
  have room : 1026 ≤ kernel.heap.freeBlocks := Nat.not_le.mp fun short => made (counts.1.mpr short)
  refine space.takenBlocks encoded (takes_makeNew4GB placed flags) pool ?_ fresh
  rw [counts.2]
  exact Nat.sub_add_cancel room

/-! ## The release -/

theorem pagingSetEntry_heap (kernel : Kernel) (page virtualAddress val : Word) :
    (pagingSetEntryForVirtualAddress kernel page virtualAddress val).2.heap = kernel.heap := by
  simp only [pagingSetEntryForVirtualAddress]
  split
  · rfl
  · split
    · rfl
    · rfl

/-- No call that sets entries is a request to the heap. -/
theorem PagingCall.run_heap (page : Word) (kernel : Kernel) (call : PagingCall) :
    (call.run page kernel).2.heap = kernel.heap := by
  cases call with
  | mapPage virt phys flags =>
      simp only [run, pagingMapPage]
      split
      · rfl
      · exact pagingSetEntry_heap kernel page virt _
  | setEntry virtualAddress val => exact pagingSetEntry_heap kernel page virtualAddress val

theorem PagingCall.runAll_heap (page : Word) (kernel : Kernel) (calls : List PagingCall) :
    (runAll page kernel calls).heap = kernel.heap := by
  induction calls generalizing kernel with
  | nil => rfl
  | cons call calls inductionHypothesis =>
      exact (inductionHypothesis (call.run page kernel).2).trans (run_heap page kernel call)

/-- The blocks that were taken are blank again, and the others are as they were. -/
theorem Takes.undone {before after : Heap} (takes : Takes before after) (encoded : before.Encoded)
    {entries : Int -> Byte} (cleared : Cleared (· ∈ takenBlocks before after) after.table.entries entries) :
    entries = before.table.entries := by
  rcases encoded with ⟨extents, encodes⟩
  funext j
  by_cases taken : exists block : Nat, block ∈ takenBlocks before after ∧ j = block
  · rcases taken with ⟨block, member, rfl⟩
    rcases mem_takenBlocks.mp member with ⟨inside, wasFree, _⟩
    have blank : before.table.entries block = heapBlockTableEntryFree := encodes.blank_of_free inside wasFree
    rw [blank]
    exact cleared.free block member
  · rw [cleared.kept j fun block member same => taken ⟨block, member, same⟩]
    rcases takes j with same | ⟨block, rfl, isTaken⟩
    · exact same
    · exact absurd ⟨block, mem_takenBlocks.mpr isTaken, rfl⟩ taken

/-- In any state of the kernel heap, an address space whose entries were set by any
calls gives back the 1026 blocks that its constructor took, and the heap is then
what it was before the construction. -/
theorem release4GB_undoes_makeNew4GB (booted kernel : Kernel) (around : Int -> Byte)
    (reached : (kheapInit booted around).heap.Requests kernel.heap) (flags : Byte)
    (made : (makeNew4GBVirtualMemoryAddressSpace kernel flags).1 ≠ 0#32) (calls : List PagingCall) :
    let page := (makeNew4GBVirtualMemoryAddressSpace kernel flags).1
    let after := PagingCall.runAll page (makeNew4GBVirtualMemoryAddressSpace kernel flags).2 calls
    let taken := takenBlocks kernel.heap (makeNew4GBVirtualMemoryAddressSpace kernel flags).2.heap
    taken.card = 1026 ∧
      Cleared (· ∈ taken) after.heap.table.entries
        (release4GBVirtualMemoryAddressSpace after page).heap.table.entries ∧
      (release4GBVirtualMemoryAddressSpace after page).heap = kernel.heap := by
  intro page after taken
  have created := kheapInit_isKernelHeap booted around
  rcases reached.encoded created.wellPlaced (kheapInit_encoded booted around) with ⟨startPool, encoded⟩
  have kernelHeap := created.samePool startPool
  have placed := kernelHeap.wellPlaced
  have pool := ((Keeps.refl (fun _ => True) kernel).spaceMade placed flags).1.pool
  have placed' := pool.wellPlaced placed
  rcases makeNew4GB_spec placed flags made with ⟨blocks, space, identity, fresh⟩
  have isTaken : taken = blocks.all := takenBlocks_makeNew4GB placed encoded flags made space fresh
  have represents := (represents_identity placed' space identity).runAll (toNat_flags_lt flags) calls
  have sameHeap : after.heap = (makeNew4GBVirtualMemoryAddressSpace kernel flags).2.heap :=
    PagingCall.runAll_heap page _ calls
  have low : forall block, blocks.Has block -> heapBlockSizeBytes * block < 2 ^ 31 := fun block has =>
    (kernelHeap.samePool pool).low (space.owned block has).address_inside
  rcases release4GB_spec represents.space represents.placed (toNat_flags_lt flags) low with ⟨entries, released, cleared⟩
  have gone : (fun block => block ∈ taken) = blocks.Has := by
    funext block
    rw [isTaken, SpaceBlocks.mem_all]
  have clearedTaken : Cleared (· ∈ taken) after.heap.table.entries entries := by
    rw [gone]
    exact cleared
  have restored : entries = kernel.heap.table.entries := by
    rw [sameHeap] at clearedTaken
    exact (takes_makeNew4GB placed flags).undone encoded clearedTaken
  have result : (release4GBVirtualMemoryAddressSpace after page).heap = after.heap.withEntries entries :=
    congrArg Kernel.heap released
  refine ⟨?_, ?_, ?_⟩
  · rw [isTaken]
    exact space.card_all
  · rw [result]
    exact clearedTaken
  · rw [result, restored, sameHeap]
    rcases pool with ⟨start, total⟩
    generalize (makeNew4GBVirtualMemoryAddressSpace kernel flags).2.heap = heap at start total
    rcases heap with ⟨⟨heapEntries, heapTotal⟩, heapStart⟩
    simp only at start total
    rw [Heap.withEntries, start, total]

/-- The first address space of the kernel, after a user page was mapped in it. -/
theorem release4GB_undoes_makeNew4GB_kernel :
    let kernel := kheapInit (Kernel.loaded Store.blank (fun _ _ => 0) fun _ => 0) fun _ => 0
    let made := makeNew4GBVirtualMemoryAddressSpace kernel 0b111#8
    let after := PagingCall.runAll made.1 made.2 [.mapPage 0x400000#32 0x1500000#32 0b111#32]
    (release4GBVirtualMemoryAddressSpace after made.1).heap = kernel.heap := by
  intro kernel made after
  have placed := (kheapInit_isKernelHeap (Kernel.loaded Store.blank (fun _ _ => 0) fun _ => 0) fun _ => 0).wellPlaced
  have free := kheapInit_freeFrom (Kernel.loaded Store.blank (fun _ _ => 0) fun _ => 0) fun _ => 0
  have room := (makeNew4GB_freeFrom placed 0b111#8 free (by rw [kheapInit_heap]; decide)).1
  exact (release4GB_undoes_makeNew4GB _ kernel _ Heap.Requests.refl 0b111#8 room
    [.mapPage 0x400000#32 0x1500000#32 0b111#32]).2.2

end Memory
end LarvaOS
