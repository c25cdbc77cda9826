import LarvaOS.Memory.Allocations
import LarvaOS.Task.Creation
import LarvaOS.Task.CopyFromUser

namespace LarvaOS
namespace Tasks

open Fs Library Memory PageWalk

/-!
# What a copy from a task leaves behind

The page that `copy_from_user` borrows is a free block, hence no page table and no
entry of the heap lies in it, and the first copy stores to nothing else.  When the old
entry is back in its table, the kernel differs from the one before in the borrowed
page and in its entry of the heap.

The second copy stores to the destination.  A destination apart from the page
structures and from the entry table leaves both alone, and the release then gives the
block back.  A destination over the entry table does not.
-/

/-! ## Address spaces and single bytes -/

/-- The byte is not one of the entry table. -/
def OutsideTable (heap : Heap) (place : Word) : Prop :=
  forall block : Nat, block < heap.table.total.toNat -> place.toNat ≠ entryTableAddress + block

/-- The byte belongs to a page of the address space. -/
def InSpace (heap : Heap) (blocks : SpaceBlocks) (place : Word) : Prop :=
  exists block, blocks.Has block ∧ heap.InExtent (Extent.single block) place

/-- The pool of the kernel lies above the entry table. -/
theorem outsideTable_of_inExtent {heap : Heap} (kernelHeap : heap.IsKernelHeap) {extent : Extent} {place : Word}
    (inside : heap.InExtent extent place) : OutsideTable heap place := by
  intro block below same
  have lower := inside.1
  rw [kernelHeap.start] at lower
  rw [kernelHeap.total] at below
  have start : KERNEL_HEAP_START_ADDRESS.toNat = 0x01000000 := rfl
  have total : (25600#32).toNat = 25600 := rfl
  unfold entryTableAddress at same
  omega

/-- The bytes of a word lie in the page of the word. -/
theorem inExtent_wordByte {heap : Heap} (placed : heap.WellPlaced) {block index : Nat}
    (owned : heap.Owns (Extent.single block)) (bound : index < 1024) {place : Word}
    (near : (place - wordAt (heap.addressOf block) index).toNat < 4) : heap.InExtent (Extent.single block) place := by
  have fits := placed.fits
  have inside : block < heap.table.total.toNat := owned.address_inside
  have base := placed.toNat_addressOf inside
  have aligned := placed.addressOf_aligned inside
  have placeBound := place.isLt
  have word : (wordAt (heap.addressOf block) index).toNat = (heap.addressOf block).toNat + 4 * index := by
    rw [wordAt, BitVec.toNat_add, BitVec.toNat_ofNat]
    unfold heapBlockSizeBytes at *
    omega
  have start := placed.aligned
  rw [BitVec.toNat_sub, word, base] at near
  change heap.startAddress.toNat + heapBlockSizeBytes * block ≤ place.toNat ∧
    place.toNat < heap.startAddress.toNat + heapBlockSizeBytes * (block + 1)
  unfold heapBlockSizeBytes at *
  omega

namespace StoresOnly

variable {places : Word -> Prop} {before after : Kernel}

/-- Stores outside the entry table keep the allocations. -/
theorem owns (only : StoresOnly places before after)
    (outside : forall place, places place -> OutsideTable before.heap place) {extent : Extent}
    (owned : before.heap.Owns extent) : after.heap.Owns extent := by
  have total := only.pool.total
  have within := owned.within
  refine ⟨owned.recorded.transport fun block covered => only.entries block fun place isPlace same => ?_, ?_⟩
  · refine outside place isPlace block ?_ ?_
    · exact Nat.lt_of_lt_of_le covered.2 within
    · omega
  · rw [total]
    exact within

/-- Stores outside the pages of an address space keep it. -/
theorem space (only : StoresOnly places before after) (placed : before.heap.WellPlaced) {page flags : Word}
    {blocks : SpaceBlocks} (space : SpaceAt before page flags blocks)
    (outsideTable : forall place, places place -> OutsideTable before.heap place)
    (outside : forall place, places place -> ¬ InSpace before.heap blocks place) :
    SpaceAt after page flags blocks := by
  refine space.transport only.pool (fun block has => only.owns outsideTable (space.owned block has)) ?_
  intro block has index bound
  refine only.words _ fun place near isPlace => outside place isPlace ⟨block, has, ?_⟩
  exact inExtent_wordByte placed (space.owned block has) bound near

/-- Stores outside the pages of an address space keep its entries. -/
theorem entry (only : StoresOnly places before after) (placed : before.heap.WellPlaced) {page flags : Word}
    {blocks : SpaceBlocks} (space : SpaceAt before page flags blocks)
    (outside : forall place, places place -> ¬ InSpace before.heap blocks place) (virt : Word) :
    after.words (blocks.entryAddress before.heap virt) = before.words (blocks.entryAddress before.heap virt) := by
  have inside := Memory.directoryIndex_lt virt
  refine only.words _ fun place near isPlace => outside place isPlace ⟨_, Or.inr (Or.inr ⟨_, inside, rfl⟩), ?_⟩
  exact inExtent_wordByte placed (space.tableOwned inside) (Memory.tableIndex_lt virt) near

end StoresOnly

/-- Stores outside the pages of the active address space translate nothing differently. -/
theorem StoresOnly.activePlace {places : Word -> Prop} {before after : Kernel} (only : StoresOnly places before after)
    (placed : before.heap.WellPlaced) {page flags : Word} {blocks : SpaceBlocks}
    (space : SpaceAt before page flags blocks) (low : flags.toNat < 256)
    (active : before.currentDirectory = before.words page)
    (outside : forall place, places place -> ¬ InSpace before.heap blocks place) (virt : Word) :
    Tasks.activePlace after virt = Tasks.activePlace before virt := by
  have inside := Memory.directoryIndex_lt virt
  have entry : after.words (element (before.words page) (directoryIndex virt)) =
      before.words (element (before.words page) (directoryIndex virt)) := by
    rw [space.chunkWord]
    refine only.words _ fun place near isPlace => outside place isPlace ⟨_, Or.inr (Or.inl rfl), ?_⟩
    exact inExtent_wordByte placed space.directoryOwned inside near
  have table : before.words (element (before.words page) (directoryIndex virt)) &&& 0xfffff000#32 =
      before.heap.addressOf (blocks.table (directoryIndex virt)) := space.tablePointer placed low inside
  have same := only.entry placed space outside virt
  change after.words (element (before.heap.addressOf (blocks.table (directoryIndex virt))) (tableIndex virt)) =
    before.words (element (before.heap.addressOf (blocks.table (directoryIndex virt))) (tableIndex virt)) at same
  rw [Tasks.activePlace, Tasks.activePlace, only.currentDirectory, active, PageWalk.translate, PageWalk.translate, entry, table, same]

theorem entryAddress_pool {heap heap' : Heap} (pool : heap.SamePool heap') (blocks : SpaceBlocks) (virt : Word) :
    blocks.entryAddress heap' virt = blocks.entryAddress heap virt := by
  rw [SpaceBlocks.entryAddress, SpaceBlocks.entryAddress, pool.addressOf]

/-- The addresses of one page have one entry. -/
theorem entryAddress_page (heap : Heap) (blocks : SpaceBlocks) {virt virt' : Word}
    (page : virt.toNat / 4096 = virt'.toNat / 4096) : blocks.entryAddress heap virt = blocks.entryAddress heap virt' := by
  have directory : virt.toNat / (pagingTotalEntriesPerTable * pagingPageSize) =
      virt'.toNat / (pagingTotalEntriesPerTable * pagingPageSize) := by
    unfold pagingTotalEntriesPerTable pagingPageSize
    omega
  have table : virt.toNat % (pagingTotalEntriesPerTable * pagingPageSize) / pagingPageSize =
      virt'.toNat % (pagingTotalEntriesPerTable * pagingPageSize) / pagingPageSize := by
    unfold pagingTotalEntriesPerTable pagingPageSize
    omega
  rw [SpaceBlocks.entryAddress, SpaceBlocks.entryAddress, directory, table]

/-- The walk through an address space. -/
theorem translate_space {kernel : Kernel} {page flags : Word} {blocks : SpaceBlocks}
    (space : SpaceAt kernel page flags blocks) (placed : kernel.heap.WellPlaced) (low : flags.toNat < 256)
    (isPresent : present flags = true) (virt : Word) :
    translate kernel.words (kernel.words page) virt =
      place (kernel.words (blocks.entryAddress kernel.heap virt)) virt := by
  have inside := Memory.directoryIndex_lt virt
  have entry := space.directoryWord _ inside
  rw [BitVec.or_assoc] at entry
  have flagsLow : (flags ||| PAGING_IS_WRITEABLE).toNat < 4096 := by
    rw [BitVec.toNat_or]
    exact Nat.lt_trans (@Nat.or_lt_two_pow _ _ 8 low (by decide)) (by decide)
  have flagsPresent : present (flags ||| PAGING_IS_WRITEABLE) = true := by
    rw [BitVec.or_comm]
    exact present_or _ _ isPresent
  have aligned := placed.addressOf_aligned (space.tableOwned inside).address_inside
  rw [space.chunkWord]
  exact translate_table entry aligned flagsLow flagsPresent

/-- The walk through the active address space. -/
theorem activePlace_space {kernel : Kernel} {page flags : Word} {blocks : SpaceBlocks}
    (space : SpaceAt kernel page flags blocks) (placed : kernel.heap.WellPlaced) (low : flags.toNat < 256)
    (isPresent : present flags = true) (active : kernel.currentDirectory = kernel.words page) (virt : Word) :
    activePlace kernel virt = place (kernel.words (blocks.entryAddress kernel.heap virt)) virt := by
  rw [activePlace, active]
  exact translate_space space placed low isPresent virt

/-! ## The kernel as it calls the copy -/

/-- The directory of the kernel is active, and maps the memory to itself. -/
structure KernelActive (kernel : Kernel) (blocks : SpaceBlocks) : Prop where
  kernelHeap : kernel.heap.IsKernelHeap
  encoded : kernel.heap.Encoded
  space : SpaceAt kernel kernel.kernelDirectory 0b111#32 blocks
  identity : IdentityMapped kernel 0b111#32 blocks
  active : kernel.currentDirectory = kernel.words kernel.kernelDirectory

theorem identity_entry {kernel : Kernel} {flags : Word} {blocks : SpaceBlocks}
    (identity : IdentityMapped kernel flags blocks) (virt : Word) :
    kernel.words (blocks.entryAddress kernel.heap virt) =
      (BitVec.ofNat 32 (virt.toNat / 4096 * 4096) ||| flags) := by
  have entry := identity _ _ (Memory.directoryIndex_lt virt) (Memory.tableIndex_lt virt)
  have joined : virt.toNat / (pagingTotalEntriesPerTable * pagingPageSize) *
        (pagingTotalEntriesPerTable * pagingPageSize) +
      virt.toNat % (pagingTotalEntriesPerTable * pagingPageSize) / pagingPageSize * pagingPageSize =
        virt.toNat / 4096 * 4096 := by
    unfold pagingTotalEntriesPerTable pagingPageSize
    omega
  rw [joined] at entry
  exact entry

/-- Under the directory of the kernel every address is physical. -/
theorem activePlace_identity {kernel : Kernel} {page : Word} {blocks : SpaceBlocks}
    (space : SpaceAt kernel page 0b111#32 blocks) (identity : IdentityMapped kernel 0b111#32 blocks)
    (placed : kernel.heap.WellPlaced) (active : kernel.currentDirectory = kernel.words page) (virt : Word) :
    activePlace kernel virt = some virt := by
  rw [activePlace_space space placed (by decide) (by decide) active, identity_entry identity]
  exact place_self (by decide) (by decide)

/-! ## The borrowed page -/

/-- The flags of the temporary mapping. -/
theorem lentFlags : PAGING_IS_WRITEABLE ||| PAGING_IS_PRESENT ||| PAGING_ACCESS_FROM_ALL = 0b111#32 := by decide

/-- The address space of a task is active, and one of its entries maps a block that
belongs to no address space to itself. -/
structure Lent (page : Word) (blocks kernelBlocks : SpaceBlocks) (block : Nat) (kernel : Kernel) : Prop where
  kernelHeap : kernel.heap.IsKernelHeap
  space : SpaceAt kernel page 0b101#32 blocks
  kernelSpace : SpaceAt kernel kernel.kernelDirectory 0b111#32 kernelBlocks
  active : kernel.currentDirectory = kernel.words page
  entry : kernel.words (blocks.entryAddress kernel.heap (kernel.heap.addressOf block)) =
    (kernel.heap.addressOf block ||| 0b111#32)
  owned : kernel.heap.Owns (Extent.single block)
  apart : ¬ blocks.Has block ∧ ¬ kernelBlocks.Has block

/-- An owned page that is none of the address space holds no part of it. -/
theorem not_inSpace {kernel : Kernel} {page flags : Word} {blocks : SpaceBlocks} {block : Nat}
    (space : SpaceAt kernel page flags blocks) (owned : kernel.heap.Owns (Extent.single block))
    (apart : ¬ blocks.Has block) {place : Word} (inside : kernel.heap.InExtent (Extent.single block) place) :
    ¬ InSpace kernel.heap blocks place := by
  rintro ⟨other, has, inOther⟩
  rcases owned.eq_or_apart (space.owned other has) with same | separate
  · exact apart (Extent.single_injective same ▸ has)
  · exact Heap.not_inExtent_of_apart separate inside inOther

namespace Lent

variable {page : Word} {blocks kernelBlocks : SpaceBlocks} {block : Nat} {kernel after : Kernel}

/-- The page stays lent while it is written to. -/
theorem storesOnly (lent : Lent page blocks kernelBlocks block kernel)
    (only : StoresOnly (kernel.heap.InExtent (Extent.single block)) kernel after) :
    Lent page blocks kernelBlocks block after := by
  have placed := lent.kernelHeap.wellPlaced
  have outsideTable : forall place, kernel.heap.InExtent (Extent.single block) place -> OutsideTable kernel.heap place :=
    fun place inside => outsideTable_of_inExtent lent.kernelHeap inside
  have outside : forall place, kernel.heap.InExtent (Extent.single block) place -> ¬ InSpace kernel.heap blocks place :=
    fun place inside => not_inSpace lent.space lent.owned lent.apart.1 inside
  have space := only.space placed lent.space outsideTable outside
  have kernelSpace := only.space placed lent.kernelSpace outsideTable fun place inside =>
    not_inSpace lent.kernelSpace lent.owned lent.apart.2 inside
  have directory : after.kernelDirectory = kernel.kernelDirectory := congrArg Globals.kernelDirectory only.toGlobals
  refine ⟨lent.kernelHeap.samePool only.pool, space, ?_, ?_, ?_, only.owns outsideTable lent.owned, lent.apart⟩
  · rw [directory]
    exact kernelSpace
  · rw [only.currentDirectory, lent.active, lent.space.chunkWord, space.chunkWord, only.pool.addressOf]
  · rw [only.pool.addressOf, entryAddress_pool only.pool, only.entry placed lent.space outside]
    exact lent.entry

/-- A byte of the page is where its address says. -/
theorem activePlace (lent : Lent page blocks kernelBlocks block kernel) {count : Nat} (below : count < 4096) :
    Tasks.activePlace kernel (kernel.heap.addressOf block + BitVec.ofNat 32 count) =
      some (kernel.heap.addressOf block + BitVec.ofNat 32 count) := by
  have placed := lent.kernelHeap.wellPlaced
  have aligned : (kernel.heap.addressOf block).toNat % 4096 = 0 :=
    placed.addressOf_aligned lent.owned.address_inside
  have bound := (kernel.heap.addressOf block).isLt
  have virt : (kernel.heap.addressOf block + BitVec.ofNat 32 count).toNat =
      (kernel.heap.addressOf block).toNat + count := by
    rw [BitVec.toNat_add, BitVec.toNat_ofNat]
    omega
  have sameEntry : blocks.entryAddress kernel.heap (kernel.heap.addressOf block + BitVec.ofNat 32 count) =
      blocks.entryAddress kernel.heap (kernel.heap.addressOf block) := entryAddress_page _ _ (by omega)
  have offset : ((kernel.heap.addressOf block).toNat + count) % 4096 = count := by omega
  rw [activePlace_space lent.space placed (by decide) (by decide) lent.active, sameEntry, lent.entry,
    place_page _ aligned (by decide) (by decide), virt, offset]

end Lent

/-- A call with the directory of the kernel active, for a task with an address space of
its own. -/
structure CallsFor (kernel : Kernel) (task : Word) (kernelBlocks : SpaceBlocks) (blocks : TaskBlocks) : Prop where
  caller : KernelActive kernel kernelBlocks
  callee : TaskAt kernel task blocks
  apart : forall block, blocks.space.Has block -> ¬ kernelBlocks.Has block

/-- A store to an entry of one address space keeps another one. -/
theorem spaceAt_storeOther {kernel : Kernel} {page flags page' flags' : Word} {blocks blocks' : SpaceBlocks}
    (space : SpaceAt kernel page flags blocks) (space' : SpaceAt kernel page' flags' blocks')
    (placed : kernel.heap.WellPlaced) (apart : forall block, blocks.Has block -> ¬ blocks'.Has block)
    (virt val : Word) : SpaceAt (storeWord kernel (blocks.entryAddress kernel.heap virt) val) page' flags' blocks' := by
  refine space'.transport (Heap.SamePool.refl _) space'.owned fun block has index bound => ?_
  have inside := Memory.directoryIndex_lt virt
  have different : block ≠ blocks.table (virt.toNat / (pagingTotalEntriesPerTable * pagingPageSize)) := by
    rintro rfl
    exact apart _ (Or.inr (Or.inr ⟨_, inside, rfl⟩)) has
  rw [storeWord_words]
  exact Function.update_of_ne (wordAt_ne placed (space'.owned block has) (space.tableOwned inside) different bound
    (Memory.tableIndex_lt virt)) _ _

/-- Only the borrowed page and its entry have changed. -/
structure Borrowed (block : Nat) (before after : Kernel) : Prop where
  pool : before.heap.SamePool after.heap
  toGlobals : after.toGlobals = before.toGlobals
  words : forall address, (forall place, (place - address).toNat < 4 ->
    ¬ before.heap.InExtent (Extent.single block) place) -> after.words address = before.words address
  bytes : forall address, ¬ before.heap.InExtent (Extent.single block) address ->
    after.bytes address = before.bytes address
  entries : forall other : Nat, other < before.heap.table.total.toNat ->
    after.heap.table.entries other = markExtent before.heap.table.entries (Extent.single block) other

/-- A request that is served keeps what is owned. -/
theorem served_keeps {kernel : Kernel} (placed : kernel.heap.WellPlaced) {size : Word} {extent : Extent}
    (hands : kernel.heap.Hands size extent) : Keeps (fun _ => True) kernel (Kernel.served kernel size extent) := by
  refine ⟨⟨rfl, rfl⟩, fun old _ owned => owned.mark (hands.apart owned), fun old _ owned address inside => ?_⟩
  refine Store.fillZero_sameAt _ fun covered => ?_
  exact Heap.not_inExtent_of_apart (hands.apart owned) inside (placed.inExtent_of_lt hands covered)

section Call

variable {kernel : Kernel} {task : Word} {kernelBlocks : SpaceBlocks} {blocks : TaskBlocks}
  (calls : CallsFor kernel task kernelBlocks blocks) {size : Word} {block : Nat}
  (hands : kernel.heap.Hands size (Extent.single block))

include calls hands

/-- What the request leaves of the call. -/
theorem CallsFor.served :
    ((Kernel.served kernel size (Extent.single block)).tasks task).pageDirectory = (kernel.tasks task).pageDirectory ∧
      SpaceAt (Kernel.served kernel size (Extent.single block)) (kernel.tasks task).pageDirectory 0b101#32 blocks.space ∧
      SpaceAt (Kernel.served kernel size (Extent.single block)) kernel.kernelDirectory 0b111#32 kernelBlocks ∧
      (Kernel.served kernel size (Extent.single block)).heap.Owns (Extent.single block) ∧
      ¬ blocks.space.Has block ∧ ¬ kernelBlocks.Has block := by
  have placed := calls.caller.kernelHeap.wellPlaced
  have keeps := served_keeps placed hands
  have inRecord := inExtent_addressOf placed calls.callee.taskOwned
  have record := (keeps.same _ trivial calls.callee.taskOwned _ inRecord).tasks
  change (Kernel.served kernel size (Extent.single block)).tasks (kernel.heap.addressOf blocks.task) =
    kernel.tasks (kernel.heap.addressOf blocks.task) at record
  rw [← calls.callee.address] at record
  have notOwned : ¬ kernel.heap.Owns (Extent.single block) := fun owned =>
    Extent.not_apart_self _ (hands.apart owned)
  refine ⟨congrArg Task.pageDirectory record, calls.callee.space.kept placed keeps fun _ _ => trivial,
    calls.caller.space.kept placed keeps fun _ _ => trivial, Heap.owns_marked hands.within, ?_, ?_⟩
  · exact fun has => notOwned (calls.callee.space.owned block has)
  · exact fun has => notOwned (calls.caller.space.owned block has)

/-- The page of the block is mapped for the task, whose address space becomes
active. -/
theorem CallsFor.lent :
    Lent (kernel.tasks task).pageDirectory blocks.space kernelBlocks block
      (switchToPage (storeWord (Kernel.served kernel size (Extent.single block))
        (blocks.space.entryAddress kernel.heap (kernel.heap.addressOf block)) (kernel.heap.addressOf block ||| 0b111#32))
        (kernel.tasks task).pageDirectory) := by
  rcases calls.served hands with ⟨_, space, kernelSpace, owned, apart⟩
  have placed : (Kernel.served kernel size (Extent.single block)).heap.WellPlaced :=
    calls.caller.kernelHeap.wellPlaced.withEntries _
  exact
    { kernelHeap := calls.caller.kernelHeap.samePool ⟨rfl, rfl⟩
      space := (space.storeEntry placed _ _).congr rfl rfl
      kernelSpace := (spaceAt_storeOther space kernelSpace placed calls.apart _ _).congr rfl rfl
      active := rfl
      entry := Function.update_self _ _ _
      owned := owned
      apart := apart }

/-- The kernel after the first copy, with its own directory active and the old entry
back in the table. -/
theorem CallsFor.borrowed {read : Kernel}
    (only : StoresOnly (kernel.heap.InExtent (Extent.single block))
      (switchToPage (storeWord (Kernel.served kernel size (Extent.single block))
        (blocks.space.entryAddress kernel.heap (kernel.heap.addressOf block)) (kernel.heap.addressOf block ||| 0b111#32))
        (kernel.tasks task).pageDirectory) read) :
    Borrowed block kernel (storeWord (switchToKernelPage read)
      (blocks.space.entryAddress kernel.heap (kernel.heap.addressOf block))
      ((Kernel.served kernel size (Extent.single block)).words
        (blocks.space.entryAddress kernel.heap (kernel.heap.addressOf block)))) := by
  have placed := calls.caller.kernelHeap.wellPlaced
  have lent := calls.lent hands
  generalize blocks.space.entryAddress kernel.heap (kernel.heap.addressOf block) = entry at *
  generalize kernel.heap.addressOf block ||| 0b111#32 = temporary at *
  have kernelSpace := (lent.storesOnly only).kernelSpace
  have outside : forall address, ¬ kernel.heap.InExtent (Extent.single block) address ->
      ¬ (address - kernel.heap.addressOf block).toNat < size.toNat := fun address away covered =>
    away (placed.inExtent_of_lt hands covered)
  refine ⟨⟨only.pool.start, only.pool.total⟩, ?_, fun address away => ?_, fun address away => ?_, fun other below => ?_⟩
  · have globals := only.toGlobals
    have directory : read.kernelDirectory = kernel.kernelDirectory := by
      rw [globals]
      rfl
    have active : read.words read.kernelDirectory = kernel.currentDirectory := by
      rw [directory] at kernelSpace ⊢
      rw [kernelSpace.chunkWord, calls.caller.active, calls.caller.space.chunkWord, only.pool.addressOf]
      rfl
    change { read.toGlobals with currentDirectory := read.words read.kernelDirectory } = kernel.toGlobals
    rw [active, globals]
    rfl
  · have here : ¬ kernel.heap.InExtent (Extent.single block) address := by
      refine away address ?_
      rw [BitVec.sub_self]
      decide
    have cleared : (Kernel.served kernel size (Extent.single block)).words address = kernel.words address :=
      if_neg (outside address here)
    rw [storeWord_words]
    by_cases same : address = entry
    · rw [same, Function.update_self, ← same]
      exact cleared
    · rw [Function.update_of_ne same]
      refine (only.words address away).trans ?_
      exact (Function.update_of_ne same _ _).trans cleared
  · have cleared : (Kernel.served kernel size (Extent.single block)).bytes address = kernel.bytes address :=
      if_neg (outside address away)
    exact (only.bytes address away).trans cleared
  · refine only.entries other fun place inside same => ?_
    refine outsideTable_of_inExtent calls.caller.kernelHeap inside other below ?_
    omega

end Call

/-! ## The second copy -/

namespace Borrowed

variable {kernel borrowed : Kernel} {size : Word} {block : Nat} (page : Borrowed block kernel borrowed)
  (hands : kernel.heap.Hands size (Extent.single block))

include page hands

/-- What is owned stays owned. -/
theorem owns {extent : Extent} (owned : kernel.heap.Owns extent) : borrowed.heap.Owns extent := by
  have marked : (kernel.heap.withEntries (markExtent kernel.heap.table.entries (Extent.single block))).Owns extent :=
    owned.mark (hands.apart owned)
  have total := page.pool.total
  have within := owned.within
  refine ⟨marked.recorded.transport fun other covered => page.entries other ?_, ?_⟩
  · exact Nat.lt_of_lt_of_le covered.2 within
  · rw [total]
    exact within

/-- The borrowed page itself. -/
theorem ownsPage : borrowed.heap.Owns (Extent.single block) := by
  have marked : (kernel.heap.withEntries (markExtent kernel.heap.table.entries (Extent.single block))).Owns
      (Extent.single block) := Heap.owns_marked hands.within
  have total := page.pool.total
  refine ⟨marked.recorded.transport fun other covered => page.entries other ?_, ?_⟩
  · exact Nat.lt_of_lt_of_le covered.2 hands.within
  · rw [total]
    exact hands.within

/-- The words of a page that was owned. -/
theorem words_owned (placed : kernel.heap.WellPlaced) {other index : Nat} (owned : kernel.heap.Owns (Extent.single other))
    (bound : index < 1024) : borrowed.words (wordAt (kernel.heap.addressOf other) index) =
      kernel.words (wordAt (kernel.heap.addressOf other) index) := by
  refine page.words _ fun place near inside => ?_
  exact Heap.not_inExtent_of_apart (hands.apart owned) (inExtent_wordByte placed owned bound near) inside

theorem space (placed : kernel.heap.WellPlaced) {directory flags : Word} {spaceBlocks : SpaceBlocks}
    (space : SpaceAt kernel directory flags spaceBlocks) : SpaceAt borrowed directory flags spaceBlocks :=
  space.transport page.pool (fun other has => page.owns hands (space.owned other has))
    fun other has _ bound => page.words_owned hands placed (space.owned other has) bound

theorem identity (placed : kernel.heap.WellPlaced) {directory flags : Word} {spaceBlocks : SpaceBlocks}
    (space : SpaceAt kernel directory flags spaceBlocks) (identity : IdentityMapped kernel flags spaceBlocks) :
    IdentityMapped borrowed flags spaceBlocks := by
  intro i j inside bound
  rw [page.pool.addressOf, page.words_owned hands placed (space.tableOwned inside) bound]
  exact identity i j inside bound

end Borrowed

/-- The directory of the kernel is active, the entries of an address space are the ones
it had, and so are the entries of the heap. -/
structure Restored (kernel after : Kernel) (page : Word) : Prop where
  active : after.currentDirectory = after.words after.kernelDirectory
  same : after.currentDirectory = kernel.currentDirectory
  entries : forall virt : Word, virt.toNat % pagingPageSize = 0 ->
    pagingGetEntryOfAddress after page virt = pagingGetEntryOfAddress kernel page virt
  directory : forall index, index < 1024 -> after.words (wordAt (after.words page) index) =
    kernel.words (wordAt (kernel.words page) index)
  table : SameEntries kernel after

/-- The release of a page. -/
theorem kfree_page {kernel : Kernel} (kernelHeap : kernel.heap.IsKernelHeap) {block : Nat}
    (owned : kernel.heap.Owns (Extent.single block)) :
    kfree kernel (kernel.heap.addressOf block) =
      kernel.withHeap (kernel.heap.withEntries (clearExtent kernel.heap.table.entries (Extent.single block))) := by
  have low := kernelHeap.low owned.address_inside
  exact congrArg kernel.withHeap (free_spec kernelHeap.wellPlaced (Extent.single block) owned.recorded owned.within low)

/-- The bytes of the destination. -/
def Destination (toPtr : Word) (size : Int) (place : Word) : Prop :=
  exists count : Nat, count < size ∧ place = toPtr + BitVec.ofNat 32 count

section Return

variable {kernel borrowed copied : Kernel} {task : Word} {kernelBlocks : SpaceBlocks} {blocks : TaskBlocks}
  (calls : CallsFor kernel task kernelBlocks blocks) {size : Word} {block : Nat}
  (hands : kernel.heap.Hands size (Extent.single block)) (page : Borrowed block kernel borrowed)
  {places : Word -> Prop} (outsideKernel : forall place, places place -> ¬ InSpace kernel.heap kernelBlocks place)

include calls hands page outsideKernel

/-- While the second copy runs, every address is physical. -/
theorem CallsFor.activePlace_copied (only : StoresOnly places borrowed copied) (virt : Word) :
    activePlace copied virt = some virt := by
  have placed := calls.caller.kernelHeap.wellPlaced
  have samePool := page.pool
  have space := page.space hands placed calls.caller.space
  have directory : borrowed.kernelDirectory = kernel.kernelDirectory :=
    congrArg Globals.kernelDirectory page.toGlobals
  have active : borrowed.currentDirectory = borrowed.words kernel.kernelDirectory := by
    rw [space.chunkWord, samePool.addressOf, ← calls.caller.space.chunkWord, ← calls.caller.active]
    exact congrArg Globals.currentDirectory page.toGlobals
  rw [only.activePlace (samePool.wellPlaced placed) space (by decide) active]
  · exact activePlace_identity space (page.identity hands placed calls.caller.space calls.caller.identity)
      (samePool.wellPlaced placed) active virt
  · rintro place isPlace ⟨other, has, inside⟩
    exact outsideKernel place isPlace ⟨other, has, samePool.inExtent.mp inside⟩

omit outsideKernel in
/-- After the release of the page the entry table is as before the call. -/
theorem CallsFor.restoredEntries (outsideTable : forall place, places place -> OutsideTable kernel.heap place)
    (only : StoresOnly places borrowed copied) : SameEntries kernel (kfree copied (kernel.heap.addressOf block)) := by
  have samePool := page.pool
  have table : forall place, places place -> OutsideTable borrowed.heap place := by
    intro place isPlace
    unfold OutsideTable
    rw [samePool.total]
    exact outsideTable place isPlace
  have pool := samePool.trans only.pool
  have owned := only.owns table (page.ownsPage hands)
  rw [← pool.addressOf, kfree_page (calls.caller.kernelHeap.samePool pool) owned]
  intro other below
  have entry : copied.heap.table.entries other = markExtent kernel.heap.table.entries (Extent.single block) other := by
    rw [only.entries other fun place isPlace same => table place isPlace other (by rw [samePool.total]; exact below)
      (by omega)]
    exact page.entries other below
  rw [Kernel.withHeap_heap, Heap.withEntries_entries]
  by_cases here : (Extent.single block).Covers other
  · rw [clearExtent_of_covers _ here]
    rcases calls.caller.encoded with ⟨extents, encodes⟩
    have free : BlockFree kernel.heap.table.entries other := by
      refine hands.fits.2 other here.1 ?_
      rw [← hands.count]
      exact here.2
    exact (encodes.blank_of_free below free).symm
  · rw [clearExtent_of_not_covers _ here, entry, markExtent_of_not_covers _ here]

/-- After the release of the page everything is as before the call. -/
theorem CallsFor.restored (outsideTable : forall place, places place -> OutsideTable kernel.heap place)
    (outsideTask : forall place, places place -> ¬ InSpace kernel.heap blocks.space place)
    (only : StoresOnly places borrowed copied) :
    Restored kernel (kfree copied (kernel.heap.addressOf block)) (kernel.tasks task).pageDirectory := by
  have placed := calls.caller.kernelHeap.wellPlaced
  have placed' := page.pool.wellPlaced placed
  have samePool := page.pool
  have table : forall place, places place -> OutsideTable borrowed.heap place := by
    intro place isPlace
    unfold OutsideTable
    rw [samePool.total]
    exact outsideTable place isPlace
  have outside : forall place, places place -> ¬ InSpace borrowed.heap blocks.space place := by
    rintro place isPlace ⟨other, has, inside⟩
    exact outsideTask place isPlace ⟨other, has, samePool.inExtent.mp inside⟩
  have outside' : forall place, places place -> ¬ InSpace borrowed.heap kernelBlocks place := by
    rintro place isPlace ⟨other, has, inside⟩
    exact outsideKernel place isPlace ⟨other, has, samePool.inExtent.mp inside⟩
  have taskSpace := page.space hands placed calls.callee.space
  have space := only.space placed' taskSpace table outside
  have kernelSpace := only.space placed' (page.space hands placed calls.caller.space) table outside'
  have pool := samePool.trans only.pool
  have globals : copied.toGlobals = kernel.toGlobals := only.toGlobals.trans page.toGlobals
  have directory : copied.kernelDirectory = kernel.kernelDirectory := congrArg Globals.kernelDirectory globals
  have current : copied.currentDirectory = kernel.currentDirectory := congrArg Globals.currentDirectory globals
  have owned := only.owns table (page.ownsPage hands)
  have entries := calls.restoredEntries hands page outsideTable only
  rw [← pool.addressOf, kfree_page (calls.caller.kernelHeap.samePool pool) owned] at entries ⊢
  refine ⟨?_, current, fun virt aligned => ?_, fun index bound => ?_, entries⟩
  · change copied.currentDirectory = copied.words copied.kernelDirectory
    rw [current, directory, kernelSpace.chunkWord, pool.addressOf, ← calls.caller.space.chunkWord]
    exact calls.caller.active
  · have inside := Memory.directoryIndex_lt virt
    have entry := only.entry placed' taskSpace outside virt
    rw [entryAddress_pool samePool, SpaceBlocks.entryAddress,
      page.words_owned hands placed (calls.callee.space.tableOwned inside) (Memory.tableIndex_lt virt)] at entry
    rw [calls.callee.space.getEntry placed (by decide) aligned]
    change pagingGetEntryOfAddress copied _ virt = _
    rw [space.getEntry (pool.wellPlaced placed) (by decide) aligned, entryAddress_pool pool]
    exact entry
  · change copied.words (wordAt (copied.words _) index) = _
    rw [space.chunkWord, space.directoryWord index bound, calls.callee.space.chunkWord,
      calls.callee.space.directoryWord index bound, pool.addressOf]

end Return

end Tasks
end LarvaOS
