import LarvaOS.Kernel.Boot
import LarvaOS.Library.Buffer
import LarvaOS.Task.CopyFrame

namespace LarvaOS
namespace Tasks

open Fs Library Memory PageWalk

/-!
# The outcomes of a copy from a task

A size of a page or more is refused at once.  A size that is zero or negative is
refused by the heap, like one for which no block is free.  In the remaining case one
block is borrowed, and the two copies run.
-/

/-! ## The cases -/

/-- A call that is refused changes at most the number of refusals. -/
theorem restored_refused {kernel : Kernel} {kernelBlocks : SpaceBlocks} (active : KernelActive kernel kernelBlocks)
    (page : Word) (refused : Nat) : Restored kernel { kernel with refused := refused } page :=
  ⟨active.active, rfl, fun _ _ => rfl, fun _ _ => rfl, fun _ _ => rfl⟩

/-- A request that is served is one for a block, when its size is that of the copy. -/
theorem hands_page {heap : Heap} (kernelHeap : heap.IsKernelHeap) {size : Int} (int : -2 ^ 31 ≤ size)
    (small : size < pagingPageSize) {extent : Extent} (hands : heap.Hands (intToWord size) extent) :
    0 < size ∧ (intToWord size).toNat = size.toNat ∧ extent = Extent.single extent.first := by
  have within := hands.within
  rw [kernelHeap.total, hands.count] at within
  have blocks : (25600#32).toNat = 25600 := rfl
  rw [blocks] at within
  unfold blocksFor at within
  unfold pagingPageSize at small
  have value : (intToWord size).toNat = (size % 2 ^ 32).toNat := by
    rw [intToWord, BitVec.toNat_ofInt]
    rfl
  have nonzero : (intToWord size).toNat ≠ 0 := fun zero => hands.nonzero (BitVec.eq_of_toNat_eq zero)
  have positive : 0 < size := by omega
  have same : (intToWord size).toNat = size.toNat := by omega
  refine ⟨positive, same, Extent.eq_single ?_⟩
  rw [hands.count, blocksFor, same]
  omega

/-- The table entry of the borrowed page, in the address space of the task. -/
def borrowedEntry (kernel : Kernel) (blocks : SpaceBlocks) (block : Nat) : Word :=
  blocks.entryAddress kernel.heap (kernel.heap.addressOf block)

/-- The kernel during the first copy. -/
def lentKernel (kernel : Kernel) (task : Word) (blocks : SpaceBlocks) (block : Nat) (size : Word) : Kernel :=
  switchToPage (storeWord (Kernel.served kernel size (Extent.single block)) (borrowedEntry kernel blocks block)
    (kernel.heap.addressOf block ||| 0b111#32)) (kernel.tasks task).pageDirectory

/-- The kernel during the second copy. -/
def regainedKernel (kernel read : Kernel) (blocks : SpaceBlocks) (block : Nat) (size : Word) : Kernel :=
  storeWord (switchToKernelPage read) (borrowedEntry kernel blocks block)
    ((Kernel.served kernel size (Extent.single block)).words (borrowedEntry kernel blocks block))

section Served

variable {kernel : Kernel} {task : Word} {kernelBlocks : SpaceBlocks} {blocks : TaskBlocks}
  (calls : CallsFor kernel task kernelBlocks blocks) {size : Int} (int : -2 ^ 31 ≤ size) (small : size < pagingPageSize)
  {block : Nat} (hands : kernel.heap.Hands (intToWord size) (Extent.single block))

include calls hands

theorem lentKernel_lent : Lent (kernel.tasks task).pageDirectory blocks.space kernelBlocks block
    (lentKernel kernel task blocks.space block (intToWord size)) := calls.lent hands

theorem regainedKernel_borrowed {read : Kernel}
    (only : StoresOnly (kernel.heap.InExtent (Extent.single block))
      (lentKernel kernel task blocks.space block (intToWord size)) read) :
    Borrowed block kernel (regainedKernel kernel read blocks.space block (intToWord size)) := calls.borrowed hands only

include int small

/-- The two copies of a call that has got its page. -/
theorem copyFromUser_served (userPtr toPtr : Word) :
    copyFromUser kernel task userPtr toPtr size =
      (strncpy (lentKernel kernel task blocks.space block (intToWord size)) (kernel.heap.addressOf block) userPtr
        (intToWord size)).bind fun read =>
          let restored := pagingSetEntryForVirtualAddress (switchToKernelPage read) (kernel.tasks task).pageDirectory
            (kernel.heap.addressOf block)
            ((Kernel.served kernel (intToWord size) (Extent.single block)).words (borrowedEntry kernel blocks.space block))
          if restored.1 < 0 then some (- EIO, kfree restored.2 (kernel.heap.addressOf block))
          else (strncpy restored.2 toPtr (kernel.heap.addressOf block) (intToWord size)).map fun copied =>
            (restored.1, kfree copied (kernel.heap.addressOf block)) := by
  have placed := calls.caller.kernelHeap.wellPlaced
  have result : kzalloc kernel (intToWord size) =
      (kernel.heap.addressOf block, Kernel.served kernel (intToWord size) (Extent.single block)) := by
    rcases kzalloc_cases placed (intToWord size) with ⟨extent, hands', result⟩ | ⟨refuses, _⟩
    · have same := (hands_page calls.caller.kernelHeap int small hands').2.2
      have lower := Nat.not_lt.mp fun above => hands'.lowest _ above hands.fits
      have upper := Nat.not_lt.mp fun above => hands.lowest _ above hands'.fits
      have first : extent.first = block := Nat.le_antisymm lower upper
      rw [result, same, first]
      rfl
    · exact absurd hands.fits (refuses hands.nonzero _)
  have notNull : kernel.heap.addressOf block ≠ 0#32 := placed.addressOf_ne_null hands.inside
  rcases calls.served hands with ⟨directory, space, _, _, _⟩
  have placed' : (Kernel.served kernel (intToWord size) (Extent.single block)).heap.WellPlaced := placed.withEntries _
  have aligned : (kernel.heap.addressOf block).toNat % pagingPageSize = 0 := placed.addressOf_aligned hands.inside
  have entry := space.getEntry placed' (by decide) aligned
  have mapped : pagingMapPage (Kernel.served kernel (intToWord size) (Extent.single block))
      (kernel.tasks task).pageDirectory (kernel.heap.addressOf block) (kernel.heap.addressOf block) 0b111#32 =
        (0, storeWord (Kernel.served kernel (intToWord size) (Extent.single block))
          (borrowedEntry kernel blocks.space block) (kernel.heap.addressOf block ||| 0b111#32)) := by
    rw [pagingMapPage, if_neg (by omega)]
    exact space.setEntry placed' (by decide) aligned _
  have goes : ¬ size ≥ pagingPageSize := Int.not_le.mpr small
  unfold copyFromUser
  rw [if_neg goes]
  simp only [result, if_neg notNull, directory, lentFlags, mapped, entry]
  rfl

omit int small in
/-- The old entry comes back into the table. -/
theorem takenBack {read : Kernel}
    (only : StoresOnly (kernel.heap.InExtent (Extent.single block))
      (lentKernel kernel task blocks.space block (intToWord size)) read) (old : Word) :
    pagingSetEntryForVirtualAddress (switchToKernelPage read) (kernel.tasks task).pageDirectory
        (kernel.heap.addressOf block) old =
      (0, storeWord (switchToKernelPage read) (borrowedEntry kernel blocks.space block) old) := by
  have lent := (lentKernel_lent calls hands).storesOnly only
  have space : SpaceAt (switchToKernelPage read) (kernel.tasks task).pageDirectory 0b101#32 blocks.space :=
    lent.space.congr rfl rfl
  have aligned : (kernel.heap.addressOf block).toNat % pagingPageSize = 0 :=
    calls.caller.kernelHeap.wellPlaced.addressOf_aligned hands.inside
  rw [space.setEntry lent.kernelHeap.wellPlaced (by decide) aligned]
  have pool : kernel.heap.SamePool (switchToKernelPage read).heap := ⟨only.pool.start, only.pool.total⟩
  rw [entryAddress_pool pool]
  rfl

omit int small in
/-- The first copy stores to the borrowed page. -/
theorem firstCopy_writes {read : Kernel}
    (only : StoresOnly (kernel.heap.InExtent (Extent.single block))
      (lentKernel kernel task blocks.space block (intToWord size)) read) {count : Nat} (below : count < 4096) :
    activePlace read (kernel.heap.addressOf block + BitVec.ofNat 32 count) =
        some (kernel.heap.addressOf block + BitVec.ofNat 32 count) ∧
      kernel.heap.InExtent (Extent.single block) (kernel.heap.addressOf block + BitVec.ofNat 32 count) := by
  have lent := (lentKernel_lent calls hands).storesOnly only
  have pool : kernel.heap.SamePool read.heap := ⟨only.pool.start, only.pool.total⟩
  have active := @Lent.activePlace _ _ _ _ _ lent count below
  rw [pool.addressOf] at active
  refine ⟨active, pool.inExtent.mp (lent.kernelHeap.wellPlaced.inExtent_of_page lent.owned ?_)⟩
  rw [pool.addressOf]
  exact Nat.lt_of_le_of_lt (Nat.le_of_eq (offset_toNat (kernel.heap.addressOf block) (by omega))) below

omit int small in
theorem firstCopy_storesOnly {read : Kernel} {userPtr : Word}
    (copies : strncpy (lentKernel kernel task blocks.space block (intToWord size)) (kernel.heap.addressOf block) userPtr
      (intToWord size) = some read) : StoresOnly (kernel.heap.InExtent (Extent.single block))
        (lentKernel kernel task blocks.space block (intToWord size)) read := by
  refine strncpy_storesOnly (fun kernel' only count below place active => ?_) copies
  have writes := firstCopy_writes calls hands only (show count < 4096 by omega)
  obtain rfl := Option.some.inj (writes.1.symm.trans active)
  exact writes.2

omit int small in
/-- How an address is translated during the first copy. -/
theorem firstCopy_place {read : Kernel}
    (only : StoresOnly (kernel.heap.InExtent (Extent.single block))
      (lentKernel kernel task blocks.space block (intToWord size)) read) (virt : Word) :
    activePlace read virt =
      place (if blocks.space.entryAddress kernel.heap virt = borrowedEntry kernel blocks.space block then
        kernel.heap.addressOf block ||| 0b111#32 else kernel.words (blocks.space.entryAddress kernel.heap virt)) virt := by
  have lent := lentKernel_lent calls hands
  have later := lent.storesOnly only
  have placed := lent.kernelHeap.wellPlaced
  have pool : kernel.heap.SamePool read.heap := ⟨only.pool.start, only.pool.total⟩
  have outside : forall place, kernel.heap.InExtent (Extent.single block) place ->
      ¬ InSpace (lentKernel kernel task blocks.space block (intToWord size)).heap blocks.space place :=
    fun place inside => not_inSpace lent.space lent.owned lent.apart.1 inside
  have entry := only.entry placed lent.space outside virt
  rw [entryAddress_pool (show kernel.heap.SamePool (lentKernel kernel task blocks.space block (intToWord size)).heap from
    ⟨rfl, rfl⟩)] at entry
  rw [activePlace_space later.space later.kernelHeap.wellPlaced (by decide) (by decide) later.active,
    entryAddress_pool pool, entry]
  change place (Function.update (Kernel.served kernel (intToWord size) (Extent.single block)).words
    (borrowedEntry kernel blocks.space block) _ _) virt = _
  by_cases same : blocks.space.entryAddress kernel.heap virt = borrowedEntry kernel blocks.space block
  · rw [if_pos same, same, Function.update_self]
  · rw [if_neg same, Function.update_of_ne same]
    have inside := Memory.directoryIndex_lt virt
    have inTable := inExtent_wordAt calls.caller.kernelHeap.wellPlaced (calls.callee.space.tableOwned inside)
      (Memory.tableIndex_lt virt)
    have kept : (Kernel.served kernel (intToWord size) (Extent.single block)).words
        (blocks.space.entryAddress kernel.heap virt) = kernel.words (blocks.space.entryAddress kernel.heap virt) := by
      refine if_neg fun covered => ?_
      have apart := hands.apart (calls.callee.space.tableOwned inside)
      exact Heap.not_inExtent_of_apart apart inTable (calls.caller.kernelHeap.wellPlaced.inExtent_of_lt hands covered)
    rw [kept]

/-- A call that has got its page comes back from both copies. -/
theorem copyFromUser_returned {userPtr toPtr : Word} {res : Int} {after : Kernel}
    (returns : copyFromUser kernel task userPtr toPtr size = some (res, after)) :
    exists read copied, strncpy (lentKernel kernel task blocks.space block (intToWord size)) (kernel.heap.addressOf block)
        userPtr (intToWord size) = some read ∧
      StoresOnly (kernel.heap.InExtent (Extent.single block))
        (lentKernel kernel task blocks.space block (intToWord size)) read ∧
      strncpy (regainedKernel kernel read blocks.space block (intToWord size)) toPtr (kernel.heap.addressOf block)
        (intToWord size) = some copied ∧ res = 0 ∧ after = kfree copied (kernel.heap.addressOf block) := by
  rw [copyFromUser_served calls int small hands] at returns
  rcases Option.bind_eq_some_iff.mp returns with ⟨read, firstCopy, rest⟩
  have only := firstCopy_storesOnly calls hands firstCopy
  simp only [takenBack calls hands only] at rest
  rw [if_neg (by decide)] at rest
  rcases Option.map_eq_some_iff.mp rest with ⟨copied, secondCopy, outcome⟩
  rcases Prod.mk.inj outcome with ⟨rfl, rfl⟩
  exact ⟨read, copied, firstCopy, only, secondCopy, rfl, rfl⟩

end Served

/-! ## Every outcome -/

section Outcomes

variable {kernel : Kernel} {task : Word} {kernelBlocks : SpaceBlocks} {blocks : TaskBlocks}
  (calls : CallsFor kernel task kernelBlocks blocks)

include calls

/-- A call that gets no page changes nothing. -/
theorem copyFromUser_cases {size : Int} (int : -2 ^ 31 ≤ size) (userPtr toPtr : Word) :
    (exists block, size < pagingPageSize ∧ kernel.heap.Hands (intToWord size) (Extent.single block)) ∨
      exists res, res < 0 ∧ exists refused,
        copyFromUser kernel task userPtr toPtr size = some (res, { kernel with refused := refused }) := by
  by_cases large : size ≥ pagingPageSize
  · exact Or.inr ⟨-EINVAL, by decide, kernel.refused, if_pos large⟩
  · have small : size < pagingPageSize := Int.not_le.mp large
    rcases kzalloc_cases calls.caller.kernelHeap.wellPlaced (intToWord size) with ⟨extent, hands, _⟩ | ⟨_, result⟩
    · have same := (hands_page calls.caller.kernelHeap int small hands).2.2
      rw [same] at hands
      exact Or.inl ⟨extent.first, small, hands⟩
    · refine Or.inr ⟨-ENOMEM, by decide, kernel.refused + 1, ?_⟩
      rw [copyFromUser, if_neg large]
      simp only [result, if_true]
      rfl

/-- A page of the task that is present. -/
theorem taskPage_present
    (isPresent : forall virt : Word, virt.toNat % pagingPageSize = 0 ->
      present (pagingGetEntryOfAddress kernel (kernel.tasks task).pageDirectory virt) = true) (virt : Word) :
    present (kernel.words (blocks.space.entryAddress kernel.heap virt)) = true := by
  have bound := virt.isLt
  have page : (BitVec.ofNat 32 (virt.toNat / 4096 * 4096)).toNat = virt.toNat / 4096 * 4096 := by
    rw [BitVec.toNat_ofNat]
    omega
  have aligned : (BitVec.ofNat 32 (virt.toNat / 4096 * 4096)).toNat % pagingPageSize = 0 := by
    rw [page, pagingPageSize]
    omega
  have entry := isPresent _ aligned
  rw [calls.callee.space.getEntry calls.caller.kernelHeap.wellPlaced (by decide) aligned,
    entryAddress_page kernel.heap blocks.space (show _ = virt.toNat / 4096 by rw [page]; omega)] at entry
  exact entry

/-- The destination of the copy is apart from the page structures. -/
def ApartFromPages (kernel : Kernel) (kernelBlocks : SpaceBlocks) (blocks : TaskBlocks) (places : Word -> Prop) : Prop :=
  forall place, places place -> ¬ InSpace kernel.heap kernelBlocks place ∧ ¬ InSpace kernel.heap blocks.space place

end Outcomes

/-! ## Tasks that are called for -/

/-- An address space that is installed as the first one of the kernel. -/
theorem kernelActive_installed {kernel : Kernel} (kernelHeap : kernel.heap.IsKernelHeap) (encoded : kernel.heap.Encoded)
    (first : kernel.kernelDirectory = 0#32) {page : Word} {blocks : SpaceBlocks}
    (space : SpaceAt kernel page 0b111#32 blocks) (identity : IdentityMapped kernel 0b111#32 blocks) :
    KernelActive (switchToKernelPage (pagingInstallKernelPage kernel page)) blocks := by
  rw [pagingInstallKernelPage, if_pos first]
  exact
    { kernelHeap := kernelHeap
      encoded := encoded
      space := space.congr rfl rfl
      identity := identity.congr rfl rfl
      active := rfl }

/-- The boot leaves the directory of the kernel active. -/
theorem vmInitialize_kernelActive {kernel : Kernel} (kernelHeap : kernel.heap.IsKernelHeap) (encoded : kernel.heap.Encoded)
    (first : kernel.kernelDirectory = 0#32)
    (made : (makeNew4GBVirtualMemoryAddressSpace kernel 0b00000111#8).1 ≠ 0#32) :
    exists blocks, KernelActive (vmInitialize kernel) blocks := by
  have placed := kernelHeap.wellPlaced
  have globals := makeNew4GB_globals kernel 0b00000111#8
  rcases ((makeNew4GB_requests kernel 0b00000111#8).heap).encoded placed encoded with ⟨pool, later⟩
  rcases makeNew4GB_spec placed 0b00000111#8 made with ⟨blocks, space, identity, _⟩
  have flags : (0b00000111#8).setWidth 32 = 0b111#32 := by decide
  rw [flags] at space identity
  have none := (congrArg Globals.kernelDirectory globals).trans first
  exact ⟨blocks, kernelActive_installed (kernelHeap.samePool pool) later none space identity⟩

/-- What keeps the allocations and the directory keeps the state of the kernel. -/
theorem KernelActive.keep {kernel after : Kernel} {blocks : SpaceBlocks} (active : KernelActive kernel blocks)
    (keeps : Keeps (fun _ => True) kernel after) (encoded : after.heap.Encoded)
    (directory : after.kernelDirectory = kernel.kernelDirectory)
    (current : after.currentDirectory = kernel.currentDirectory) : KernelActive after blocks := by
  have placed := active.kernelHeap.wellPlaced
  have space := active.space.kept placed keeps fun _ _ => trivial
  refine ⟨active.kernelHeap.samePool keeps.pool, encoded, directory ▸ space, fun i j inside bound => ?_, ?_⟩
  · have inTable := inExtent_wordAt placed (active.space.tableOwned inside) bound
    rw [keeps.pool.addressOf, (keeps.same _ trivial (active.space.tableOwned inside) _ inTable).words]
    exact active.identity i j inside bound
  · rw [current, directory, space.chunkWord, keeps.pool.addressOf, ← active.space.chunkWord]
    exact active.active

theorem appendTask_directories (kernel : Kernel) (task : Word) :
    (appendTask kernel task).kernelDirectory = kernel.kernelDirectory ∧
      (appendTask kernel task).currentDirectory = kernel.currentDirectory := by
  unfold appendTask
  split <;> exact ⟨rfl, rfl⟩

/-- A task that is made can be copied from. -/
theorem makeNewTask_callsFor {kernel : Kernel} {kernelBlocks : SpaceBlocks} (active : KernelActive kernel kernelBlocks)
    (proc : Word) (made : isErr (makeNewTask kernel proc).1 = false) :
    exists blocks, CallsFor (makeNewTask kernel proc).2 (makeNewTask kernel proc).1 kernelBlocks blocks ∧
      IdentityMapped (makeNewTask kernel proc).2 0b101#32 blocks.space := by
  have placed := active.kernelHeap.wellPlaced
  have requests := makeNewTask_requests made
  rcases makeNewTask_spec placed proc made with ⟨task, blocks, ready, complete, result⟩
  rw [result] at requests ⊢
  rcases appendTask_memory ready (kernel.heap.addressOf task) with ⟨heap, words, directories⟩
  rcases appendTask_directories ready (kernel.heap.addressOf task) with ⟨directory, current⟩
  have encoded := (requests.encoded placed active.encoded).2
  rw [heap] at encoded
  have ready' := active.keep complete.keeps encoded (congrArg Globals.kernelDirectory complete.globals)
    (congrArg Globals.currentDirectory complete.globals)
  refine ⟨⟨task, blocks⟩, ⟨⟨?_, ?_, ?_, ?_, ?_⟩, ?_, ?_⟩, complete.identity.congr heap words⟩
  · rw [heap]
    exact ready'.kernelHeap
  · rw [heap]
    exact ready'.encoded
  · rw [directory]
    exact ready'.space.congr heap words
  · exact ready'.identity.congr heap words
  · rw [current, directory, words]
    exact ready'.active
  · refine complete.new.transport ⟨congrArg Heap.startAddress heap, congrArg (fun heap => heap.table.total) heap⟩ ?_ ?_
      (directories _)
    · intro block has
      rw [heap]
      exact complete.new.owned has
    · intro block _ index _
      rw [words]
  · intro block has isKernel
    have apart := (complete.spaceFresh block has).1 _ trivial (active.space.owned block isKernel)
    exact Extent.not_apart_self _ apart

/-! ## A task to copy from -/

/-- The bytes of memory do not matter to a call. -/
theorem CallsFor.withBytes {kernel : Kernel} {task : Word} {kernelBlocks : SpaceBlocks} {blocks : TaskBlocks}
    (calls : CallsFor kernel task kernelBlocks blocks) (bytes : Word -> Byte) :
    CallsFor (kernel.withStore { kernel.toStore with bytes := bytes }) task kernelBlocks blocks where
  caller :=
    { kernelHeap := calls.caller.kernelHeap
      encoded := calls.caller.encoded
      space := calls.caller.space.congr rfl rfl
      identity := calls.caller.identity.congr rfl rfl
      active := calls.caller.active }
  callee :=
    { address := calls.callee.address
      taskOwned := calls.callee.taskOwned
      space := calls.callee.space.congr rfl rfl
      apart := calls.callee.apart }
  apart := calls.apart

theorem firstTask_callsFor {kernel : Kernel} {kernelBlocks : SpaceBlocks} (active : KernelActive kernel kernelBlocks)
    (room : RoomFrom kernel 1026) :
    exists blocks, CallsFor (makeNewTask kernel 0#32).2 (makeNewTask kernel 0#32).1 kernelBlocks blocks ∧
      IdentityMapped (makeNewTask kernel 0#32).2 0b101#32 blocks.space ∧
        (makeNewTask kernel 0#32).2.heap.FreeFrom 2053 := by
  have total : kernel.heap.table.total.toNat = 25600 := by
    rw [room.kernelHeap.total]
    rfl
  rcases makeNewTask_freeFrom active.kernelHeap.wellPlaced 0#32 room.free (by rw [total]; decide) with ⟨task, later⟩
  rcases makeNewTask_callsFor active 0#32 task with ⟨blocks, calls, identity⟩
  exact ⟨blocks, calls, identity, later⟩

/-- A task that can be copied from, and some bytes in memory. -/
structure CopySetting (kernel : Kernel) (task : Word) (kernelBlocks : SpaceBlocks) (blocks : TaskBlocks)
    (bytes : Word -> Byte) : Prop where
  calls : CallsFor kernel task kernelBlocks blocks
  identity : IdentityMapped kernel 0b101#32 blocks.space
  free : kernel.heap.FreeFrom 2053
  bytes : kernel.bytes = bytes

theorem CallsFor.setting {kernel : Kernel} {task : Word} {kernelBlocks : SpaceBlocks} {blocks : TaskBlocks}
    (calls : CallsFor kernel task kernelBlocks blocks) (identity : IdentityMapped kernel 0b101#32 blocks.space)
    (free : kernel.heap.FreeFrom 2053) (bytes : Word -> Byte) :
    CopySetting (kernel.withStore { kernel.toStore with bytes := bytes }) task kernelBlocks blocks bytes :=
  ⟨calls.withBytes bytes, identity.congr rfl rfl, free, rfl⟩

/-- Whatever the memory holds, there is a kernel with one task. -/
theorem exists_copySetting (bytes : Word -> Byte) :
    exists kernel task kernelBlocks blocks, CopySetting kernel task kernelBlocks blocks bytes := by
  have created := kheapInit_isKernelHeap (Kernel.loaded Store.blank (fun _ _ => 0#8) fun _ => 0#8) fun _ => 0#8
  have free := kheapInit_freeFrom (Kernel.loaded Store.blank (fun _ _ => 0#8) fun _ => 0#8) fun _ => 0#8
  have encoded := kheapInit_encoded (Kernel.loaded Store.blank (fun _ _ => 0#8) fun _ => 0#8) fun _ => 0#8
  have first : (kheapInit (Kernel.loaded Store.blank (fun _ _ => 0#8) fun _ => 0#8) fun _ => 0#8).kernelDirectory = 0#32 := by
    rw [kheapInit, Kernel.withHeap_toGlobals]
    rfl
  generalize kheapInit (Kernel.loaded Store.blank (fun _ _ => 0#8) fun _ => 0#8) (fun _ => 0#8) = fresh at *
  have total : fresh.heap.table.total.toNat = 25600 := by
    rw [created.total]
    rfl
  have made := (makeNew4GB_freeFrom created.wellPlaced 0b00000111#8 free (by rw [total]; decide)).1
  rcases vmInitialize_kernelActive created encoded first made with ⟨kernelBlocks, active⟩
  have room := vmInitialize_room ⟨created, free⟩ (show 0 + 1026 ≤ 25600 by decide)
  rcases firstTask_callsFor active room with ⟨blocks, calls, identity, later⟩
  exact ⟨_, _, kernelBlocks, blocks, calls.setting identity later bytes⟩

/-- A block for a small copy. -/
theorem hands_of_freeFrom {kernel : Kernel} (placed : kernel.heap.WellPlaced) {first : Nat}
    (free : kernel.heap.FreeFrom first) (inside : first < kernel.heap.table.total.toNat) {size : Word}
    (one : blocksFor size = 1) : exists block, block ≤ first ∧ kernel.heap.Hands size (Extent.single block) := by
  rcases kzalloc_page placed one with ⟨block, hands, _⟩ | ⟨exhausted, _⟩
  · refine ⟨block, Nat.not_lt.mp fun above => hands.lowest first above ⟨?_, fun other lower upper => ?_⟩, hands⟩
    · rw [one]
      exact inside
    · rw [one] at upper
      exact free other lower (by omega)
  · exact absurd (free first (Nat.le_refl _) inside) (exhausted first inside)

/-- Memory between the entry table and the pool is apart from both. -/
theorem low_apart {kernel : Kernel} (kernelHeap : kernel.heap.IsKernelHeap) {place : Word}
    (above : entryTableAddress + 25600 ≤ place.toNat) (below : place.toNat < 0x01000000) :
    OutsideTable kernel.heap place ∧ forall blocks, ¬ InSpace kernel.heap blocks place := by
  have start : KERNEL_HEAP_START_ADDRESS.toNat = 0x01000000 := rfl
  have total : (25600#32).toNat = 25600 := rfl
  refine ⟨fun block inside same => ?_, ?_⟩
  · rw [kernelHeap.total, total] at inside
    omega
  · rintro blocks ⟨block, _, lower, _⟩
    rw [kernelHeap.start, start] at lower
    omega

/-- A copy of one byte that gets a page stores what the first copy has left there. -/
theorem CallsFor.storesByte {kernel read : Kernel} {task : Word} {kernelBlocks : SpaceBlocks} {blocks : TaskBlocks}
    (calls : CallsFor kernel task kernelBlocks blocks) {block : Nat}
    (hands : kernel.heap.Hands (intToWord 1) (Extent.single block)) {userPtr toPtr : Word}
    (first : strncpy (lentKernel kernel task blocks.space block (intToWord 1)) (kernel.heap.addressOf block) userPtr
      (intToWord 1) = some read) (toNotNull : toPtr ≠ 0#32) (apart : ¬ InSpace kernel.heap kernelBlocks toPtr) :
    copyFromUser kernel task userPtr toPtr 1 =
      some (0, kfree (storeByte (regainedKernel kernel read blocks.space block (intToWord 1)) toPtr
        (read.bytes (kernel.heap.addressOf block))) (kernel.heap.addressOf block)) := by
  have tmpNotNull : kernel.heap.addressOf block ≠ 0#32 := calls.caller.kernelHeap.wellPlaced.addressOf_ne_null hands.inside
  have only := firstCopy_storesOnly calls hands first
  have borrowed := regainedKernel_borrowed calls hands only
  have physical {copied : Kernel} (only' : StoresOnly (· = toPtr)
      (regainedKernel kernel read blocks.space block (intToWord 1)) copied) (virt : Word) :
      activePlace copied virt = some virt :=
    calls.activePlace_copied hands borrowed (fun place (same : place = toPtr) => same.symm ▸ apart) only' virt
  have refl := StoresOnly.refl (· = toPtr) (regainedKernel kernel read blocks.space block (intToWord 1))
  have second := strncpy_one toNotNull tmpNotNull (physical refl _) (physical refl _)
    (by rw [physical (refl.storeByte rfl _)]; rfl)
  rw [copyFromUser_served calls (by decide) (by decide) hands, first, Option.bind_some]
  simp only [takenBack calls hands only]
  rw [if_neg (by decide)]
  exact congrArg (Option.map _) second

/-- A copy of one byte that gets a page stores the byte. -/
theorem CopySetting.copiesByte {kernel : Kernel} {task : Word} {kernelBlocks : SpaceBlocks} {blocks : TaskBlocks}
    {bytes : Word -> Byte} (setting : CopySetting kernel task kernelBlocks blocks bytes) {userPtr toPtr : Word}
    (user : 0 < userPtr.toNat ∧ userPtr.toNat < 0x01000000) (aligned : userPtr.toNat % pagingPageSize = 0)
    (toNotNull : toPtr ≠ 0#32) (apart : ¬ InSpace kernel.heap kernelBlocks toPtr) : exists block borrowed, block ≤ 2053 ∧ Borrowed block kernel borrowed ∧
      borrowed.heap.Owns (Extent.single block) ∧
        copyFromUser kernel task userPtr toPtr 1 =
          some (0, kfree (storeByte borrowed toPtr (bytes userPtr)) (kernel.heap.addressOf block)) := by
  have calls := setting.calls
  have kernelHeap := calls.caller.kernelHeap
  have placed := kernelHeap.wellPlaced
  have total : kernel.heap.table.total.toNat = 25600 := by
    rw [kernelHeap.total]
    rfl
  have start : kernel.heap.startAddress.toNat = 0x01000000 := by
    rw [kernelHeap.start]
    rfl
  rcases hands_of_freeFrom placed setting.free (by rw [total]; decide) (show blocksFor (intToWord 1) = 1 by decide) with
    ⟨block, upTo, hands⟩
  have userNotNull : userPtr ≠ 0#32 := by
    rintro rfl
    exact Nat.lt_irrefl 0 user.1
  have tmpNotNull : kernel.heap.addressOf block ≠ 0#32 := placed.addressOf_ne_null hands.inside
  have tmpAligned : (kernel.heap.addressOf block).toNat % pagingPageSize = 0 := placed.addressOf_aligned hands.inside
  have tmpPlace : (kernel.heap.addressOf block).toNat = kernel.heap.startAddress.toNat + heapBlockSizeBytes * block :=
    placed.toNat_addressOf hands.inside
  have refl := StoresOnly.refl (kernel.heap.InExtent (Extent.single block))
    (lentKernel kernel task blocks.space block (intToWord 1))
  -- The user's page keeps its own entry.
  have different : blocks.space.entryAddress kernel.heap userPtr ≠ borrowedEntry kernel blocks.space block := by
    intro same
    have equal := calls.callee.space.entryAddress_injective placed aligned tmpAligned same
    rw [equal, tmpPlace, start] at user
    omega
  have source {read : Kernel} (only : StoresOnly (kernel.heap.InExtent (Extent.single block))
      (lentKernel kernel task blocks.space block (intToWord 1)) read) : activePlace read userPtr = some userPtr := by
    rw [firstCopy_place calls hands only, if_neg different, identity_entry setting.identity]
    exact place_self (by decide) (by decide)
  have target := firstCopy_writes calls hands refl (show 0 < 4096 by decide)
  have base : kernel.heap.addressOf block + BitVec.ofNat 32 0 = kernel.heap.addressOf block := BitVec.add_zero _
  rw [base] at target
  have outside : ¬ kernel.heap.InExtent (Extent.single block) userPtr := by
    intro inside
    have lower := inside.1
    omega
  have byte : (lentKernel kernel task blocks.space block (intToWord 1)).bytes userPtr = bytes userPtr := by
    rw [← setting.bytes]
    exact if_neg fun covered => outside (placed.inExtent_of_lt hands covered)
  have only := refl.storeByte target.2 (bytes userPtr)
  have first : strncpy (lentKernel kernel task blocks.space block (intToWord 1)) (kernel.heap.addressOf block) userPtr
      (intToWord 1) = some (storeByte (lentKernel kernel task blocks.space block (intToWord 1))
        (kernel.heap.addressOf block) (bytes userPtr)) := by
    rw [← byte] at only ⊢
    refine strncpy_one tmpNotNull userNotNull (source refl) target.1 ?_
    rw [source only]
    rfl
  have borrowed := regainedKernel_borrowed calls hands only
  have copied : (storeByte (lentKernel kernel task blocks.space block (intToWord 1)) (kernel.heap.addressOf block)
      (bytes userPtr)).bytes (kernel.heap.addressOf block) = bytes userPtr := Function.update_self _ _ _
  have stored := calls.storesByte hands first toNotNull apart
  rw [copied] at stored
  exact ⟨block, _, upTo, borrowed, borrowed.ownsPage hands, stored⟩

/-- While the second copy writes to a destination apart from the page structures of the
kernel, every address is physical. -/
theorem secondCopy_physical {kernel : Kernel} {task : Word} {kernelBlocks : SpaceBlocks} {blocks : TaskBlocks}
    (calls : CallsFor kernel task kernelBlocks blocks) {toPtr : Word} {size : Int}
    (apart : forall place, Destination toPtr size place -> ¬ InSpace kernel.heap kernelBlocks place) {block : Nat}
    (hands : kernel.heap.Hands (intToWord size) (Extent.single block)) {read copied : Kernel}
    (only : StoresOnly (kernel.heap.InExtent (Extent.single block))
      (lentKernel kernel task blocks.space block (intToWord size)) read)
    (only' : StoresOnly (Destination toPtr size) (regainedKernel kernel read blocks.space block (intToWord size)) copied)
    (virt : Word) : activePlace copied virt = some virt :=
  calls.activePlace_copied hands (regainedKernel_borrowed calls hands only) apart only' virt

/-- What the second copy writes. -/
theorem secondCopy_storesOnly {kernel : Kernel} {task : Word} {kernelBlocks : SpaceBlocks} {blocks : TaskBlocks}
    (calls : CallsFor kernel task kernelBlocks blocks) {toPtr : Word} {size : Int}
    (apart : forall place, Destination toPtr size place -> ¬ InSpace kernel.heap kernelBlocks place)
    (value : (intToWord size).toNat = size.toNat) {block : Nat} (hands : kernel.heap.Hands (intToWord size) (Extent.single block)) {read copied : Kernel}
    (only : StoresOnly (kernel.heap.InExtent (Extent.single block))
      (lentKernel kernel task blocks.space block (intToWord size)) read)
    (second : strncpy (regainedKernel kernel read blocks.space block (intToWord size)) toPtr (kernel.heap.addressOf block)
      (intToWord size) = some copied) :
    StoresOnly (Destination toPtr size) (regainedKernel kernel read blocks.space block (intToWord size)) copied := by
  refine strncpy_storesOnly (fun kernel' only' count below place active => ?_) second
  rw [secondCopy_physical calls apart hands only only'] at active
  obtain rfl := Option.some.inj active
  exact ⟨count, by omega, rfl⟩

/-- A copy between pages that are present comes back. -/
theorem copyFromUser_isSome {kernel : Kernel} {task : Word} {kernelBlocks : SpaceBlocks} {blocks : TaskBlocks}
    (calls : CallsFor kernel task kernelBlocks blocks) (userPtr toPtr : Word) {size : Int} (int : -2 ^ 31 ≤ size)
    (apart : forall place, Destination toPtr size place -> ¬ InSpace kernel.heap kernelBlocks place)
    (isPresent : forall virt : Word, virt.toNat % pagingPageSize = 0 ->
      present (pagingGetEntryOfAddress kernel (kernel.tasks task).pageDirectory virt) = true) :
    (copyFromUser kernel task userPtr toPtr size).isSome := by
  rcases copyFromUser_cases calls int userPtr toPtr with ⟨block, small, hands⟩ | ⟨res, _, refused, outcome⟩
  · rcases hands_page calls.caller.kernelHeap int small hands with ⟨positive, value, _⟩
    have first : (strncpy (lentKernel kernel task blocks.space block (intToWord size)) (kernel.heap.addressOf block)
        userPtr (intToWord size)).isSome := by
      refine strncpy_isSome (fun kernel' only count below => ⟨_, firstCopy_writes calls hands only (by omega)⟩) ?_
      intro kernel' only count below
      rw [firstCopy_place calls hands only, place]
      refine Option.isSome_iff_exists.mpr ⟨_, if_pos ?_⟩
      split
      · exact present_or _ _ (by decide)
      · exact taskPage_present calls isPresent _
    rcases Option.isSome_iff_exists.mp first with ⟨read, firstCopy⟩
    have only : StoresOnly (kernel.heap.InExtent (Extent.single block))
        (lentKernel kernel task blocks.space block (intToWord size)) read :=
      firstCopy_storesOnly calls hands firstCopy
    have second : (strncpy (regainedKernel kernel read blocks.space block (intToWord size)) toPtr
        (kernel.heap.addressOf block) (intToWord size)).isSome := by
      refine strncpy_isSome (fun kernel' only' count below => ⟨_, secondCopy_physical calls apart hands only only' _,
        ⟨count, by omega, rfl⟩⟩) ?_
      intro kernel' only' count _
      rw [secondCopy_physical calls apart hands only only']
      rfl
    rw [copyFromUser_served calls int small hands, firstCopy, Option.bind_some]
    simp only [takenBack calls hands only]
    rw [if_neg (by decide), Option.isSome_map]
    exact second
  · rw [outcome]
    rfl

/-- A call with the directory of the kernel active and with a destination apart from
the page structures and from the entry table (and from the state of the kernel that no
store of the model reaches) leaves the directory active, every entry of the address
space of the task as it was, and the entry table as it was, however it ends.  It comes
back when the pages of the task are present.  The accessed and dirty bits, which the
processor sets on its own, are no part of the model. -/
theorem copyFromUser_restores {kernel : Kernel} {task : Word} {kernelBlocks : SpaceBlocks} {blocks : TaskBlocks}
    (calls : CallsFor kernel task kernelBlocks blocks) (userPtr toPtr : Word) {size : Int} (int : -2 ^ 31 ≤ size)
    (apart : ApartFromPages kernel kernelBlocks blocks (Destination toPtr size))
    (table : forall place, Destination toPtr size place -> OutsideTable kernel.heap place) :
    (forall res after, copyFromUser kernel task userPtr toPtr size = some (res, after) ->
      Restored kernel after (kernel.tasks task).pageDirectory) ∧
    ((forall virt : Word, virt.toNat % pagingPageSize = 0 ->
      present (pagingGetEntryOfAddress kernel (kernel.tasks task).pageDirectory virt) = true) ->
        (copyFromUser kernel task userPtr toPtr size).isSome) := by
  have outsideKernel := fun place isPlace => (apart place isPlace).1
  refine ⟨fun res after returns => ?_, copyFromUser_isSome calls userPtr toPtr int outsideKernel⟩
  rcases copyFromUser_cases calls int userPtr toPtr with ⟨block, small, hands⟩ | ⟨res, _, refused, outcome⟩
  · rcases hands_page calls.caller.kernelHeap int small hands with ⟨positive, value, _⟩
    rcases copyFromUser_returned calls int small hands returns with ⟨read, copied, _, only, second, rfl, rfl⟩
    exact calls.restored hands (regainedKernel_borrowed calls hands only) outsideKernel table
      (fun place isPlace => (apart place isPlace).2) (secondCopy_storesOnly calls outsideKernel value hands only second)
  · rw [outcome] at returns
    rcases Prod.mk.inj (Option.some.inj returns) with ⟨rfl, rfl⟩
    exact restored_refused calls.caller _ refused

/-- A short copy into a buffer below the heap. -/
theorem copyFromUser_restores_short : exists kernel task kernelBlocks blocks res after,
    CallsFor kernel task kernelBlocks blocks ∧ copyFromUser kernel task 0x100000#32 0x200000#32 16 = some (res, after) ∧
      Restored kernel after (kernel.tasks task).pageDirectory := by
  rcases exists_copySetting fun _ => 0x41#8 with ⟨kernel, task, kernelBlocks, blocks, setting⟩
  have calls := setting.calls
  have low : forall place, Destination 0x200000#32 16 place ->
      OutsideTable kernel.heap place ∧ forall blocks, ¬ InSpace kernel.heap blocks place := by
    rintro place ⟨count, below, rfl⟩
    have value : (0x200000#32 + BitVec.ofNat 32 count).toNat = 0x200000 + count := by
      rw [BitVec.toNat_add, BitVec.toNat_ofNat, BitVec.toNat_ofNat]
      omega
    refine low_apart calls.caller.kernelHeap ?_ ?_
    · rw [value]
      unfold entryTableAddress
      omega
    · rw [value]
      omega
  rcases copyFromUser_restores calls 0x100000#32 0x200000#32 (show -2 ^ 31 ≤ 16 by decide)
    (fun place inside => ⟨(low place inside).2 _, (low place inside).2 _⟩) (fun place inside => (low place inside).1) with
    ⟨restores, comesBack⟩
  have isPresent : forall virt : Word, virt.toNat % pagingPageSize = 0 ->
      present (pagingGetEntryOfAddress kernel (kernel.tasks task).pageDirectory virt) = true := by
    intro virt aligned
    rw [calls.callee.space.getEntry calls.caller.kernelHeap.wellPlaced (by decide) aligned, identity_entry setting.identity]
    exact present_or _ _ (by decide)
  rcases Option.isSome_iff_exists.mp (comesBack isPresent) with ⟨⟨res, after⟩, returns⟩
  exact ⟨kernel, task, kernelBlocks, blocks, res, after, calls, returns, restores res after returns⟩

/-- A copy over the entry table, of one byte to the entry of block 5000. -/
theorem copyFromUser_overTable : exists kernel task kernelBlocks blocks after,
    CallsFor kernel task kernelBlocks blocks ∧ ApartFromPages kernel kernelBlocks blocks (Destination 0x9188#32 1) ∧
      copyFromUser kernel task 0x100000#32 0x9188#32 1 = some (0, after) ∧
        ¬ Restored kernel after (kernel.tasks task).pageDirectory := by
  rcases exists_copySetting fun _ => 0x41#8 with ⟨kernel, task, kernelBlocks, blocks, setting⟩
  have calls := setting.calls
  have kernelHeap := calls.caller.kernelHeap
  have apart : forall blocks, ¬ InSpace kernel.heap blocks 0x9188#32 := by
    rintro blocks ⟨block, _, lower, _⟩
    rw [kernelHeap.start] at lower
    have start : KERNEL_HEAP_START_ADDRESS.toNat = 0x01000000 := rfl
    have place : (0x9188#32).toNat = 0x9188 := rfl
    omega
  rcases setting.copiesByte (show 0 < (0x100000#32).toNat ∧ (0x100000#32).toNat < 0x01000000 by decide) (by decide)
    (show 0x9188#32 ≠ 0#32 by decide) (apart kernelBlocks) with ⟨block, borrowed, upTo, page, owned, returns⟩
  refine ⟨kernel, task, kernelBlocks, blocks, _, calls, ?_, returns, fun restored => ?_⟩
  · rintro place ⟨count, below, rfl⟩
    obtain rfl : count = 0 := by omega
    exact ⟨apart kernelBlocks, apart blocks.space⟩
  · have total : kernel.heap.table.total.toNat = 25600 := by
      rw [kernelHeap.total]
      rfl
    have isFree := setting.free 5000 (by decide) (by rw [total]; decide)
    have same := restored.table 5000 (by rw [total]; decide)
    have index : ((0x9188#32 : Word).toNat - entryTableAddress : Int) = (5000 : Nat) := rfl
    have stored : (storeByte borrowed 0x9188#32 0x41#8).heap.table.entries =
        Function.update borrowed.heap.table.entries (5000 : Nat) 0x41#8 := by
      rw [← index]
      rfl
    have pool : kernel.heap.SamePool (storeByte borrowed 0x9188#32 0x41#8).heap := ⟨page.pool.start, page.pool.total⟩
    have still : (storeByte borrowed 0x9188#32 0x41#8).heap.Owns (Extent.single block) := by
      refine ⟨owned.recorded.transport fun other covered => ?_, owned.within⟩
      have small : other ≠ 5000 := by
        have here := Extent.covers_single.mp covered
        omega
      rw [Heap.blocks, stored, Function.update_of_ne fun equal => small (Int.natCast_inj.mp equal)]
      rfl
    have uncovered : ¬ (Extent.single block).Covers 5000 := fun covered => by
      have here := Extent.covers_single.mp covered
      omega
    rw [← pool.addressOf, kfree_page (kernelHeap.samePool pool) still, Kernel.withHeap_heap, Heap.withEntries_entries,
      clearExtent_of_not_covers _ uncovered, stored, Function.update_self] at same
    unfold BlockFree at isFree
    rw [← same] at isFree
    exact absurd isFree (by decide)

end Tasks
end LarvaOS
