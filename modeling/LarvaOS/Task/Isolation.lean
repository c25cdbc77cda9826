import LarvaOS.Task.UserPages

namespace LarvaOS
namespace Tasks

open Disk Fs Library Memory PageWalk

/-!
# Programs stay isolated

A load leaves the allocations, the records and the page structures of the other
processes alone, and gives the new process an image of its own.  A copy from a task
has its temporary mapping undone when it returns, and writes to its destination.

A destination over page structures, over the entry table of the heap or over a record
undoes the isolation.  So do three requests that are refused: for the record of a
process, whose address is released nevertheless, for a component of a path, which is
then written at address 0, and for a page structure.
-/

/-! ## What keeps the address spaces -/

/-- What is owned stays owned, with the records in it and the page structures that no
place lies in. -/
structure KeepsSpaces (places : Word -> Prop) (before after : Kernel) : Prop where
  pool : before.heap.SamePool after.heap
  owns : forall extent, before.heap.Owns extent -> after.heap.Owns extent
  records : forall extent, before.heap.Owns extent -> forall address, before.heap.InExtent extent address ->
    after.processRecords address = before.processRecords address ∧
      (after.tasks address).pageDirectory = (before.tasks address).pageDirectory
  words : forall block, before.heap.Owns (Extent.single block) ->
    (forall place, places place -> ¬ before.heap.InExtent (Extent.single block) place) -> forall index, index < 1024 ->
      after.words (wordAt (before.heap.addressOf block) index) = before.words (wordAt (before.heap.addressOf block) index)
  encoded : before.heap.Encoded -> after.heap.Encoded
  kernelDirectory : after.kernelDirectory = before.kernelDirectory
  currentDirectory : after.currentDirectory = before.currentDirectory

namespace KeepsSpaces

variable {places : Word -> Prop} {before after : Kernel} (keeps : KeepsSpaces places before after)
include keeps

/-- The words of an address space. -/
theorem spaceWords {page flags : Word} {blocks : SpaceBlocks} (space : SpaceAt before page flags blocks)
    (outside : forall place, places place -> ¬ InSpace before.heap blocks place) {block : Nat} (has : blocks.Has block)
    {index : Nat} (bound : index < 1024) : after.words (wordAt (before.heap.addressOf block) index) =
      before.words (wordAt (before.heap.addressOf block) index) :=
  keeps.words block (space.owned block has) (fun place isPlace inside => outside place isPlace ⟨block, has, inside⟩) index bound

theorem kernelActive {blocks : SpaceBlocks} (active : KernelActive before blocks)
    (outside : forall place, places place -> ¬ InSpace before.heap blocks place) : KernelActive after blocks := by
  have space : SpaceAt after before.kernelDirectory 0b111#32 blocks :=
    active.space.transport keeps.pool (fun block has => keeps.owns _ (active.space.owned block has))
      fun block has index bound => keeps.spaceWords active.space outside has bound
  refine ⟨active.kernelHeap.samePool keeps.pool, keeps.encoded active.encoded, ?_, ?_, ?_⟩
  · rw [keeps.kernelDirectory]
    exact space
  · intro i j inside bound
    rw [keeps.pool.addressOf, keeps.spaceWords active.space outside (Or.inr (Or.inr ⟨i, inside, rfl⟩)) bound]
    exact active.identity i j inside bound
  · rw [keeps.currentDirectory, keeps.kernelDirectory, space.chunkWord, active.active, active.space.chunkWord,
      keeps.pool.addressOf]

/-- The record of a process that stays in its slot. -/
theorem slotProcess {slot : Nat} {blocks : ProcessBlocks} (process : ProcessAt before slot blocks)
    (same : after.processes slot = before.processes slot) : Tasks.slotProcess after slot = Tasks.slotProcess before slot := by
  have inRecord : before.heap.InExtent blocks.record (before.processes slot) := by
    rw [process.recordAddress]
    exact inExtent_addressOf process.map.placed process.recordOwned
  unfold Tasks.slotProcess
  rw [same]
  exact (keeps.records _ process.recordOwned _ inRecord).1

/-- The task of a process, and its address space. -/
theorem taskDirectory {slot : Nat} {blocks : ProcessBlocks} (process : ProcessAt before slot blocks) :
    (after.tasks (Tasks.slotProcess before slot).task).pageDirectory =
      (before.tasks (Tasks.slotProcess before slot).task).pageDirectory := by
  have inTask : before.heap.InExtent (Extent.single blocks.task.task) (Tasks.slotProcess before slot).task := by
    rw [process.task.address]
    exact inExtent_addressOf process.map.placed process.task.taskOwned
  exact (keeps.records _ process.task.taskOwned _ inTask).2

theorem slotPage {slot : Nat} {blocks : ProcessBlocks} (process : ProcessAt before slot blocks)
    (same : after.processes slot = before.processes slot) : Tasks.slotPage after slot = Tasks.slotPage before slot := by
  unfold Tasks.slotPage
  rw [keeps.slotProcess process same]
  exact keeps.taskDirectory process

/-- A process that stays in its slot. -/
theorem processAt {slot : Nat} {blocks : ProcessBlocks} (process : ProcessAt before slot blocks)
    (same : after.processes slot = before.processes slot)
    (outside : forall place, places place -> ¬ InSpace before.heap blocks.task.space place) :
    ProcessAt after slot blocks := by
  have placed := process.map.placed
  have record := keeps.slotProcess process same
  have directory := keeps.taskDirectory process
  have page := keeps.slotPage process same
  have words (block : Nat) (has : blocks.task.space.Has block) (index : Nat) (bound : index < 1024) :=
    keeps.spaceWords process.map.space outside has bound
  refine ⟨keeps.owns _ process.recordOwned, ?_, ?_, ⟨keeps.pool.wellPlaced placed, ?_, ?_⟩, keeps.owns _ process.imageOwned, ?_⟩
  · rw [same, keeps.pool.addressOf]
    exact process.recordAddress
  · rw [record]
    exact process.task.transport keeps.pool (fun block has => keeps.owns _ (process.task.owned has)) words directory
  · rw [page]
    exact process.map.space.transport keeps.pool (fun block has => keeps.owns _ (process.map.space.owned block has)) words
  · intro virt aligned
    have inside := Memory.directoryIndex_lt virt
    rw [record, entryAddress_pool keeps.pool, ← process.map.entries virt aligned]
    exact words _ (Or.inr (Or.inr ⟨_, inside, rfl⟩)) _ (Memory.tableIndex_lt virt)
  · rw [record, keeps.pool.addressOf]
    exact process.imageAddress

end KeepsSpaces

/-- The places are apart from the page structures of the kernel and of every process. -/
def ApartFromSpaces (kernel : Kernel) (kernelBlocks : SpaceBlocks) (blocks : Nat -> ProcessBlocks)
    (places : Word -> Prop) : Prop :=
  forall place, places place -> ¬ InSpace kernel.heap kernelBlocks place ∧
    forall slot, Occupied kernel slot -> ¬ InSpace kernel.heap (blocks slot).task.space place

/-- A kernel with the same processes. -/
theorem Isolated.keep {kernel after : Kernel} {kernelBlocks : SpaceBlocks} {blocks : Nat -> ProcessBlocks}
    (isolated : Isolated kernel kernelBlocks blocks) {places : Word -> Prop} (keeps : KeepsSpaces places kernel after)
    (processes : after.processes = kernel.processes) (apart : ApartFromSpaces kernel kernelBlocks blocks places) :
    Isolated after kernelBlocks blocks := by
  have before {slot : Nat} (occupied : Occupied after slot) : Occupied kernel slot := by
    unfold Occupied at occupied ⊢
    rw [processes] at occupied
    exact occupied
  exact
    { active := keeps.kernelActive isolated.active fun place isPlace => (apart place isPlace).1
      processes := fun slot occupied => keeps.processAt (isolated.processes slot (before occupied)) (congrFun processes slot)
        fun place isPlace => (apart place isPlace).2 slot (before occupied)
      images := fun left right leftTaken rightTaken => isolated.images left right (before leftTaken) (before rightTaken)
      objects := fun slot other extent taken otherTaken => isolated.objects slot other extent (before taken) (before otherTaken)
      kernelPages := fun slot block taken => isolated.kernelPages slot block (before taken)
      apart := fun slot block taken => isolated.apart slot block (before taken) }

/-! ## The load -/

theorem NothingLoaded.keepsSpaces {kernel : Kernel} (placed : kernel.heap.WellPlaced) {loading : Loading}
    (nothing : NothingLoaded kernel loading) : KeepsSpaces (fun _ => False) kernel loading.kernel where
  pool := nothing.keeps.pool
  owns := nothing.keeps.owns
  records := by
    intro extent owned address inside
    rcases nothing.keeps.same extent owned address inside with ⟨task, record, _⟩
    exact ⟨record, congrArg Task.pageDirectory task⟩
  words := fun block owned _ index bound => (nothing.keeps.same _ owned _ (inExtent_wordAt placed owned bound)).2.2
  encoded := fun encoded => (nothing.requests.encoded placed encoded).2
  kernelDirectory := (congrArg Globals.kernelDirectory nothing.globals).trans rfl
  currentDirectory := (congrArg Globals.currentDirectory nothing.globals).trans rfl

section Loaded

variable {kernel ready : Kernel} {loading : Loading} {slot : Nat} {process task : Word} {taskBlocks : TaskBlocks}
  (complete : ProcessLoaded kernel ready loading slot process task)
  (space : SpaceLoaded kernel loading process task taskBlocks)
include complete space

theorem ProcessLoaded.keepsSpaces (placed : kernel.heap.WellPlaced) :
    KeepsSpaces (fun _ => False) kernel loading.kernel where
  pool := by
    rw [complete.heap]
    exact complete.keeps.pool
  owns := by
    rw [complete.heap]
    exact complete.keeps.owns
  records := by
    intro extent owned address inside
    rcases complete.recordOwned with ⟨new, acquired⟩
    rcases complete.keeps.same extent owned address inside with ⟨sameTask, sameRecord, _⟩
    have old : address ≠ process := by
      rintro rfl
      exact acquired.fresh_pointer placed complete.keeps.pool extent trivial owned inside
    rw [complete.records, complete.tasks, Function.update_of_ne old,
      appendTask_record Task.pageDirectory ready task address (fun _ _ => rfl) fun _ _ => rfl]
    exact ⟨sameRecord, congrArg Task.pageDirectory sameTask⟩
  words := fun block owned _ index bound => space.words _ owned _ (inExtent_wordAt placed owned bound)
  encoded := fun encoded => (space.requests.encoded placed encoded).2
  kernelDirectory := by
    rw [(congrArg Globals.kernelDirectory complete.linked).trans rfl]
    exact (appendTask_directories ready task).1.trans ((congrArg Globals.kernelDirectory complete.globals).trans rfl)
  currentDirectory := by
    rw [(congrArg Globals.currentDirectory complete.linked).trans rfl]
    exact (appendTask_directories ready task).2.trans ((congrArg Globals.currentDirectory complete.globals).trans rfl)

/-- The allocations of a new process. -/
theorem ProcessLoaded.processAt : exists new, new.task = taskBlocks ∧
    (forall extent, new.Holds extent -> FreshExtent (fun _ => True) kernel extent) ∧
      FreshExtent (fun _ => True) kernel new.image ∧ (forall extent, new.Holds extent -> new.image ≠ extent) ∧
        ProcessAt loading.kernel slot new := by
  rcases complete.recordOwned with ⟨extent, acquired⟩
  rcases space.image with ⟨image, imageAcquired, apart⟩
  have isNew : loading.kernel.processes slot = process := by
    rw [complete.processes]
    exact Function.update_self _ _ _
  have stored : slotProcess loading.kernel slot = loading.kernel.processRecords process :=
    congrArg loading.kernel.processRecords isNew
  have sameTask : (loading.kernel.processRecords process).task = task := congrArg Process.task complete.record
  have finalAcquired := acquired.of_heap complete.heap
  refine ⟨⟨extent, taskBlocks, image⟩, rfl, ?_, imageAcquired.fresh, ?_, ⟨finalAcquired.owned, ?_, ?_, ?_, imageAcquired.owned, ?_⟩⟩
  · rintro other (rfl | ⟨block, has, rfl⟩)
    · exact acquired.fresh
    · exact space.fresh block has
  · rintro other (isRecord | ⟨block, has, rfl⟩)
    · intro sameExtent
      have same : image = extent := sameExtent.trans isRecord
      refine space.apart (finalAcquired.address.trans ?_)
      rw [← same]
      exact imageAcquired.address.symm
    · exact apart block has
  · rw [isNew]
    exact finalAcquired.address
  · rw [stored, sameTask]
    exact space.laid
  · unfold slotPage
    rw [stored, sameTask]
    exact space.map
  · rw [stored]
    exact imageAcquired.address

end Loaded

/-- What is owned is not fresh. -/
theorem ne_of_freshExtent {kernel : Kernel} {old new : Extent} (fresh : FreshExtent (fun _ => True) kernel new)
    (owned : kernel.heap.Owns old) : old ≠ new := by
  rintro rfl
  exact Extent.not_apart_self _ (fresh old trivial owned)

/-- A new process has an image of its own. -/
theorem Isolated.loaded {kernel ready : Kernel} {loading : Loading} {slot : Nat} {process task : Word}
    {taskBlocks : TaskBlocks} {kernelBlocks : SpaceBlocks} {blocks : Nat -> ProcessBlocks}
    (isolated : Isolated kernel kernelBlocks blocks) (complete : ProcessLoaded kernel ready loading slot process task)
    (space : SpaceLoaded kernel loading process task taskBlocks) :
    exists blocks', Isolated loading.kernel kernelBlocks blocks' := by
  have keeps := complete.keepsSpaces space isolated.active.kernelHeap.wellPlaced
  rcases complete.processAt space with ⟨new, rfl, holdsFresh, imageFresh, imageApart, newAt⟩
  have old {other : Nat} (different : other ≠ slot) (occupied : Occupied loading.kernel other) :
      Occupied kernel other ∧ Function.update blocks slot new other = blocks other := by
    refine ⟨⟨occupied.1, ?_⟩, Function.update_of_ne different _ _⟩
    have taken := occupied.2
    rw [complete.processes, Function.update_of_ne different] at taken
    exact taken
  have self : Function.update blocks slot new slot = new := Function.update_self _ _ _
  refine ⟨Function.update blocks slot new, keeps.kernelActive isolated.active fun _ impossible => impossible.elim, ?_, ?_, ?_, ?_, ?_⟩
  · intro other occupied
    by_cases same : other = slot
    · rw [same, self]
      exact newAt
    · rcases old same occupied with ⟨taken, blocksSame⟩
      rw [blocksSame]
      refine keeps.processAt (isolated.processes other taken) ?_ fun _ impossible => impossible.elim
      rw [complete.processes, Function.update_of_ne same]
  · intro left right leftTaken rightTaken sameImage
    by_cases leftNew : left = slot
    · by_cases rightNew : right = slot
      · rw [leftNew, rightNew]
      · rcases old rightNew rightTaken with ⟨taken, blocksSame⟩
        rw [leftNew, self, blocksSame] at sameImage
        exact absurd sameImage.symm (ne_of_freshExtent imageFresh (isolated.processes right taken).imageOwned)
    · rcases old leftNew leftTaken with ⟨taken, blocksSame⟩
      rw [blocksSame] at sameImage
      by_cases rightNew : right = slot
      · rw [rightNew, self] at sameImage
        exact absurd sameImage (ne_of_freshExtent imageFresh (isolated.processes left taken).imageOwned)
      · rcases old rightNew rightTaken with ⟨rightBefore, rightSame⟩
        rw [rightSame] at sameImage
        exact isolated.images left right taken rightBefore sameImage
  · intro left right extent leftTaken rightTaken holds
    by_cases leftNew : left = slot
    · rw [leftNew, self]
      by_cases rightNew : right = slot
      · rw [rightNew, self] at holds
        exact imageApart extent holds
      · rcases old rightNew rightTaken with ⟨taken, blocksSame⟩
        rw [blocksSame] at holds
        exact (ne_of_freshExtent imageFresh ((isolated.processes right taken).owned holds)).symm
    · rcases old leftNew leftTaken with ⟨taken, blocksSame⟩
      rw [blocksSame]
      by_cases rightNew : right = slot
      · rw [rightNew, self] at holds
        exact ne_of_freshExtent (holdsFresh extent holds) (isolated.processes left taken).imageOwned
      · rcases old rightNew rightTaken with ⟨rightBefore, rightSame⟩
        rw [rightSame] at holds
        exact isolated.objects left right extent taken rightBefore holds
  · intro other block occupied has
    by_cases isNew : other = slot
    · rw [isNew, self]
      exact (ne_of_freshExtent imageFresh (isolated.active.space.owned block has)).symm
    · rcases old isNew occupied with ⟨taken, blocksSame⟩
      rw [blocksSame]
      exact isolated.kernelPages other block taken has
  · intro other block occupied has isKernel
    by_cases isNew : other = slot
    · rw [isNew, self] at has
      exact ne_of_freshExtent (holdsFresh _ (Or.inr ⟨block, Or.inr has, rfl⟩)) (isolated.active.space.owned block isKernel) rfl
    · rcases old isNew occupied with ⟨taken, blocksSame⟩
      rw [blocksSame] at has
      exact isolated.apart other block taken has isKernel

/-! ## The copy -/

/-- A table that is the same encodes the same allocations. -/
theorem encoded_of_sameEntries {before after : Kernel} (same : SameEntries before after)
    (pool : before.heap.SamePool after.heap) (encoded : before.heap.Encoded) : after.heap.Encoded := by
  rcases encoded with ⟨extents, encodes⟩
  refine ⟨extents, ?_⟩
  rw [pool.total]
  exact encodes.transport same

/-- Stores to bytes leave the records alone. -/
theorem StoresOnly.records {places : Word -> Prop} {before after : Kernel} (only : StoresOnly places before after) :
    after.processRecords = before.processRecords ∧ after.tasks = before.tasks :=
  ⟨(congrArg Store.processRecords only.views).trans rfl, (congrArg Store.tasks only.views).trans rfl⟩

/-- The records during the second copy are the ones of the request. -/
theorem copied_records {kernel read copied : Kernel} {task size : Word} {blocks : SpaceBlocks} {block : Nat}
    {lentPlaces places : Word -> Prop} (only : StoresOnly lentPlaces (lentKernel kernel task blocks block size) read)
    (only' : StoresOnly places (regainedKernel kernel read blocks block size) copied) :
    copied.processRecords = (Kernel.served kernel size (Extent.single block)).processRecords ∧
      copied.tasks = (Kernel.served kernel size (Extent.single block)).tasks := by
  rcases only.records with ⟨lentRecords, lentTasks⟩
  rcases only'.records with ⟨copiedRecords, copiedTasks⟩
  exact ⟨copiedRecords.trans lentRecords, copiedTasks.trans lentTasks⟩

theorem KeepsSpaces.of_refused (places : Word -> Prop) (kernel : Kernel) (refused : Nat) :
    KeepsSpaces places kernel { kernel with refused := refused } where
  pool := ⟨rfl, rfl⟩
  owns := fun _ owned => owned
  records := fun _ _ _ _ => ⟨rfl, rfl⟩
  words := fun _ _ _ _ _ => rfl
  encoded := fun encoded => encoded
  kernelDirectory := rfl
  currentDirectory := rfl

/-- A copy that returns has its mapping undone. -/
theorem copyFromUser_keepsSpaces {kernel : Kernel} {task : Word} {kernelBlocks : SpaceBlocks} {blocks : TaskBlocks}
    (calls : CallsFor kernel task kernelBlocks blocks) {userPtr toPtr : Word} {size : Int} (int : -2 ^ 31 ≤ size)
    (apart : forall place, Destination toPtr size place -> ¬ InSpace kernel.heap kernelBlocks place)
    (table : forall place, Destination toPtr size place -> OutsideTable kernel.heap place) {res : Int} {after : Kernel}
    (returns : copyFromUser kernel task userPtr toPtr size = some (res, after)) :
    KeepsSpaces (Destination toPtr size) kernel after ∧ after.processes = kernel.processes := by
  rcases copyFromUser_cases calls int userPtr toPtr with ⟨block, small, hands⟩ | ⟨res, _, refused, outcome⟩
  · have placed := calls.caller.kernelHeap.wellPlaced
    rcases hands_page calls.caller.kernelHeap int small hands with ⟨_, value, _⟩
    rcases copyFromUser_returned calls int small hands returns with ⟨read, copied, _, only, second, _, rfl⟩
    have only' := secondCopy_storesOnly calls apart value hands only second
    have page := regainedKernel_borrowed calls hands only
    have same := calls.restoredEntries hands page table only'
    rcases copied_records only only' with ⟨records, tasks⟩
    have pool := (page.pool.trans only'.pool).trans (Heap.free_samePool copied.heap (kernel.heap.addressOf block))
    have globals := only'.toGlobals.trans page.toGlobals
    refine ⟨⟨pool, fun extent owned => ?_, fun extent owned address inside => ?_, fun other owned outside index bound => ?_,
      encoded_of_sameEntries same pool, congrArg Globals.kernelDirectory globals,
      congrArg Globals.currentDirectory globals⟩, congrArg Globals.processes globals⟩
    · exact (same.symm pool).owns ⟨pool.start.symm, pool.total.symm⟩ owned
    · have kept := (served_keeps placed hands).same extent trivial owned address inside
      change copied.processRecords address = _ ∧ (copied.tasks address).pageDirectory = _
      rw [records, tasks]
      exact ⟨kept.processRecords, congrArg Task.pageDirectory kept.tasks⟩
    · refine (only'.words _ fun place near isPlace => ?_).trans (page.words_owned hands placed owned bound)
      exact outside place isPlace (inExtent_wordByte placed owned bound near)
  · rw [outcome] at returns
    rcases Prod.mk.inj (Option.some.inj returns) with ⟨_, rfl⟩
    exact ⟨KeepsSpaces.of_refused _ kernel refused, rfl⟩

/-- A task of a process, as a copy sees it. -/
theorem Isolated.callsFor {kernel : Kernel} {kernelBlocks : SpaceBlocks} {blocks : Nat -> ProcessBlocks}
    (isolated : Isolated kernel kernelBlocks blocks) {slot : Nat} (occupied : Occupied kernel slot) :
    CallsFor kernel (slotProcess kernel slot).task kernelBlocks (blocks slot).task :=
  ⟨isolated.active, (isolated.processes slot occupied).task, fun block has => isolated.apart slot block occupied has⟩

/-! ## A copy over a page table -/

/-- The first page of the image of a process is mapped. -/
def HasPage (process : Process) : Prop :=
  rangePages process.physicalPointer (pagingAlignAddress (process.physicalPointer + process.size)) ≠ 0

/-- The address of the table entry for the first page of a program. -/
def imageEntry (kernel : Kernel) (slot : Nat) : Word :=
  element (kernel.words (element (kernel.words (slotPage kernel slot)) (directoryIndex PROGRAM_VIRTUAL_ADDRESS)) &&& 0xfffff000#32)
    (tableIndex PROGRAM_VIRTUAL_ADDRESS)

/-- An entry that has lost its upper byte lets ring 3 store to a place below the pool. -/
theorem setByte_upper {page : Word} (aligned : page.toNat % 4096 = 0) (virt : Word) :
    userEntry (setByte (page ||| 0b111#32) 3 0#8) = true ∧
      exists place, PageWalk.place (setByte (page ||| 0b111#32) 3 0#8) virt = some place ∧ place.toNat < 0x01000000 := by
  have lower : setByte (page ||| 0b111#32) 3 0#8 = ((page &&& 0x00ffffff#32) ||| 0b111#32) := by
    rw [setByte, BitVec.and_or_distrib_right]
    exact BitVec.or_zero
  have lowPage : (page &&& 0x00ffffff#32).toNat % 4096 = 0 := by
    rw [BitVec.toNat_and]
    change (page.toNat &&& (2 ^ 24 - 1)) % 4096 = 0
    rw [Nat.and_two_pow_sub_one_eq_mod]
    omega
  have small : (page &&& 0x00ffffff#32).toNat < 0x01000000 := by
    rw [BitVec.toNat_and]
    exact Nat.lt_of_le_of_lt Nat.and_le_right (by decide)
  rw [lower]
  refine ⟨userEntry_page lowPage (by decide), _, place_page virt lowPage (by decide) (by decide), ?_⟩
  rw [BitVec.toNat_add, BitVec.toNat_ofNat]
  omega

/-- A copy of one byte from a null pointer stores a zero. -/
theorem CallsFor.storesZero {kernel : Kernel} {task : Word} {kernelBlocks : SpaceBlocks} {blocks : TaskBlocks}
    (calls : CallsFor kernel task kernelBlocks blocks) {block : Nat}
    (hands : kernel.heap.Hands (intToWord 1) (Extent.single block)) {toPtr : Word} (toNotNull : toPtr ≠ 0#32)
    (apart : ¬ InSpace kernel.heap kernelBlocks toPtr) : exists borrowed, Borrowed block kernel borrowed ∧
      copyFromUser kernel task 0#32 toPtr 1 = some (0, kfree (storeByte borrowed toPtr 0#8) (kernel.heap.addressOf block)) := by
  have first : strncpy (lentKernel kernel task blocks.space block (intToWord 1)) (kernel.heap.addressOf block) 0#32
      (intToWord 1) = some (lentKernel kernel task blocks.space block (intToWord 1)) := if_pos (Or.inr rfl)
  have blank : (lentKernel kernel task blocks.space block (intToWord 1)).bytes (kernel.heap.addressOf block) = 0#8 := by
    refine if_pos ?_
    change (kernel.heap.addressOf block - kernel.heap.addressOf block).toNat < 1
    rw [BitVec.sub_self]
    decide
  have stored := calls.storesByte hands first toNotNull apart
  rw [blank] at stored
  exact ⟨_, regainedKernel_borrowed calls hands (StoresOnly.refl _ _), stored⟩

theorem destination_one {toPtr place : Word} : Destination toPtr 1 place ↔ place = toPtr := by
  constructor
  · rintro ⟨count, below, rfl⟩
    obtain rfl : count = 0 := by omega
    exact BitVec.add_zero toPtr
  · rintro rfl
    exact ⟨0, by decide, (BitVec.add_zero place).symm⟩

namespace ProcessAt

variable {kernel : Kernel} {slot : Nat} {blocks : ProcessBlocks} (process : ProcessAt kernel slot blocks)
include process

theorem imageEntry_eq : imageEntry kernel slot = blocks.task.space.entryAddress kernel.heap PROGRAM_VIRTUAL_ADDRESS :=
  congrArg (element · _) (process.map.space.tablePointer process.map.placed (by decide) (Memory.directoryIndex_lt _))

/-- The entry for the first page of the image. -/
theorem imageEntry_word (hasPage : HasPage (slotProcess kernel slot)) :
    kernel.words (imageEntry kernel slot) = ((slotProcess kernel slot).physicalPointer ||| 0b111#32) := by
  rw [process.imageEntry_eq, process.map.entries _ (by decide), imageMap, if_neg hasPage]
  exact Function.update_self _ _ _

/-- Its upper byte lies in a table of the process, and in no other page. -/
theorem upperByte_inTable : kernel.heap.InExtent
    (Extent.single (blocks.task.space.table (directoryIndex PROGRAM_VIRTUAL_ADDRESS))) (imageEntry kernel slot + 3#32) := by
  have inside := Memory.directoryIndex_lt PROGRAM_VIRTUAL_ADDRESS
  refine inExtent_wordByte process.map.placed (process.map.space.tableOwned inside) (Memory.tableIndex_lt PROGRAM_VIRTUAL_ADDRESS) ?_
  rw [process.imageEntry_eq]
  exact Nat.lt_of_le_of_lt (Nat.le_of_eq (@offset_toNat 32 _ 3 (by decide))) (by decide)

theorem upperByte_apart {block : Nat} (owned : kernel.heap.Owns (Extent.single block))
    (different : block ≠ blocks.task.space.table (directoryIndex PROGRAM_VIRTUAL_ADDRESS)) :
    ¬ kernel.heap.InExtent (Extent.single block) (imageEntry kernel slot + 3#32) := by
  have inside := Memory.directoryIndex_lt PROGRAM_VIRTUAL_ADDRESS
  rcases owned.eq_or_apart (process.map.space.tableOwned inside) with same | apart
  · exact absurd (Extent.single_injective same) different
  · exact fun inOther => Heap.not_inExtent_of_apart apart inOther process.upperByte_inTable

end ProcessAt

/-- A process whose entry has lost its upper byte can store to a page that is not its own. -/
theorem ProcessAt.loses_image {kernel after : Kernel} {slot : Nat} {blocks : ProcessBlocks}
    (process : ProcessAt kernel slot blocks) (kernelHeap : kernel.heap.IsKernelHeap)
    (keeps : KeepsSpaces (Destination (imageEntry kernel slot + 3#32) 1) kernel after)
    (processes : after.processes = kernel.processes) (word : after.words (imageEntry kernel slot) =
      setByte ((slotProcess kernel slot).physicalPointer ||| 0b111#32) 3 0#8) :
    userWritable after.words (after.words (slotPage after slot)) PROGRAM_VIRTUAL_ADDRESS = true ∧
      exists place, translate after.words (after.words (slotPage after slot)) PROGRAM_VIRTUAL_ADDRESS = some place ∧
        ¬ InImage (slotProcess after slot) place := by
  have space := process.map.space
  have placed := process.map.placed
  have start : kernel.heap.startAddress.toNat = 0x01000000 := congrArg BitVec.toNat kernelHeap.start
  have inside := Memory.directoryIndex_lt PROGRAM_VIRTUAL_ADDRESS
  -- Only the table with the entry has changed.
  have kept {other index : Nat} (has : blocks.task.space.Has other)
      (different : other ≠ blocks.task.space.table (directoryIndex PROGRAM_VIRTUAL_ADDRESS)) (bound : index < 1024) :
      after.words (wordAt (kernel.heap.addressOf other) index) = kernel.words (wordAt (kernel.heap.addressOf other) index) := by
    have owned := space.owned other has
    refine keeps.words other owned (fun place isPlace => ?_) index bound
    rw [destination_one.mp isPlace]
    exact process.upperByte_apart owned different
  have sameProcess := keeps.slotProcess process (congrFun processes slot)
  have samePage := keeps.slotPage process (congrFun processes slot)
  have directory : after.words (slotPage kernel slot) = kernel.words (slotPage kernel slot) := by
    have chunk := kept (Or.inl rfl) (space.chunkApart.2 _ inside) (show 0 < 1024 by decide)
    have base : wordAt (kernel.heap.addressOf blocks.task.space.chunk) 0 = slotPage kernel slot :=
      (BitVec.add_zero _).trans space.pageAddress.symm
    rwa [base] at chunk
  have refers : after.words (element (after.words (slotPage kernel slot)) (directoryIndex PROGRAM_VIRTUAL_ADDRESS)) =
      (kernel.heap.addressOf (blocks.task.space.table (directoryIndex PROGRAM_VIRTUAL_ADDRESS)) ||| 0b111#32) := by
    rw [directory, space.chunkWord]
    refine (kept (Or.inr (Or.inl rfl)) (space.directoryApart _ inside) inside).trans ?_
    rw [space.directoryWord _ inside, BitVec.or_assoc]
    rfl
  have aligned := placed.addressOf_aligned (space.tableOwned inside).address_inside
  have entry : after.words (element (kernel.heap.addressOf (blocks.task.space.table
      (directoryIndex PROGRAM_VIRTUAL_ADDRESS))) (tableIndex PROGRAM_VIRTUAL_ADDRESS)) =
        setByte ((slotProcess kernel slot).physicalPointer ||| 0b111#32) 3 0#8 := by
    rw [← word, process.imageEntry_eq]
    rfl
  have image : (slotProcess kernel slot).physicalPointer.toNat % 4096 = 0 := by
    rw [process.imageAddress]
    exact placed.addressOf_aligned process.imageOwned.address_inside
  rcases setByte_upper image PROGRAM_VIRTUAL_ADDRESS with ⟨writable, place, there, below⟩
  rw [samePage, sameProcess, userWritable_table refers aligned (by decide),
    translate_table refers aligned (by decide) (by decide), entry, writable]
  refine ⟨rfl, place, there, fun inImage => ?_⟩
  have lower := inImage.1
  rw [process.imageAddress, placed.toNat_addressOf process.imageOwned.address_inside, start] at lower
  omega

/-- A copy from a null pointer to the upper byte of the entry. -/
theorem Isolated.entryOverwritten {kernel : Kernel} {kernelBlocks : SpaceBlocks} {blocks : Nat -> ProcessBlocks}
    (isolated : Isolated kernel kernelBlocks blocks) {slot : Nat} (occupied : Occupied kernel slot)
    (hasPage : HasPage (slotProcess kernel slot))
    {block : Nat} (hands : kernel.heap.Hands (intToWord 1) (Extent.single block)) : exists after,
      copyFromUser kernel (slotProcess kernel slot).task 0#32 (imageEntry kernel slot + 3#32) 1 = some (0, after) ∧
        KeepsSpaces (Destination (imageEntry kernel slot + 3#32) 1) kernel after ∧ after.processes = kernel.processes ∧
          after.words (imageEntry kernel slot) = setByte ((slotProcess kernel slot).physicalPointer ||| 0b111#32) 3 0#8 := by
  have process := isolated.processes slot occupied
  have calls := isolated.callsFor occupied
  have kernelHeap := isolated.active.kernelHeap
  have inside := Memory.directoryIndex_lt PROGRAM_VIRTUAL_ADDRESS
  have inTable := process.upperByte_inTable
  have notNull : imageEntry kernel slot + 3#32 ≠ 0#32 := by
    intro null
    have start : kernel.heap.startAddress.toNat = 0x01000000 := congrArg BitVec.toNat kernelHeap.start
    have lower := inTable.1
    rw [null, start] at lower
    exact Nat.not_succ_le_zero _ (Nat.le_trans (by decide : 1 ≤ 0x01000000) (Nat.le_trans (Nat.le_add_right _ _) lower))
  have outside : forall place, Destination (imageEntry kernel slot + 3#32) 1 place -> ¬ InSpace kernel.heap kernelBlocks place := by
    rintro place isPlace ⟨block, has, inBlock⟩
    rw [destination_one.mp isPlace] at inBlock
    refine process.upperByte_apart (isolated.active.space.owned block has) ?_ inBlock
    rintro rfl
    exact isolated.apart slot _ occupied (Or.inr (Or.inr ⟨_, inside, rfl⟩)) has
  rcases calls.storesZero hands notNull (outside _ (destination_one.mpr rfl)) with ⟨borrowed, page, returns⟩
  have table : forall place, Destination (imageEntry kernel slot + 3#32) 1 place -> OutsideTable kernel.heap place :=
    fun place isPlace => destination_one.mp isPlace ▸ outsideTable_of_inExtent kernelHeap inTable
  rcases copyFromUser_keepsSpaces calls (by decide) outside table returns with ⟨keeps, processes⟩
  refine ⟨_, returns, keeps, processes, ?_⟩
  have upper : (imageEntry kernel slot + 3#32 - imageEntry kernel slot).toNat = 3 := offset_toNat _ (by decide)
  have same : borrowed.words (imageEntry kernel slot) = kernel.words (imageEntry kernel slot) := by
    rw [process.imageEntry_eq]
    exact page.words_owned hands process.map.placed (process.map.space.tableOwned inside) (Memory.tableIndex_lt _)
  rw [← process.imageEntry_word hasPage, ← same]
  refine (if_pos ?_).trans (congrArg (setByte _ · _) upper)
  rw [upper]
  decide

end Tasks
end LarvaOS
