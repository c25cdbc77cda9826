import LarvaOS.Task.BinaryFile
import LarvaOS.Task.TaskList

namespace LarvaOS
namespace Tasks

open Disk Fs Library Memory Chain

/-!
# The process table over loads

Each load that goes through takes the lowest empty slot, and gives the process the
number of the slot.  Nothing ever gives a slot back.  As long as the heap serves every
request, a load that fails does so before there is a task, and gives back its record.
-/

/-! ## Records that are kept -/

/-- The words of memory and the records of tasks and of processes are the same where
memory was allocated. -/
structure KeepsTasks (before after : Kernel) : Prop where
  pool : before.heap.SamePool after.heap
  owns : forall extent, before.heap.Owns extent -> after.heap.Owns extent
  same : forall extent, before.heap.Owns extent -> forall address, before.heap.InExtent extent address ->
    after.tasks address = before.tasks address ∧ after.processRecords address = before.processRecords address ∧
      after.words address = before.words address

namespace KeepsTasks

variable {first before after : Kernel}

theorem of_objects (keeps : KeepsObjects (fun _ => True) before after) : KeepsTasks before after where
  pool := keeps.pool
  owns := fun extent => keeps.owns extent trivial
  same := fun extent owned address inside =>
    ⟨(keeps.same extent trivial owned address inside).tasks,
      (keeps.same extent trivial owned address inside).processRecords,
      (keeps.same extent trivial owned address inside).words⟩

theorem refl (kernel : Kernel) : KeepsTasks kernel kernel := of_objects (KeepsObjects.refl _ kernel)

theorem trans (left : KeepsTasks first before) (right : KeepsTasks before after) : KeepsTasks first after where
  pool := left.pool.trans right.pool
  owns := fun extent owned => right.owns extent (left.owns extent owned)
  same := by
    intro extent owned address inside
    rcases left.same extent owned address inside with ⟨task, record, word⟩
    rcases right.same extent (left.owns extent owned) address (left.pool.inExtent.mpr inside) with ⟨task', record', word'⟩
    exact ⟨task'.trans task, record'.trans record, word'.trans word⟩

theorem kzalloc (keeps : KeepsTasks first before) (placed : first.heap.WellPlaced) (size : Word) :
    KeepsTasks first (Memory.kzalloc before size).2 :=
  keeps.trans (of_objects (keeps_kzalloc (fun _ => True) (keeps.pool.wellPlaced placed) size).objects)

/-- Neither the heap nor the records nor the words have changed. -/
theorem of_same (heap : after.heap = before.heap) (tasks : after.tasks = before.tasks)
    (records : after.processRecords = before.processRecords) (words : after.words = before.words) :
    KeepsTasks before after where
  pool := heap ▸ Heap.SamePool.refl before.heap
  owns := fun _ owned => heap ▸ owned
  same := fun _ _ address _ => ⟨congrFun tasks address, congrFun records address, congrFun words address⟩

theorem of_transferred (transferred : Transferred before after) : KeepsTasks before after := by
  rcases transferred with ⟨bytes, positions, rfl⟩
  exact of_same rfl rfl rfl rfl

/-- A new record of a process is filled in. -/
theorem modifyProcess (keeps : KeepsTasks first before) {process : Word} (fresh : Fresh (fun _ => True) first process)
    (change : Process -> Process) : KeepsTasks first (Tasks.modifyProcess before process change) where
  pool := keeps.pool
  owns := keeps.owns
  same := by
    intro extent owned address inside
    rcases keeps.same extent owned address inside with ⟨task, record, word⟩
    refine ⟨task, Eq.trans (Function.update_of_ne ?_ _ _) record, word⟩
    rintro rfl
    exact fresh extent trivial owned inside

/-- A new allocation is released. -/
theorem released (keeps : KeepsTasks first before) (placed : first.heap.WellPlaced) {extent : Extent}
    (owned : before.heap.Owns extent) (low : heapBlockSizeBytes * extent.first < 2 ^ 31)
    (fresh : FreshExtent (fun _ => True) first extent) :
    KeepsTasks first (kfree before (before.heap.addressOf extent.first)) := by
  have freed := (KeepsObjects.refl (fun old => first.heap.Owns old) before).released (keeps.pool.wellPlaced placed) owned
    low fun old oldOwned _ => fresh old trivial oldOwned
  exact ⟨keeps.pool.trans freed.pool, fun old oldOwned => freed.owns old oldOwned (keeps.owns old oldOwned), keeps.same⟩

end KeepsTasks

/-- A request that is served acquires memory, apart from all that was owned. -/
theorem KeepsTasks.acquired {first before : Kernel} (keeps : KeepsTasks first before) (placed : first.heap.WellPlaced)
    {size : Word} (served : (Memory.kzalloc before size).1 ≠ 0#32) :
    exists extent, Acquired (fun _ => True) first (Memory.kzalloc before size).2 (Memory.kzalloc before size).1 extent := by
  rcases (KeepsObjects.refl (fun _ => True) before).acquired (keeps.pool.wellPlaced placed) served with
    ⟨extent, acquired, _, _⟩
  exact ⟨extent, acquired.owned, acquired.address, fun old trivial owned => acquired.fresh old trivial (keeps.owns old owned)⟩

/-- What was acquired stays owned. -/
theorem KeepsTasks.keepAcquired {first before after : Kernel} (keeps : KeepsTasks before after) {pointer : Word}
    {extent : Extent} (acquired : Acquired (fun _ => True) first before pointer extent) :
    Acquired (fun _ => True) first after pointer extent :=
  ⟨keeps.owns extent acquired.owned, acquired.address.trans (keeps.pool.addressOf extent.first).symm, acquired.fresh⟩

/-! ## Tasks that are served -/

theorem taskInit_served {kernel : Kernel} {task proc : Word}
    (served : (taskInit kernel task proc).2.refused = kernel.refused) : (taskInit kernel task proc).1 = 0 := by
  have zeroed : (kernel.withStore (kernel.toStore.fillZero task sizeofTask)).refused = kernel.refused := rfl
  by_cases null : (makeNew4GBVirtualMemoryAddressSpace (kernel.withStore (kernel.toStore.fillZero task sizeofTask))
      0b00000101#8).1 = 0#32
  · rw [taskInit, if_pos null, modifyTask_refused, ← zeroed] at served
    exact absurd null (makeNew4GB_served served)
  · rw [taskInit, if_neg null]

/-- A task for which no request was refused. -/
theorem makeNewTask_served {kernel : Kernel} (placed : kernel.heap.WellPlaced) {proc : Word}
    (served : (makeNewTask kernel proc).2.refused = kernel.refused) : isErr (makeNewTask kernel proc).1 = false := by
  have requested := ((Requests.refl kernel).kzalloc sizeofTask).refused
  have pointer : (kzalloc kernel sizeofTask).1 ≠ 0#32 -> isErr (kzalloc kernel sizeofTask).1 = false := by
    rcases kzalloc_cases placed sizeofTask with ⟨extent, hands, result⟩ | ⟨_, result⟩
    · rw [result]
      exact fun _ => isErr_addressOf placed hands.inside
    · rw [result]
      exact fun impossible => absurd rfl impossible
  have count := kzalloc_refused_count kernel sizeofTask
  have initialized := @taskInit_served (kzalloc kernel sizeofTask).2 (kzalloc kernel sizeofTask).1 proc
  have counted := (taskInit_tableKept (kzalloc kernel sizeofTask).2 (kzalloc kernel sizeofTask).1 proc).refused
  unfold makeNewTask at served ⊢
  dsimp only at served ⊢
  generalize kzalloc kernel sizeofTask = task at *
  generalize taskInit task.2 task.1 proc = ready at *
  by_cases refused : task.1 = 0#32
  · rw [if_pos refused, (releaseTask_table _ _).2] at served
    rw [if_pos refused] at count
    omega
  · rw [if_neg refused] at served ⊢
    by_cases failed : ready.1 < 0
    · rw [if_pos failed, (releaseTask_table _ _).2] at served
      exact absurd (initialized (by omega)) (Int.ne_of_lt failed)
    · rw [if_neg failed]
      exact pointer refused

/-! ## The binary -/

section Binary

variable {kernel : Kernel} {stat process : Word} {filename : List Byte} {loaded : Int × Kernel}

/-- Whatever is refused after the path is parsed is counted on top. -/
theorem processLoadBinary_counts (loads : processLoadBinary kernel stat filename process = some loaded) :
    (pathParse kernel filename).2.refused ≤ loaded.2.refused := by
  rcases processLoadBinary_cases loads with ⟨fd, stated, size, read, opens, looked, reads, outcome⟩
  have opened := fopen_counts opens
  have asked := (TableKept.kzalloc stated size).refused
  rw [looked.refused] at asked
  have final : loaded.2.refused = stated.refused ∨ loaded.2.refused = read.refused := by
    rcases outcome with ⟨_, same | same⟩ | ⟨_, _, same⟩
    · exact Or.inl (congrArg Kernel.refused same)
    · exact Or.inr (congrArg Kernel.refused same)
    · rw [same]
      exact Or.inr rfl
  rw [looked.refused, reads.refused] at final
  omega

/-- A new image, whose pages can be mapped. -/
structure NewImage (first kernel : Kernel) (image size : Word) : Prop where
  accepted : RangeAccepted PROGRAM_VIRTUAL_ADDRESS image (pagingAlignAddress (image + size))
  hasPage : rangePages image (pagingAlignAddress (image + size)) ≠ 0
  acquired : exists extent, Acquired (fun _ => True) first kernel image extent

theorem NewImage.keep {first before after : Kernel} {image size : Word} (new : NewImage first before image size)
    (keeps : KeepsTasks before after) : NewImage first after image size := by
  rcases new.acquired with ⟨extent, acquired⟩
  exact ⟨new.accepted, new.hasPage, extent, keeps.keepAcquired acquired⟩

/-- A binary that is read leaves the records of its process alone until the last step. -/
structure BinaryLoaded (kernel before : Kernel) (process : Word) (loaded : Int × Kernel) : Prop where
  keeps : KeepsTasks kernel before
  globals : OnlyDescriptors kernel before
  requests : kernel.heap.Requests before.heap
  outcome : (loaded.1 < 0 ∧ loaded.2 = before) ∨ (¬ loaded.1 < 0 ∧ exists image size, NewImage kernel before image size ∧
    loaded.2 = modifyProcess before process ({ · with physicalPointer := image, size := size }))

theorem fopen_heapRequests (kernelHeap : kernel.heap.IsKernelHeap) (fits : PathFits kernel filename) {mode : List Byte}
    {opened : Int × Kernel} (opens : fopen kernel filename mode = some opened) : kernel.heap.Requests opened.2.heap := by
  rcases fopen_requests kernelHeap fits opens with ⟨allocated, requests, rfl | ⟨slot, fd, p, _, rfl⟩⟩
  · exact requests.heap
  · rw [bindDescriptor_heap]
    exact requests.heap

theorem processLoadBinary_loaded (kernelHeap : kernel.heap.IsKernelHeap) (fits : PathFits kernel filename)
    (loads : processLoadBinary kernel stat filename process = some loaded) :
    exists before, BinaryLoaded kernel before process loaded := by
  rcases processLoadBinary_cases loads with ⟨fd, stated, size, read, opens, looked, reads, outcome⟩
  have opened := fopen_keeps kernelHeap fits opens
  have openRequests := fopen_heapRequests kernelHeap fits opens
  rw [← looked.heap] at openRequests
  have statedKeeps := (KeepsTasks.of_objects opened).trans (KeepsTasks.of_transferred looked)
  have statedGlobals := (fopen_onlyDescriptors kernelHeap fits opens).trans (OnlyDescriptors.of_globals looked.toGlobals)
  have readKeeps := (statedKeeps.kzalloc kernelHeap.wellPlaced size).trans (KeepsTasks.of_transferred reads)
  have readGlobals := statedGlobals.trans
    (OnlyDescriptors.of_globals (reads.toGlobals.trans (kzalloc_globals stated size)))
  have readRequests : kernel.heap.Requests read.heap := by
    rw [reads.heap, kzalloc_heap]
    exact openRequests.malloc size
  have statedHeap : stated.heap.IsKernelHeap := kernelHeap.samePool statedKeeps.pool
  rcases outcome with ⟨failed, same | same⟩ | ⟨succeeded, image, same⟩
  · exact ⟨stated, statedKeeps, statedGlobals, openRequests, Or.inl ⟨failed, same⟩⟩
  · exact ⟨read, readKeeps, readGlobals, readRequests, Or.inl ⟨failed, same⟩⟩
  · rcases statedKeeps.acquired kernelHeap.wellPlaced image with ⟨extent, acquired⟩
    rcases kzalloc_image statedHeap image with ⟨aligned, fits, nonempty⟩
    have new : NewImage kernel read (kzalloc stated size).1 size :=
      ⟨rangeAccepted_image aligned fits, rangePages_image aligned fits nonempty, extent, acquired.of_heap reads.heap⟩
    exact ⟨read, readKeeps, readGlobals, readRequests, Or.inr ⟨succeeded, _, size, new, same⟩⟩

/-- The path of a load for which no request is refused fits. -/
theorem processLoadBinary_fits (small : filename.length + 1 < 2 ^ 32)
    (loads : processLoadBinary kernel stat filename process = some loaded) (served : loaded.2.refused = kernel.refused) :
    PathFits kernel filename := by
  have counted := processLoadBinary_counts loads
  have parsed := pathParse_counts kernel filename
  exact pathFits_of_served small (by omega)

end Binary

/-! ## The start -/

/-- A load that went through.  In the ready kernel the new task is not linked yet. -/
structure ProcessLoaded (kernel ready : Kernel) (loading : Loading) (slot : Nat) (process task : Word) : Prop where
  res : loading.res = 0
  stored : loading.process = some process
  keeps : KeepsTasks kernel ready
  globals : OnlyDescriptors kernel ready
  recordOwned : exists extent, Acquired (fun _ => True) kernel ready process extent
  taskOwned : exists block, Acquired (fun _ => True) kernel ready task (Extent.single block)
  taskRecord : (ready.tasks task).next = 0#32 ∧ (ready.tasks task).proc = process
  id : (ready.processRecords process).id = BitVec.ofNat 16 slot
  heap : loading.kernel.heap = ready.heap
  tasks : loading.kernel.tasks = (appendTask ready task).tasks
  linked : loading.kernel.toGlobals =
    { (appendTask ready task).toGlobals with processes := Function.update ready.processes slot process }
  records : loading.kernel.processRecords =
    Function.update ready.processRecords process { ready.processRecords process with task := task }

namespace ProcessLoaded

variable {kernel ready : Kernel} {loading : Loading} {slot : Nat} {process task : Word}
  (complete : ProcessLoaded kernel ready loading slot process task)
include complete

theorem processes : loading.kernel.processes = Function.update kernel.processes slot process := by
  have same : ready.processes = kernel.processes := (congrArg Globals.processes complete.globals).trans rfl
  rw [← same]
  exact (congrArg Globals.processes complete.linked).trans rfl

/-- The record of the new process. -/
theorem record : loading.kernel.processRecords process = { ready.processRecords process with task := task } := by
  rw [complete.records]
  exact Function.update_self _ _ _

theorem notNull (placed : kernel.heap.WellPlaced) : process ≠ 0#32 := by
  rcases complete.recordOwned with ⟨extent, acquired⟩
  rw [acquired.address]
  exact (complete.keeps.pool.wellPlaced placed).addressOf_ne_null acquired.owned.address_inside

end ProcessLoaded

/-- A started process, by what is done after its task is made. -/
theorem Started.linked {kernel final : Kernel} {process : Word} {slot block : Nat} {blocks : SpaceBlocks}
    (started : Started kernel final process slot block blocks) : exists ready, TaskReady kernel ready block blocks process ∧
      final.heap = ready.heap ∧ final.tasks = (appendTask ready (kernel.heap.addressOf block)).tasks ∧
      final.toGlobals = { (appendTask ready (kernel.heap.addressOf block)).toGlobals with
        processes := Function.update ready.processes slot process } ∧
      final.processRecords = Function.update ready.processRecords process
        { ready.processRecords process with task := kernel.heap.addressOf block } ∧
      forall address, (forall block, blocks.Has block -> ¬ ready.heap.InExtent (Extent.single block) address) ->
        final.words address = ready.words address := by
  rcases started.ready with ⟨ready, mapped, made, ⟨⟨words, rfl⟩, outside⟩, rfl⟩
  rcases appendTask_memory ready (kernel.heap.addressOf block) with ⟨heap, readyWords, _⟩
  have records := (appendTask_fileDescriptors ready (kernel.heap.addressOf block)).2
  have processes : (appendTask ready (kernel.heap.addressOf block)).processes = ready.processes := by
    unfold appendTask
    split <;> rfl
  refine ⟨ready, made, ?_⟩
  generalize appendTask ready (kernel.heap.addressOf block) = appended at *
  refine ⟨heap, rfl, ?_, ?_, fun address away => ?_⟩
  · rw [← processes]
    rfl
  · rw [← records]
    rfl
  · refine (outside address fun block has inside => away block has ?_).trans (congrFun readyWords address)
    rw [← heap]
    exact inside

/-- The address space and the image of a load that went through. -/
structure SpaceLoaded (kernel : Kernel) (loading : Loading) (process task : Word) (blocks : TaskBlocks) : Prop where
  laid : TaskAt loading.kernel task blocks
  map : Represents loading.kernel (loading.kernel.tasks task).pageDirectory 0b101#32 blocks.space
    (imageMap (loading.kernel.processRecords process).physicalPointer (loading.kernel.processRecords process).size)
  fresh : forall block, blocks.Has block -> FreshExtent (fun _ => True) kernel (Extent.single block)
  words : forall extent, kernel.heap.Owns extent -> forall address, kernel.heap.InExtent extent address ->
    loading.kernel.words address = kernel.words address
  image : exists extent, Acquired (fun _ => True) kernel loading.kernel
    (loading.kernel.processRecords process).physicalPointer extent ∧
      forall block, blocks.Has block -> extent ≠ Extent.single block
  apart : process ≠ (loading.kernel.processRecords process).physicalPointer
  hasPage : rangePages (loading.kernel.processRecords process).physicalPointer (pagingAlignAddress
    ((loading.kernel.processRecords process).physicalPointer + (loading.kernel.processRecords process).size)) ≠ 0
  requests : kernel.heap.Requests loading.kernel.heap

/-- A load that fails, and has no task to release. -/
structure NothingLoaded (kernel : Kernel) (loading : Loading) : Prop where
  res : loading.res < 0
  stored : loading.process = none
  keeps : KeepsTasks kernel loading.kernel
  globals : OnlyDescriptors kernel loading.kernel
  requests : kernel.heap.Requests loading.kernel.heap

/-- A load that has its record, and no task yet. -/
structure RecordKept (kernel current : Kernel) (process : Word) : Prop where
  kernelHeap : current.heap.IsKernelHeap
  keeps : KeepsTasks kernel current
  globals : OnlyDescriptors kernel current
  requests : kernel.heap.Requests current.heap
  acquired : exists extent, Acquired (fun _ => True) kernel current process extent
  blank : (current.processRecords process).task = 0#32

/-- The record is released, and nothing is left of the load in the tables. -/
theorem RecordKept.abandoned {kernel current : Kernel} {process : Word} (kept : RecordKept kernel current process)
    (placed : kernel.heap.WellPlaced) {res : Int} (failed : res < 0) :
    NothingLoaded kernel (abandonProcess current process res) := by
  rcases kept.acquired with ⟨extent, acquired⟩
  rw [abandonProcess_blank kept.blank]
  refine ⟨failed, rfl, ?_, kept.globals, kept.requests.free process⟩
  rw [acquired.address]
  exact kept.keeps.released placed acquired.owned (kept.kernelHeap.low acquired.owned.address_inside) acquired.fresh

/-- A load that has read its binary. -/
structure ImageRead (kernel current : Kernel) (process : Word) : Prop extends RecordKept kernel current process where
  image : NewImage kernel current (current.processRecords process).physicalPointer (current.processRecords process).size
  apart : process ≠ (current.processRecords process).physicalPointer

/-- A process with its image, which is ready to be started. -/
structure ReadyToStart (kernel prepared : Kernel) (process : Word) (slot : Nat) : Prop extends
    ImageRead kernel prepared process where
  id : (prepared.processRecords process).id = BitVec.ofNat 16 slot

/-- A start with a new task goes through. -/
theorem ReadyToStart.started {kernel prepared : Kernel} {process : Word} {slot : Nat}
    (complete : ReadyToStart kernel prepared process slot) (made : isErr (makeNewTask prepared process).1 = false) :
    exists ready task blocks, ProcessLoaded kernel ready (startProcess prepared process slot) slot process task ∧
      SpaceLoaded kernel (startProcess prepared process slot) process task blocks := by
  have placed := complete.kernelHeap.wellPlaced
  have keeps := complete.keeps
  rcases complete.acquired with ⟨extent, acquired⟩
  rcases complete.image.acquired with ⟨image, imageAcquired⟩
  have succeeds := startProcess_made placed acquired.owned acquired.address complete.image.accepted slot made
  rcases (startProcess_started complete.kernelHeap succeeds.process).2 with ⟨block, blocks, started⟩
  rcases started.linked with ⟨ready, new, heap, tasks, linked, records, outside⟩
  have readyKeeps := KeepsTasks.of_objects new.keeps.objects
  have same := readyKeeps.pool.addressOf
  have pool := keeps.pool.trans readyKeeps.pool
  have inExtent : prepared.heap.InExtent extent process := by
    rw [acquired.address]
    exact inExtent_addressOf placed acquired.owned
  have record := (readyKeeps.same extent acquired.owned process inExtent).2.1
  have spaceFresh (block : Nat) (has : blocks.Has block) : FreshExtent (fun _ => True) kernel (Extent.single block) :=
    fun old trivial oldOwned => (new.spaceFresh block has).1 old trivial (keeps.owns old oldOwned)
  have startRequests := makeNewTask_requests made
  rw [← (KeepsFiles.startProcess succeeds.process).heap] at startRequests
  generalize startProcess prepared process slot = loading at *
  have finalRecord : loading.kernel.processRecords process =
      { ready.processRecords process with task := prepared.heap.addressOf block } := by
    rw [records]
    exact Function.update_self _ _ _
  refine ⟨ready, prepared.heap.addressOf block, ⟨block, blocks⟩, ⟨succeeds.res, succeeds.process, keeps.trans readyKeeps,
    complete.globals.trans (OnlyDescriptors.of_globals new.globals),
    ⟨extent, readyKeeps.keepAcquired acquired⟩, ⟨block, new.taskOwned, (same block).symm, ?_⟩, ?_, ?_, heap, tasks,
    linked, records⟩, ⟨⟨?_, ?_, started.space.space, ?_⟩, started.space, ?_, ?_, ⟨image, ?_, ?_⟩, ?_, ?_,
    complete.requests.trans startRequests⟩⟩
  · exact fun old trivial oldOwned => new.taskFresh old trivial (keeps.owns old oldOwned)
  · rw [new.record]
    exact ⟨rfl, rfl⟩
  · rw [record]
    exact complete.id
  · rw [heap]
    exact (same block).symm
  · rw [heap]
    exact new.taskOwned
  · exact fun has => (new.spaceFresh block has).2 rfl
  · rintro other (rfl | has)
    · exact fun old trivial oldOwned => new.taskFresh old trivial (keeps.owns old oldOwned)
    · exact spaceFresh other has
  · intro old oldOwned address inside
    refine (outside address fun other has inOther => ?_).trans
      ((keeps.trans readyKeeps).same old oldOwned address inside).2.2
    exact Heap.not_inExtent_of_apart (spaceFresh other has old trivial oldOwned) inside (pool.inExtent.mp inOther)
  · rw [finalRecord]
    change Acquired _ _ _ (ready.processRecords process).physicalPointer image
    rw [record]
    exact (readyKeeps.keepAcquired imageAcquired).of_heap heap
  · rintro other (rfl | has) rfl
    · exact Extent.not_apart_self _ (new.taskFresh _ trivial imageAcquired.owned)
    · exact Extent.not_apart_self _ ((new.spaceFresh other has).1 _ trivial imageAcquired.owned)
  · rw [finalRecord]
    change process ≠ (ready.processRecords process).physicalPointer
    rw [record]
    exact complete.apart
  · rw [finalRecord]
    change rangePages (ready.processRecords process).physicalPointer (pagingAlignAddress
      ((ready.processRecords process).physicalPointer + (ready.processRecords process).size)) ≠ 0
    rw [record]
    exact complete.image.hasPage

/-- A start without a free block comes to nothing. -/
theorem ReadyToStart.refused {kernel prepared : Kernel} {process : Word} {slot : Nat}
    (complete : ReadyToStart kernel prepared process slot) (placed : kernel.heap.WellPlaced)
    (none : prepared.heap.freeBlocks = 0) : NothingLoaded kernel (startProcess prepared process slot) := by
  rcases complete.acquired with ⟨extent, acquired⟩
  have kept : RecordKept kernel (Kernel.refusal prepared) process :=
    ⟨complete.kernelHeap, complete.keeps.trans (KeepsTasks.of_same rfl rfl rfl rfl),
      complete.globals.trans (OnlyDescriptors.of_globals rfl), complete.requests, ⟨extent, acquired.of_heap rfl⟩,
      complete.blank⟩
  unfold startProcess
  rw [makeNewTask_none complete.kernelHeap.wellPlaced process none]
  dsimp only
  rw [if_pos isErr_errPtr_enomem]
  exact kept.abandoned placed (by decide)

/-- A start for which no request is refused. -/
theorem ReadyToStart.served {kernel prepared : Kernel} {process : Word} {slot : Nat}
    (complete : ReadyToStart kernel prepared process slot)
    (served : (startProcess prepared process slot).kernel.refused = prepared.refused) :
    isErr (makeNewTask prepared process).1 = false := by
  have before := (makeNewTask_tableKept prepared process).refused
  have after := (startProcess_tableKept prepared process slot).refused
  exact makeNewTask_served complete.kernelHeap.wellPlaced (by omega)

/-! ## The load -/

/-- The first slot is taken when it is empty. -/
theorem processGetFreeSlot_first {kernel : Kernel} {slot : Nat} (free : processGetFreeSlot kernel = some slot)
    (empty : kernel.processes 0 = 0#32) : slot = 0 := by
  have first : processGetFreeSlot kernel = some 0 := by
    unfold processGetFreeSlot MAX_PROCESSES
    rw [List.range_succ_eq_map, List.find?_cons_of_pos]
    exact decide_eq_true empty
  exact Option.some.inj (free.symm.trans first)

/-- The binary can be read into a new image, once the process has its record. -/
def ReadsBinary (kernel : Kernel) (stat : Word) (filename : List Byte) : Prop :=
  exists loaded, processLoadBinary (processInit (kzalloc kernel sizeofProcess).2 (kzalloc kernel sizeofProcess).1) stat
    filename (kzalloc kernel sizeofProcess).1 = some loaded ∧ 0 ≤ loaded.1

/-- A load that can read its binary returns. -/
theorem ReadsBinary.returns {kernel : Kernel} {stat : Word} {filename : List Byte} (reads : ReadsBinary kernel stat filename)
    {slot : Nat} (free : processGetFreeSlot kernel = some slot) :
    exists loading, loadProcess kernel stat filename = some loading := by
  rcases reads with ⟨loaded, binary, _⟩
  unfold loadProcess
  rw [free]
  dsimp only
  unfold processLoadForSlot
  rw [if_neg (processGetFreeSlot_empty free)]
  dsimp only
  by_cases null : (kzalloc kernel sizeofProcess).1 = 0#32
  · rw [if_pos null]
    exact ⟨_, rfl⟩
  · rw [if_neg null, binary]
    exact ⟨_, rfl⟩

theorem processLoadBinary_refused_le {kernel : Kernel} {stat process : Word} {filename : List Byte} {loaded : Int × Kernel}
    (loads : processLoadBinary kernel stat filename process = some loaded) : kernel.refused ≤ loaded.2.refused :=
  Nat.le_trans (pathParse_counts kernel filename) (processLoadBinary_counts loads)

/-- The binary of a process that has its record. -/
theorem Recorded.reads {kernel initial : Kernel} {process : Word} {extent : Extent}
    (recorded : Recorded kernel initial process extent) (kernelHeap : kernel.heap.IsKernelHeap) {stat : Word}
    {filename : List Byte} (fits : PathFits initial filename) {loaded : Int × Kernel}
    (binary : processLoadBinary initial stat filename process = some loaded) :
    (loaded.1 < 0 ∧ RecordKept kernel loaded.2 process) ∨ (¬ loaded.1 < 0 ∧ ImageRead kernel loaded.2 process) := by
  have placed := kernelHeap.wellPlaced
  have initialHeap := kernelHeap.samePool recorded.keeps.pool
  have initialKeeps := KeepsTasks.of_objects recorded.keeps
  have initialGlobals := OnlyDescriptors.of_globals recorded.requests.toGlobals
  have address : process = initial.heap.addressOf extent.first := by
    rw [recorded.keeps.pool.addressOf]
    exact recorded.address
  have inExtent : initial.heap.InExtent extent process := by
    rw [address]
    exact inExtent_addressOf initialHeap.wellPlaced recorded.owns
  rcases processLoadBinary_loaded initialHeap fits binary with ⟨before, read⟩
  have acquired : Acquired (fun _ => True) kernel before process extent :=
    ⟨read.keeps.owns extent recorded.owns, address.trans (read.keeps.pool.addressOf _).symm,
      recorded.hands.freshExtent⟩
  have record := (read.keeps.same extent recorded.owns process inExtent).2.1
  rw [recorded.blank] at record
  have kept : RecordKept kernel before process :=
    ⟨initialHeap.samePool read.keeps.pool, initialKeeps.trans read.keeps, initialGlobals.trans read.globals,
      recorded.requests.heap.trans read.requests, ⟨extent, acquired⟩, congrArg Process.task record⟩
  rcases read.outcome with ⟨failed, same⟩ | ⟨succeeded, image, size, new, same⟩
  · exact Or.inl ⟨failed, same ▸ kept⟩
  · refine Or.inr ⟨succeeded, ?_⟩
    have stored := modifyProcess_record before process ({ · with physicalPointer := image, size := size })
    rw [same]
    refine ⟨⟨kept.kernelHeap, kept.keeps.modifyProcess (acquired.fresh_pointer placed kept.keeps.pool) _, kept.globals,
      kept.requests, ⟨extent, acquired.of_heap rfl⟩, ?_⟩, ?_, ?_⟩
    all_goals rw [stored]
    · exact kept.blank
    · rcases new.acquired with ⟨imageExtent, imageAcquired⟩
      have fresh : FreshExtent (fun _ => True) kernel imageExtent := fun old trivial owned =>
        imageAcquired.fresh old trivial (initialKeeps.owns old owned)
      exact ⟨new.accepted, new.hasPage, imageExtent, imageAcquired.owned, imageAcquired.address, fresh⟩
    · rcases new.acquired with ⟨imageExtent, imageAcquired⟩
      rintro (same : process = image)
      rw [← same] at imageAcquired
      exact imageAcquired.fresh_pointer initialHeap.wellPlaced read.keeps.pool extent trivial recorded.owns inExtent

/-- The stack of a process that has its image. -/
theorem ImageRead.prepares {kernel current : Kernel} {process : Word} (read : ImageRead kernel current process)
    (placed : kernel.heap.WellPlaced) (filename : List Byte) (slot : Nat) :
    ((kzalloc current USER_PROGRAM_STACK_SIZE).1 = 0#32 ∧
      NothingLoaded kernel (prepareProcess current filename process slot)) ∨
    ((kzalloc current USER_PROGRAM_STACK_SIZE).1 ≠ 0#32 ∧ exists prepared, ReadyToStart kernel prepared process slot ∧
      prepared.heap = (kzalloc current USER_PROGRAM_STACK_SIZE).2.heap ∧
      prepared.refused = (kzalloc current USER_PROGRAM_STACK_SIZE).2.refused ∧
      prepareProcess current filename process slot = startProcess prepared process slot) := by
  have currentPlaced := read.kernelHeap.wellPlaced
  rcases read.acquired with ⟨extent, acquired⟩
  have stacked := keeps_kzalloc (fun _ => True) currentPlaced USER_PROGRAM_STACK_SIZE
  have keeps := KeepsTasks.of_objects stacked.objects
  have inExtent : current.heap.InExtent extent process := by
    rw [acquired.address]
    exact inExtent_addressOf currentPlaced acquired.owned
  have record := (keeps.same extent acquired.owned process inExtent).2.1
  have requests : kernel.heap.Requests (kzalloc current USER_PROGRAM_STACK_SIZE).2.heap := by
    rw [kzalloc_heap]
    exact read.requests.malloc USER_PROGRAM_STACK_SIZE
  have globals := OnlyDescriptors.of_globals (kzalloc_globals current USER_PROGRAM_STACK_SIZE)
  have kept : ImageRead kernel (kzalloc current USER_PROGRAM_STACK_SIZE).2 process := by
    refine ⟨⟨read.kernelHeap.samePool keeps.pool, read.keeps.trans keeps, read.globals.trans globals, requests,
      ⟨extent, keeps.keepAcquired acquired⟩, ?_⟩, ?_, ?_⟩
    all_goals rw [record]
    · exact read.blank
    · exact read.image.keep keeps
    · exact read.apart
  unfold prepareProcess
  dsimp only
  generalize kzalloc current USER_PROGRAM_STACK_SIZE = stack at *
  by_cases none : stack.1 = 0#32
  · rw [if_pos none]
    exact Or.inl ⟨none, kept.toRecordKept.abandoned placed (by decide)⟩
  · rw [if_neg none]
    rcases kept.acquired with ⟨block, fresh⟩
    generalize change : (fun record : Process => Process.mk (BitVec.ofNat 16 slot)
      (Libc.strncpy record.binaryFile filename FILESYSTEM_MAX_PATH_LENGTH) record.task record.physicalPointer record.size
      stack.1) = changed
    have stored := modifyProcess_record stack.2 process changed
    have changes := kept.keeps.modifyProcess (fresh.fresh_pointer placed kept.keeps.pool) changed
    refine Or.inr ⟨none, modifyProcess stack.2 process changed, ⟨⟨⟨kept.kernelHeap, changes, kept.globals, kept.requests,
      ⟨block, fresh.of_heap rfl⟩, ?_⟩, ?_, ?_⟩, ?_⟩, rfl, rfl, rfl⟩
    all_goals rw [stored, ← change]
    · exact kept.blank
    · rcases kept.image with ⟨accepted, hasPage, image, imageAcquired⟩
      exact ⟨accepted, hasPage, image, imageAcquired.of_heap rfl⟩
    · exact kept.apart

/-- A load with an empty slot, once its process has a record. -/
structure LoadCalls (kernel initial : Kernel) (stat process : Word) (filename : List Byte) (loaded : Int × Kernel)
    (slot : Nat) (loading : Loading) : Prop where
  recorded : exists extent, Recorded kernel initial process extent
  binary : processLoadBinary initial stat filename process = some loaded
  rest : loading = if loaded.1 < 0 then abandonProcess loaded.2 process loaded.1
    else prepareProcess loaded.2 filename process slot

/-- The kernel and the record with which a load reads its binary. -/
def recordedKernel (kernel : Kernel) : Kernel := processInit (kzalloc kernel sizeofProcess).2 (kzalloc kernel sizeofProcess).1

theorem loadProcess_calls {kernel : Kernel} (placed : kernel.heap.WellPlaced) {slot : Nat}
    (free : processGetFreeSlot kernel = some slot) (served : (kzalloc kernel sizeofProcess).1 ≠ 0#32) {stat : Word}
    {filename : List Byte} {loading : Loading} (loads : loadProcess kernel stat filename = some loading) :
    exists loaded, LoadCalls kernel (recordedKernel kernel) stat (kzalloc kernel sizeofProcess).1 filename loaded slot
      loading := by
  have recorded := processInit_recorded placed fun refuses =>
    served (congrArg Prod.fst (kzalloc_refused placed refuses))
  unfold loadProcess at loads
  rw [free] at loads
  dsimp only at loads
  unfold processLoadForSlot at loads
  rw [if_neg (processGetFreeSlot_empty free)] at loads
  dsimp only at loads
  rw [if_neg served] at loads
  rcases Option.map_eq_some_iff.mp loads with ⟨loaded, binary, rfl⟩
  exact ⟨loaded, recorded, binary, rfl⟩

/-- Whether a load ends before its task is made. -/
theorem LoadCalls.cases {kernel initial : Kernel} {stat process : Word} {filename : List Byte} {loaded : Int × Kernel}
    {slot : Nat} {loading : Loading} (calls : LoadCalls kernel initial stat process filename loaded slot loading)
    (kernelHeap : kernel.heap.IsKernelHeap) (fits : PathFits initial filename) :
    (loaded.1 < 0 ∧ NothingLoaded kernel loading) ∨
    (¬ loaded.1 < 0 ∧ (kzalloc loaded.2 USER_PROGRAM_STACK_SIZE).1 = 0#32 ∧ NothingLoaded kernel loading) ∨
    (¬ loaded.1 < 0 ∧ (kzalloc loaded.2 USER_PROGRAM_STACK_SIZE).1 ≠ 0#32 ∧ exists prepared,
      ReadyToStart kernel prepared process slot ∧ prepared.heap = (kzalloc loaded.2 USER_PROGRAM_STACK_SIZE).2.heap ∧
      prepared.refused = (kzalloc loaded.2 USER_PROGRAM_STACK_SIZE).2.refused ∧
      loading = startProcess prepared process slot) := by
  have placed := kernelHeap.wellPlaced
  have rest := calls.rest
  rcases calls.recorded with ⟨extent, recorded⟩
  rcases recorded.reads kernelHeap fits calls.binary with ⟨failed, kept⟩ | ⟨succeeded, read⟩
  · rw [if_pos failed] at rest
    exact Or.inl ⟨failed, rest ▸ kept.abandoned placed failed⟩
  · rw [if_neg succeeded] at rest
    rcases read.prepares placed filename slot with ⟨none, nothing⟩ | ⟨served, prepared, ready, heap, refused, starts⟩
    · exact Or.inr (Or.inl ⟨succeeded, none, rest ▸ nothing⟩)
    · exact Or.inr (Or.inr ⟨succeeded, served, prepared, ready, heap, refused, rest.trans starts⟩)

section Unrefused

variable {kernel initial : Kernel} {stat process : Word} {filename : List Byte} {loaded : Int × Kernel} {slot : Nat}
  {loading : Loading} (calls : LoadCalls kernel initial stat process filename loaded slot loading)
  (small : filename.length + 1 < 2 ^ 32) (unrefused : initial.refused = kernel.refused)
  (served : loading.kernel.refused = kernel.refused)
include calls small unrefused served

/-- The path of a load for which no request is refused. -/
theorem LoadCalls.fits : PathFits initial filename := by
  have counted := processLoadBinary_refused_le calls.binary
  have stack := (TableKept.kzalloc loaded.2 USER_PROGRAM_STACK_SIZE).refused
  have after : loaded.2.refused ≤ loading.kernel.refused := by
    rw [calls.rest]
    split
    · exact (abandonProcess_tableKept loaded.2 process loaded.1).refused
    · exact Nat.le_trans stack (prepareProcess_tableKept loaded.2 filename process slot).refused
  exact processLoadBinary_fits small calls.binary (by omega)

/-- It gets a stack and a task, once it has read its binary. -/
theorem LoadCalls.starts (kernelHeap : kernel.heap.IsKernelHeap) :
    (loaded.1 < 0 ∧ NothingLoaded kernel loading) ∨ (¬ loaded.1 < 0 ∧ exists prepared,
      ReadyToStart kernel prepared process slot ∧ prepared.heap = (kzalloc loaded.2 USER_PROGRAM_STACK_SIZE).2.heap ∧
      loading = startProcess prepared process slot ∧ isErr (makeNewTask prepared process).1 = false) := by
  have counted := processLoadBinary_refused_le calls.binary
  have stack := (TableKept.kzalloc loaded.2 USER_PROGRAM_STACK_SIZE).refused
  rcases calls.cases kernelHeap (calls.fits small unrefused served) with
    failed | ⟨succeeded, none, _⟩ | ⟨succeeded, _, prepared, ready, heap, refused, rfl⟩
  · exact Or.inl failed
  · -- A refusal of the stack is counted.
    have count := kzalloc_refused_count loaded.2 USER_PROGRAM_STACK_SIZE
    have later := (prepareProcess_tableKept loaded.2 filename process slot).refused
    have rest := calls.rest
    rw [if_neg succeeded] at rest
    rw [if_pos none] at count
    rw [← rest] at later
    omega
  · have made := (makeNewTask_tableKept prepared process).refused
    have started := (startProcess_tableKept prepared process slot).refused
    exact Or.inr ⟨succeeded, prepared, ready, heap, rfl, ready.served (by omega)⟩

end Unrefused

/-- A load whose record is refused. -/
theorem loadProcess_unrecorded {kernel : Kernel} {slot : Nat} (free : processGetFreeSlot kernel = some slot)
    (none : (kzalloc kernel sizeofProcess).1 = 0#32) {stat : Word} {filename : List Byte} {loading : Loading}
    (loads : loadProcess kernel stat filename = some loading) :
    loading = abandonProcess (kzalloc kernel sizeofProcess).2 (kzalloc kernel sizeofProcess).1 (- ENOMEM) := by
  unfold loadProcess at loads
  rw [free] at loads
  dsimp only at loads
  unfold processLoadForSlot at loads
  rw [if_neg (processGetFreeSlot_empty free)] at loads
  dsimp only at loads
  rw [if_pos none] at loads
  exact (Option.some.inj loads).symm

/-- A load for which no request is refused has its record. -/
theorem loadProcess_hasRecord {kernel : Kernel} {slot : Nat} (free : processGetFreeSlot kernel = some slot) {stat : Word}
    {filename : List Byte} {loading : Loading} (loads : loadProcess kernel stat filename = some loading)
    (served : loading.kernel.refused = kernel.refused) :
    (kzalloc kernel sizeofProcess).1 ≠ 0#32 ∧ (recordedKernel kernel).refused = kernel.refused := by
  have count := kzalloc_refused_count kernel sizeofProcess
  by_cases null : (kzalloc kernel sizeofProcess).1 = 0#32
  · have counted := (abandonProcess_tableKept (kzalloc kernel sizeofProcess).2 (kzalloc kernel sizeofProcess).1
      (- ENOMEM)).refused
    rw [if_pos null] at count
    rw [loadProcess_unrecorded free null loads] at served
    omega
  · rw [if_neg null] at count
    exact ⟨null, count⟩

/-- For a load whose requests are all served: either it fails without a trace in the
records, or it reads its binary and takes the lowest empty slot. -/
theorem loadProcess_outcome {kernel : Kernel} (kernelHeap : kernel.heap.IsKernelHeap) {stat : Word} {filename : List Byte}
    (small : filename.length + 1 < 2 ^ 32) {loading : Loading} (loads : loadProcess kernel stat filename = some loading)
    (served : loading.kernel.refused = kernel.refused) :
    (NothingLoaded kernel loading ∧ (processGetFreeSlot kernel ≠ none -> ¬ ReadsBinary kernel stat filename)) ∨
      (ReadsBinary kernel stat filename ∧ exists slot ready process task, processGetFreeSlot kernel = some slot ∧
        ProcessLoaded kernel ready loading slot process task) := by
  have placed := kernelHeap.wellPlaced
  cases free : processGetFreeSlot kernel with
  | none =>
      rw [loadProcess_full free loads]
      exact Or.inl ⟨⟨(by decide : - ENOMEM < 0), rfl, KeepsTasks.refl kernel, OnlyDescriptors.of_globals rfl,
        Heap.Requests.refl⟩,
        fun impossible => absurd rfl impossible⟩
  | some slot =>
      rcases loadProcess_hasRecord free loads served with ⟨record, unrefused⟩
      rcases loadProcess_calls placed free record loads with ⟨loaded, calls⟩
      rcases calls.starts small unrefused served kernelHeap with ⟨failed, nothing⟩ | ⟨succeeded, prepared, start, _, rfl, made⟩
      · refine Or.inl ⟨nothing, fun _ reads => ?_⟩
        rcases reads with ⟨other, same, positive⟩
        rw [Option.some.inj (calls.binary.symm.trans same)] at failed
        exact absurd failed (Int.not_lt.mpr positive)
      · rcases start.started made with ⟨ready, task, _, complete, _⟩
        exact Or.inr ⟨⟨loaded, calls.binary, Int.not_lt.mp succeeded⟩, slot, ready, _, task, rfl, complete⟩

/-- The address space of a process that was loaded with all requests served. -/
theorem loadProcess_space {kernel : Kernel} (kernelHeap : kernel.heap.IsKernelHeap) {slot : Nat}
    (free : processGetFreeSlot kernel = some slot) {stat : Word} {filename : List Byte}
    (small : filename.length + 1 < 2 ^ 32) {loading : Loading} (loads : loadProcess kernel stat filename = some loading)
    (served : loading.kernel.refused = kernel.refused) (succeeded : 0 ≤ loading.res) :
    exists ready process task blocks, ProcessLoaded kernel ready loading slot process task ∧
      SpaceLoaded kernel loading process task blocks := by
  rcases loadProcess_hasRecord free loads served with ⟨record, unrefused⟩
  rcases loadProcess_calls kernelHeap.wellPlaced free record loads with ⟨loaded, calls⟩
  rcases calls.starts small unrefused served kernelHeap with ⟨_, nothing⟩ | ⟨_, prepared, start, _, rfl, made⟩
  · exact absurd nothing.res (Int.not_lt.mpr succeeded)
  · rcases start.started made with ⟨ready, task, blocks, complete, space⟩
    exact ⟨ready, _, task, blocks, complete, space⟩

/-- A name that is no path from a root is refused once the process has its record,
which is released again. -/
theorem loadProcess_notPath {kernel : Kernel} (kernelHeap : kernel.heap.IsKernelHeap) {slot : Nat}
    (free : processGetFreeSlot kernel = some slot) (notNull : (kzalloc kernel sizeofProcess).1 ≠ 0#32)
    {filename : List Byte} (invalid : pathFormatIsValid filename = false) (stat : Word) : exists loading,
      loadProcess kernel stat filename = some loading ∧ loading.kernel.refused = kernel.refused ∧
        ¬ ReadsBinary kernel stat filename := by
  have binary (initial : Kernel) (process : Word) :
      processLoadBinary initial stat filename process = some (- EIO, initial) := by
    unfold processLoadBinary fopen pathParse
    rw [invalid]
    rfl
  have served : ¬ kernel.heap.Refuses sizeofProcess := fun refuses =>
    notNull (congrArg Prod.fst (kzalloc_refused kernelHeap.wellPlaced refuses))
  have counted := kzalloc_refused_count kernel sizeofProcess
  rw [if_neg notNull, Nat.add_zero] at counted
  rcases processInit_recorded kernelHeap.wellPlaced served with ⟨extent, recorded⟩
  have blank : ((processInit (kzalloc kernel sizeofProcess).2 (kzalloc kernel sizeofProcess).1).processRecords
      (kzalloc kernel sizeofProcess).1).task = 0#32 := by
    rw [recorded.blank]
    rfl
  have loads : loadProcess kernel stat filename = some (abandonProcess
      (processInit (kzalloc kernel sizeofProcess).2 (kzalloc kernel sizeofProcess).1) (kzalloc kernel sizeofProcess).1
        (- EIO)) := by
    unfold loadProcess
    rw [free]
    dsimp only
    unfold processLoadForSlot
    rw [if_neg (processGetFreeSlot_empty free)]
    dsimp only
    rw [if_neg notNull, binary]
    rfl
  refine ⟨_, loads, ?_, fun reads => ?_⟩
  · rw [abandonProcess_blank blank]
    exact counted
  · rcases reads with ⟨loaded, same, positive⟩
    obtain rfl := Option.some.inj ((binary _ _).symm.trans same)
    exact absurd positive (by decide : ¬ 0 ≤ - EIO)

/-! ## The table -/

/-- An occupied slot holds a process with its number, whose task points back to it. -/
structure SlotInOrder (kernel : Kernel) (slot : Nat) : Prop where
  id : (kernel.processRecords (kernel.processes slot)).id = BitVec.ofNat 16 slot
  back : (kernel.tasks (kernel.processRecords (kernel.processes slot)).task).proc = kernel.processes slot

/-- All occupied slots are in order, and their tasks are different members of the task
list. -/
structure TableInOrder (kernel : Kernel) : Prop where
  slots : forall slot, slot < MAX_PROCESSES -> kernel.processes slot ≠ 0#32 -> SlotInOrder kernel slot
  listed : exists live, Leads (fun task => (kernel.tasks task).next) kernel.headTask live 0#32 ∧ live.Nodup ∧
    forall slot, slot < MAX_PROCESSES -> kernel.processes slot ≠ 0#32 ->
      (kernel.processRecords (kernel.processes slot)).task ∈ live
  distinct : forall left right, left < MAX_PROCESSES -> right < MAX_PROCESSES -> kernel.processes left ≠ 0#32 ->
    kernel.processes right ≠ 0#32 -> left ≠ right ->
      (kernel.processRecords (kernel.processes left)).task ≠ (kernel.processRecords (kernel.processes right)).task

/-- The table and the list, with the allocations that they are made of. -/
structure TableHeld (kernel : Kernel) (live : List Word) : Prop where
  kernelHeap : kernel.heap.IsKernelHeap
  tasks : forall task, task ∈ live -> exists block, kernel.heap.Owns (Extent.single block) ∧
    task = kernel.heap.addressOf block
  distinct : live.Nodup
  forward : Leads (fun task => (kernel.tasks task).next) kernel.headTask live 0#32
  tail : forall before last, live = before ++ [last] -> kernel.tailTask = last
  records : forall slot, slot < MAX_PROCESSES -> kernel.processes slot ≠ 0#32 ->
    exists extent, kernel.heap.Owns extent ∧ kernel.processes slot = kernel.heap.addressOf extent.first
  listed : forall slot, slot < MAX_PROCESSES -> kernel.processes slot ≠ 0#32 ->
    (kernel.processRecords (kernel.processes slot)).task ∈ live
  slots : forall slot, slot < MAX_PROCESSES -> kernel.processes slot ≠ 0#32 -> SlotInOrder kernel slot

theorem slotNumber_injective {left right : Nat} (leftInside : left < MAX_PROCESSES) (rightInside : right < MAX_PROCESSES)
    (same : BitVec.ofNat 16 left = BitVec.ofNat 16 right) : left = right := by
  have numbers := congrArg BitVec.toNat same
  rw [BitVec.toNat_ofNat, BitVec.toNat_ofNat] at numbers
  unfold MAX_PROCESSES at *
  omega

namespace TableHeld

variable {kernel after : Kernel} {live : List Word}

theorem inOrder (held : TableHeld kernel live) : TableInOrder kernel where
  slots := held.slots
  listed := ⟨live, held.forward, held.distinct, held.listed⟩
  distinct := by
    intro left right leftInside rightInside leftTaken rightTaken different same
    have leftOrder := held.slots left leftInside leftTaken
    have rightOrder := held.slots right rightInside rightTaken
    have processes : kernel.processes left = kernel.processes right := by
      rw [← leftOrder.back, same, rightOrder.back]
    refine different (slotNumber_injective leftInside rightInside ?_)
    rw [← leftOrder.id, processes, rightOrder.id]

/-- An empty table, and no task. -/
theorem empty (kernelHeap : kernel.heap.IsKernelHeap) (processes : kernel.processes = fun _ => 0#32)
    (headTask : kernel.headTask = 0#32) : TableHeld kernel [] where
  kernelHeap := kernelHeap
  tasks := fun _ member => absurd member List.not_mem_nil
  distinct := List.nodup_nil
  forward := headTask
  tail := fun before last impossible => absurd impossible.symm (List.append_ne_nil_of_right_ne_nil before (List.cons_ne_nil last []))
  records := fun slot _ taken => absurd (congrFun processes slot) taken
  listed := fun slot _ taken => absurd (congrFun processes slot) taken
  slots := fun slot _ taken => absurd (congrFun processes slot) taken

section Keeping

variable (held : TableHeld kernel live) (keeps : KeepsTasks kernel after)
include held keeps

theorem keeps_task {task : Word} (member : task ∈ live) : after.tasks task = kernel.tasks task := by
  rcases held.tasks task member with ⟨block, owned, address⟩
  refine (keeps.same _ owned task ?_).1
  rw [address]
  exact inExtent_addressOf held.kernelHeap.wellPlaced owned

theorem keeps_record {slot : Nat} (inside : slot < MAX_PROCESSES) (taken : kernel.processes slot ≠ 0#32) :
    after.processRecords (kernel.processes slot) = kernel.processRecords (kernel.processes slot) := by
  rcases held.records slot inside taken with ⟨extent, owned, address⟩
  refine (keeps.same _ owned _ ?_).2.1
  rw [address]
  exact inExtent_addressOf held.kernelHeap.wellPlaced owned

/-- What keeps the records keeps the table. -/
theorem keep (globals : OnlyDescriptors kernel after) : TableHeld after live := by
  have processes : after.processes = kernel.processes := (congrArg Globals.processes globals).trans rfl
  have headTask : after.headTask = kernel.headTask := (congrArg Globals.headTask globals).trans rfl
  have tailTask : after.tailTask = kernel.tailTask := (congrArg Globals.tailTask globals).trans rfl
  refine ⟨held.kernelHeap.samePool keeps.pool, ?_, held.distinct, ?_, ?_, ?_, ?_, ?_⟩
  · intro task member
    rcases held.tasks task member with ⟨block, owned, address⟩
    exact ⟨block, keeps.owns _ owned, address.trans (keeps.pool.addressOf block).symm⟩
  · rw [headTask]
    exact held.forward.congr fun task member => congrArg Task.next (held.keeps_task keeps member)
  · rw [tailTask]
    exact held.tail
  · intro slot inside taken
    rw [processes] at taken ⊢
    rcases held.records slot inside taken with ⟨extent, owned, address⟩
    exact ⟨extent, keeps.owns _ owned, address.trans (keeps.pool.addressOf extent.first).symm⟩
  · intro slot inside taken
    rw [processes] at taken ⊢
    rw [held.keeps_record keeps inside taken]
    exact held.listed slot inside taken
  · intro slot inside taken
    rw [processes] at taken
    have record := held.keeps_record keeps inside taken
    have task := held.keeps_task keeps (held.listed slot inside taken)
    have order := held.slots slot inside taken
    refine ⟨?_, ?_⟩
    · rw [processes, record]
      exact order.id
    · rw [processes, record, task]
      exact order.back

end Keeping

/-- A load that goes through adds its process to the table, and its task to the list. -/
theorem loaded (held : TableHeld kernel live) {slot : Nat} {ready : Kernel} {process task : Word} {loading : Loading}
    (complete : ProcessLoaded kernel ready loading slot process task) : TableHeld loading.kernel (live ++ [task]) := by
  have placed := held.kernelHeap.wellPlaced
  have readyHeld := held.keep complete.keeps complete.globals
  have readyPlaced := readyHeld.kernelHeap.wellPlaced
  have pool := complete.keeps.pool
  rcases complete.recordOwned with ⟨extent, record⟩
  rcases complete.taskOwned with ⟨block, owned⟩
  have notNull : 0#32 ∉ live := by
    intro member
    rcases held.tasks _ member with ⟨other, otherOwned, address⟩
    exact placed.addressOf_ne_null otherOwned.address_inside address.symm
  have notLive : task ∉ live := by
    intro member
    rcases held.tasks task member with ⟨other, otherOwned, address⟩
    refine owned.fresh_pointer placed pool _ trivial otherOwned ?_
    rw [address]
    exact inExtent_addressOf placed otherOwned
  rcases appendTask_leads readyHeld.forward held.distinct readyHeld.tail notNull notLive complete.taskRecord.1 with
    ⟨forward, tail⟩
  have processes := complete.processes
  have headTask : loading.kernel.headTask = (appendTask ready task).headTask :=
    (congrArg Globals.headTask complete.linked).trans rfl
  have tailTask : loading.kernel.tailTask = (appendTask ready task).tailTask :=
    (congrArg Globals.tailTask complete.linked).trans rfl
  have new : loading.kernel.processes slot = process ∧
      loading.kernel.processRecords process = { ready.processRecords process with task := task } := by
    rw [processes]
    exact ⟨Function.update_self _ _ _, complete.record⟩
  -- The new record is none of the old ones.
  have old {other : Nat} (different : other ≠ slot) (inside : other < MAX_PROCESSES)
      (taken : loading.kernel.processes other ≠ 0#32) : ready.processes other ≠ 0#32 ∧
        loading.kernel.processes other = ready.processes other ∧
        loading.kernel.processRecords (ready.processes other) = ready.processRecords (ready.processes other) := by
    have same : ready.processes = kernel.processes := (congrArg Globals.processes complete.globals).trans rfl
    rw [processes, Function.update_of_ne different] at taken ⊢
    rw [same]
    refine ⟨taken, rfl, ?_⟩
    rcases held.records other inside taken with ⟨gone, goneOwned, address⟩
    rw [complete.records]
    refine Function.update_of_ne ?_ _ _
    rintro isNew
    refine record.fresh_pointer placed pool _ trivial goneOwned ?_
    rw [← isNew, address]
    exact inExtent_addressOf placed goneOwned
  have back (other : Word) : (loading.kernel.tasks other).proc = (ready.tasks other).proc := by
    rw [complete.tasks]
    exact appendTask_record Task.proc ready task other (fun _ _ => rfl) fun _ _ => rfl
  refine ⟨?_, ?_, ?_, ?_, ?_, ?_, ?_, ?_⟩
  · rw [complete.heap]
    exact readyHeld.kernelHeap
  · intro other member
    rw [complete.heap]
    rcases List.mem_append.mp member with earlier | isNew
    · exact readyHeld.tasks other earlier
    · rw [List.mem_singleton.mp isNew]
      exact ⟨block, owned.owned, owned.address⟩
  · refine List.nodup_append.mpr ⟨held.distinct, List.nodup_singleton task, ?_⟩
    rintro other member _ isNew rfl
    exact notLive (List.mem_singleton.mp isNew ▸ member)
  · rw [complete.tasks, headTask]
    exact forward
  · intro before last same
    rw [tailTask, tail]
    exact (List.append_inj_right' same rfl |> List.singleton_inj.mp)
  · intro other inside taken
    rw [complete.heap]
    by_cases same : other = slot
    · rw [same, new.1]
      exact ⟨extent, record.owned, record.address⟩
    · rcases old same inside taken with ⟨readyTaken, kept, _⟩
      rw [kept]
      exact readyHeld.records other inside readyTaken
  · intro other inside taken
    by_cases same : other = slot
    · rw [same, new.1, new.2]
      exact List.mem_append_right live (List.mem_singleton_self task)
    · rcases old same inside taken with ⟨readyTaken, kept, keptRecord⟩
      rw [kept, keptRecord]
      exact List.mem_append_left _ (readyHeld.listed other inside readyTaken)
  · intro other inside taken
    by_cases same : other = slot
    · refine ⟨?_, ?_⟩
      · rw [same, new.1, new.2]
        exact complete.id
      · rw [same, new.1, new.2, back]
        exact complete.taskRecord.2
    · rcases old same inside taken with ⟨readyTaken, kept, keptRecord⟩
      have order := readyHeld.slots other inside readyTaken
      refine ⟨?_, ?_⟩
      · rw [kept, keptRecord]
        exact order.id
      · rw [kept, keptRecord, back]
        exact order.back

end TableHeld

end Tasks
end LarvaOS
