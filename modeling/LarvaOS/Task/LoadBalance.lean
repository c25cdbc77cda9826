import LarvaOS.Fs.Balance
import LarvaOS.Memory.HeapCalls
import LarvaOS.Task.LoadFile

namespace LarvaOS
namespace Tasks

open Disk Fs Library Memory

/-!
# What a load leaves behind

A load that fails should leave the tables of the kernel as they were, and a load
that succeeds should close the file that it has read.  It never closes a file,
and the path of the file stays in the heap.

Hence only a load that does not get as far as a component of the path keeps to
this: no slot is free, or the record is refused and the release of `NULL` happens
to do nothing, or the path allocates nothing once the record is there.
-/

/-! ## The table of file descriptors -/

section Descriptors

variable (kernel : Kernel)

theorem kfree_globals (pointer : Word) : (kfree kernel pointer).toGlobals = kernel.toGlobals := rfl

theorem kfree_refused (pointer : Word) : (kfree kernel pointer).refused = kernel.refused := rfl

theorem releaseTables_globals (page : Word) (count : Nat) :
    (releaseTables page kernel count).toGlobals = kernel.toGlobals := by
  induction count with
  | zero => rfl
  | succ count inductionHypothesis =>
      rw [releaseTables]
      exact inductionHypothesis

theorem release4GB_globals (page : Word) :
    (release4GBVirtualMemoryAddressSpace kernel page).toGlobals = kernel.toGlobals := by
  rw [release4GBVirtualMemoryAddressSpace, kfree_globals, kfree_globals, releaseTables_globals]

/-- The table of file descriptors is the same, and refusals are only counted. -/
structure TableKept (before after : Kernel) : Prop where
  fileDescriptors : after.fileDescriptors = before.fileDescriptors
  refused : before.refused ≤ after.refused

theorem TableKept.trans {first before after : Kernel} (left : TableKept first before) (right : TableKept before after) :
    TableKept first after :=
  ⟨right.fileDescriptors.trans left.fileDescriptors, Nat.le_trans left.refused right.refused⟩

theorem TableKept.kzalloc (size : Word) : TableKept kernel (Memory.kzalloc kernel size).2 :=
  ⟨congrArg Globals.fileDescriptors (kzalloc_globals kernel size), ((Requests.refl kernel).kzalloc size).refused⟩

theorem removeTask_table (task : Word) : (removeTaskFromLinkedList kernel task).fileDescriptors = kernel.fileDescriptors ∧
    (removeTaskFromLinkedList kernel task).refused = kernel.refused := by
  have unlinked : (unlinkFromPrev kernel task).fileDescriptors = kernel.fileDescriptors ∧
      (unlinkFromPrev kernel task).refused = kernel.refused := by
    unfold unlinkFromPrev
    split <;> exact ⟨rfl, rfl⟩
  have head (kernel : Kernel) : (replaceHead kernel task).fileDescriptors = kernel.fileDescriptors ∧
      (replaceHead kernel task).refused = kernel.refused := by
    unfold replaceHead
    split <;> exact ⟨rfl, rfl⟩
  have tail (kernel : Kernel) : (replaceTail kernel task).fileDescriptors = kernel.fileDescriptors ∧
      (replaceTail kernel task).refused = kernel.refused := by
    unfold replaceTail
    split <;> exact ⟨rfl, rfl⟩
  have current (kernel : Kernel) : (replaceCurrent kernel task).fileDescriptors = kernel.fileDescriptors ∧
      (replaceCurrent kernel task).refused = kernel.refused := by
    unfold replaceCurrent
    split <;> exact ⟨rfl, rfl⟩
  unfold removeTaskFromLinkedList
  split
  · exact ⟨rfl, rfl⟩
  · rw [(current _).1, (tail _).1, (head _).1, (current _).2, (tail _).2, (head _).2]
    exact unlinked

theorem release4GB_refused (page : Word) : (release4GBVirtualMemoryAddressSpace kernel page).refused = kernel.refused := by
  have tables (count : Nat) : (releaseTables page kernel count).refused = kernel.refused := by
    induction count with
    | zero => rfl
    | succ count inductionHypothesis =>
        rw [releaseTables]
        exact inductionHypothesis
  rw [release4GBVirtualMemoryAddressSpace, kfree_refused, kfree_refused, tables]

theorem releaseTask_table (task : Word) : (releaseTask kernel task).fileDescriptors = kernel.fileDescriptors ∧
    (releaseTask kernel task).refused = kernel.refused := by
  by_cases null : task = 0#32
  · rw [releaseTask, if_pos null]
    exact ⟨rfl, rfl⟩
  · have space := release4GB_refused kernel (kernel.tasks task).pageDirectory
    rw [releaseTask, if_neg null, kfree_globals, (removeTask_table _ _).1, release4GB_globals]
    exact ⟨rfl, (removeTask_table _ _).2.trans space⟩

theorem releaseTask_tableKept (task : Word) : TableKept kernel (releaseTask kernel task) :=
  ⟨(releaseTask_table kernel task).1, Nat.le_of_eq (releaseTask_table kernel task).2.symm⟩

theorem taskInit_tableKept (task proc : Word) : TableKept kernel (taskInit kernel task proc).2 :=
  ⟨congrArg Globals.fileDescriptors (taskInit_requests kernel task proc).1.toGlobals,
    (taskInit_requests kernel task proc).1.refused⟩

theorem appendTask_tableKept (task : Word) : TableKept kernel (appendTask kernel task) :=
  ⟨(appendTask_fileDescriptors kernel task).1, Nat.le_of_eq appendTask_refused.symm⟩

theorem makeNewTask_tableKept (proc : Word) : TableKept kernel (makeNewTask kernel proc).2 := by
  have requested := TableKept.kzalloc kernel sizeofTask
  have initialized := requested.trans (taskInit_tableKept (kzalloc kernel sizeofTask).2 (kzalloc kernel sizeofTask).1 proc)
  unfold makeNewTask
  dsimp only
  generalize kzalloc kernel sizeofTask = task at *
  generalize taskInit task.2 task.1 proc = ready at *
  by_cases refused : task.1 = 0#32
  · rw [if_pos refused]
    exact requested.trans (releaseTask_tableKept _ _)
  · rw [if_neg refused]
    by_cases failed : ready.1 < 0
    · rw [if_pos failed]
      exact initialized.trans (releaseTask_tableKept _ _)
    · rw [if_neg failed]
      exact initialized.trans (appendTask_tableKept _ _)

theorem abandonProcess_tableKept (tmpProcess : Word) (res : Int) :
    TableKept kernel (abandonProcess kernel tmpProcess res).kernel := by
  have released := releaseTask_tableKept kernel (kernel.processRecords tmpProcess).task
  unfold abandonProcess
  dsimp only
  generalize releaseTask kernel (kernel.processRecords tmpProcess).task = after at *
  split
  · exact ⟨released.fileDescriptors, released.refused⟩
  · exact ⟨rfl, Nat.le_refl _⟩

/-- What is done from the new task on refuses no less than the new task. -/
theorem startProcess_tableKept (tmpProcess : Word) (slot : Nat) :
    TableKept (makeNewTask kernel tmpProcess).2 (startProcess kernel tmpProcess slot).kernel := by
  unfold startProcess
  dsimp only
  generalize makeNewTask kernel tmpProcess = task
  by_cases failed : isErr task.1 = true
  · rw [if_pos failed]
    exact abandonProcess_tableKept _ _ _
  · rw [if_neg failed]
    generalize same : modifyProcess task.2 tmpProcess _ = prepared
    have kept : TableKept task.2 prepared := by
      rw [← same]
      exact ⟨rfl, Nat.le_refl _⟩
    rcases pagingMapVirtualMemory_onlyWords prepared (prepared.tasks (prepared.processRecords tmpProcess).task).pageDirectory
      PROGRAM_VIRTUAL_ADDRESS (prepared.processRecords tmpProcess).physicalPointer
      (pagingAlignAddress ((prepared.processRecords tmpProcess).physicalPointer + (prepared.processRecords tmpProcess).size))
      (PAGING_IS_PRESENT ||| PAGING_ACCESS_FROM_ALL ||| PAGING_IS_WRITEABLE) with ⟨words, mapped⟩
    change (processMapVirtualMemory prepared tmpProcess).2 = _ at mapped
    have mappedKept : TableKept task.2 (processMapVirtualMemory prepared tmpProcess).2 := by
      rw [mapped]
      exact ⟨kept.fileDescriptors, kept.refused⟩
    generalize processMapVirtualMemory prepared tmpProcess = mapping at *
    by_cases unmapped : mapping.1 < 0
    · rw [if_pos unmapped]
      exact mappedKept.trans (abandonProcess_tableKept _ _ _)
    · rw [if_neg unmapped]
      exact ⟨mappedKept.fileDescriptors, mappedKept.refused⟩

theorem prepareProcess_tableKept (filename : List Byte) (tmpProcess : Word) (slot : Nat) :
    TableKept (kzalloc kernel USER_PROGRAM_STACK_SIZE).2 (prepareProcess kernel filename tmpProcess slot).kernel := by
  unfold prepareProcess
  dsimp only
  generalize kzalloc kernel USER_PROGRAM_STACK_SIZE = programStack
  by_cases refused : programStack.1 = 0#32
  · rw [if_pos refused]
    exact abandonProcess_tableKept _ _ _
  · rw [if_neg refused]
    generalize same : modifyProcess programStack.2 tmpProcess _ = prepared
    have kept : TableKept programStack.2 prepared := by
      rw [← same]
      exact ⟨rfl, Nat.le_refl _⟩
    exact (kept.trans (makeNewTask_tableKept _ _)).trans (startProcess_tableKept _ _ _)

theorem fstat_fileDescriptors (fd : Int) (stat : Word) :
    (fstat kernel fd stat).2.fileDescriptors = kernel.fileDescriptors :=
  congrArg Globals.fileDescriptors (fstat_transferred kernel fd stat).toGlobals

end Descriptors

/-! ## What a load should keep -/

/-- The tables are the same, and so is the list of the tasks. -/
structure LeftAsBefore (before after : Kernel) : Prop where
  tables : SameTables before after
  processes : after.processes = before.processes
  headTask : after.headTask = before.headTask
  tailTask : after.tailTask = before.tailTask
  currentTask : after.currentTask = before.currentTask
  links : forall extent, before.heap.Owns extent -> forall task, before.heap.InExtent extent task ->
    (after.tasks task).next = (before.tasks task).next ∧ (after.tasks task).prev = (before.tasks task).prev

/-- A load that fails changes nothing, and one that succeeds has closed the
file. -/
structure KeepsTables (kernel : Kernel) (loading : Loading) : Prop where
  failed : loading.res < 0 -> LeftAsBefore kernel loading.kernel
  succeeded : 0 ≤ loading.res -> forall slot, slot < MAX_FILE_DESCRIPTORS ->
    loading.kernel.fileDescriptors slot = kernel.fileDescriptors slot

/-- The release of `NULL` changes no entry: the byte that is read for it has the
mark of a first block, or block zero is free. -/
def NullReleaseHarmless (heap : Heap) : Prop :=
  heapMarks.begins (heap.table.entries (-4096)) = true ∨ BlockFree heap.table.entries 0

/-- The load does not get to a component of the path. -/
def LoadsNothing (kernel : Kernel) (filename : List Byte) : Prop :=
  processGetFreeSlot kernel ≠ none ->
    (kernel.heap.Refuses sizeofProcess -> NullReleaseHarmless kernel.heap) ∧
      (¬ kernel.heap.Refuses sizeofProcess -> AllocatesNothing (kzalloc kernel sizeofProcess).2 filename)

theorem LeftAsBefore.refl (kernel : Kernel) : LeftAsBefore kernel kernel :=
  ⟨SameTables.refl kernel, rfl, rfl, rfl, rfl, fun _ _ _ _ => ⟨rfl, rfl⟩⟩

/-- A change of the heap that leaves its entries alone. -/
theorem LeftAsBefore.of_entries {kernel after : Kernel}
    (entries : forall block : Nat, block < kernel.heap.table.total.toNat ->
      after.heap.table.entries block = kernel.heap.table.entries block)
    (globals : after.toGlobals = kernel.toGlobals) (tasks : after.tasks = kernel.tasks) :
    LeftAsBefore kernel after := by
  refine ⟨⟨entries, fun slot _ => congrFun (congrArg Globals.fileDescriptors globals) slot⟩,
    congrArg Globals.processes globals, congrArg Globals.headTask globals, congrArg Globals.tailTask globals,
    congrArg Globals.currentTask globals, fun _ _ task _ => ?_⟩
  rw [tasks]
  exact ⟨rfl, rfl⟩

/-! ## The release of a null pointer -/

theorem free_null_iff {heap : Heap} (kernelHeap : heap.IsKernelHeap) (encoded : heap.Encoded) :
    (forall block : Nat, block < heap.table.total.toNat ->
      (free heap 0#32).table.entries block = heap.table.entries block) ↔ NullReleaseHarmless heap := by
  have total : heap.table.total.toNat = 25600 := congrArg BitVec.toNat kernelHeap.total
  have number : getBlockNumberFromPhysicalAddress heap 0#32 = -4096 := by
    unfold getBlockNumberFromPhysicalAddress
    rw [kernelHeap.start]
    decide
  unfold free NullReleaseHarmless
  rw [number]
  cases begins : heapMarks.begins (heap.table.entries (-4096)) with
  | true =>
      rw [Heap.markBlocksFree_skips begins (by rw [total]; decide)]
      exact ⟨fun _ => Or.inl rfl, fun _ _ _ => rfl⟩
  | false =>
      rcases encoded with ⟨extents, encodes⟩
      rw [Heap.markBlocksFree_back begins]
      constructor
      · intro same
        right
        by_contra taken
        rcases encodes.exists_covers (show 0 < heap.table.total.toNat by omega) taken with ⟨extent, member, covers⟩
        have owned : heap.Owns extent := ⟨encodes.recorded extent member, encodes.within extent member⟩
        have first : extent.first = 0 := Nat.le_zero.mp covers.1
        have entry := same extent.first owned.address_inside
        refine Heap.clearExtent_ne owned ?_
        rw [← Heap.markBlocksFreeLoop_first owned first]
        exact entry
      · rintro (marked | isFree)
        · exact absurd marked Bool.false_ne_true
        · have blank : heap.table.entries 0 = heapBlockTableEntryFree :=
            encodes.blank_of_free (show 0 < heap.table.total.toNat by omega) isFree
          intro block _
          have walk := (Heap.walk_blank blank 25599).2
          rw [total]
          exact congrFun walk block

/-! ## The steps of a load -/

section Steps

variable {kernel : Kernel} {stat : Word} {filename : List Byte}

/-- The binary is not read without an accepted file, and what is done after the
open leaves the table of file descriptors alone. -/
theorem processLoadBinary_opened {process : Word} {loaded : Int × Kernel}
    (loads : processLoadBinary kernel stat filename process = some loaded) : exists fd,
      fopen kernel filename [0x72#8] = some fd ∧ loaded.2.fileDescriptors = fd.2.fileDescriptors ∧
        (¬ Accepts fd.2 fd.1 -> loaded.1 < 0 ∧ loaded.2 = fd.2) := by
  unfold processLoadBinary at loads
  rcases Option.bind_eq_some_iff.mp loads with ⟨fd, opens, rest⟩
  refine ⟨fd, opens, ?_⟩
  have stated := fstat_fileDescriptors fd.2 fd.1 stat
  have refusal : ¬ Accepts fd.2 fd.1 -> fstat fd.2 fd.1 stat = (- EINVAL, fd.2) := by
    intro refused
    unfold fstat
    rw [if_pos (not_not.mp refused)]
  generalize fstat fd.2 fd.1 stat = res at *
  have image := congrArg Globals.fileDescriptors (kzalloc_globals res.2 (statFilesize res.2 stat))
  dsimp only at rest
  generalize kzalloc res.2 (statFilesize res.2 stat) = programData at *
  by_cases missing : fd.1 ≤ 0
  · rw [if_pos missing] at rest
    obtain rfl := Option.some.inj rest
    exact ⟨rfl, fun _ => ⟨(by decide : - EIO < 0), rfl⟩⟩
  · rw [if_neg missing] at rest
    by_cases failed : res.1 < 0
    · rw [if_pos failed] at rest
      obtain rfl := Option.some.inj rest
      exact ⟨stated, fun refused => ⟨failed, by rw [refusal refused]⟩⟩
    · have accepted : Accepts fd.2 fd.1 := by
        by_contra refused
        rw [refusal refused] at failed
        exact failed (by decide : - EINVAL < 0)
      rw [if_neg failed] at rest
      refine ⟨?_, fun refused => absurd accepted refused⟩
      by_cases full : programData.1 = 0#32
      · rw [if_pos full] at rest
        obtain rfl := Option.some.inj rest
        exact image.trans stated
      · rw [if_neg full] at rest
        rcases Option.map_eq_some_iff.mp rest with ⟨read, reads, rfl⟩
        have transferred := congrArg Globals.fileDescriptors (fread_transferred reads).toGlobals
        split
        · exact transferred.trans (image.trans stated)
        · exact transferred.trans (image.trans stated)

/-- An error before there is a task. -/
theorem abandonProcess_blank {tmpProcess : Word} (blank : (kernel.processRecords tmpProcess).task = 0#32) (res : Int) :
    abandonProcess kernel tmpProcess res = ⟨res, none, kfree kernel tmpProcess⟩ := by
  unfold abandonProcess
  rw [blank]
  dsimp only
  rw [if_neg fun both => both.2 rfl]

end Steps

/-! ## The record of the process -/

/-- The kernel with a cleared record. -/
structure Recorded (kernel initial : Kernel) (tmpProcess : Word) (extent : Extent) : Prop where
  hands : kernel.heap.Hands sizeofProcess extent
  address : tmpProcess = kernel.heap.addressOf extent.first
  heap : initial.heap = kernel.heap.withEntries (markExtent kernel.heap.table.entries extent)
  requests : Requests kernel initial
  keeps : KeepsObjects (fun _ => True) kernel initial
  blank : initial.processRecords tmpProcess = Process.zero

theorem processInit_recorded {kernel : Kernel} (placed : kernel.heap.WellPlaced)
    (served : ¬ kernel.heap.Refuses sizeofProcess) : exists extent,
      Recorded kernel (processInit (kzalloc kernel sizeofProcess).2 (kzalloc kernel sizeofProcess).1)
        (kzalloc kernel sizeofProcess).1 extent := by
  rcases kzalloc_cases placed sizeofProcess with ⟨extent, hands, result⟩ | ⟨refuses, _⟩
  · have requests := ((Requests.refl kernel).kzalloc sizeofProcess).fillZero (kzalloc kernel sizeofProcess).1 sizeofProcess
    have notNull : (kzalloc kernel sizeofProcess).1 ≠ 0#32 := by
      rw [result]
      exact placed.addressOf_ne_null hands.inside
    rcases processInit_keeps placed notNull with ⟨_, _, keeps⟩
    refine ⟨extent, hands, ?_, ?_, requests, keeps, ?_⟩
    · rw [result]
    · rw [result]
      rfl
    · refine if_pos ?_
      rw [BitVec.sub_self]
      decide
  · exact absurd refuses served

namespace Recorded

variable {kernel initial : Kernel} {tmpProcess : Word} {extent : Extent}
  (recorded : Recorded kernel initial tmpProcess extent)
include recorded

theorem owns : initial.heap.Owns extent := by
  rw [recorded.heap]
  exact Heap.owns_marked recorded.hands.within

/-- No open stores a task into the record. -/
theorem task_blank (initialHeap : initial.heap.IsKernelHeap) {filename : List Byte}
    (short : filename.length < entryTableAddress) {fd : Int × Kernel}
    (opens : fopen initial filename [0x72#8] = some fd) : (fd.2.processRecords tmpProcess).task = 0#32 := by
  rcases fopen_requests initialHeap (fun _ => partsFit_of_short _ _ short) opens with ⟨allocated, requests, same⟩
  have records : fd.2.processRecords = allocated.processRecords := by
    rcases same with rfl | ⟨slot, pointer, p, _, rfl⟩
    · rfl
    · dsimp only
      rw [bindDescriptor_toStore]
  rw [records]
  rcases requests.records tmpProcess with kept | cleared
  · rw [kept, recorded.blank]
    rfl
  · rw [cleared]
    rfl

/-- Whatever is free with the record was free before. -/
theorem free {block : Nat} (free : BlockFree initial.heap.table.entries block) :
    BlockFree kernel.heap.table.entries block := by
  rw [recorded.heap] at free
  exact (blockFree_markExtent.mp free).2

/-- The release of the record gives its blocks back. -/
theorem released (placed : kernel.heap.WellPlaced) (encoded : kernel.heap.Encoded) {after : Kernel}
    (low : heapBlockSizeBytes * extent.first < 2 ^ 31) (alone : LeavesAlone initial after) :
    LeftAsBefore kernel (kfree after tmpProcess) := by
  have pool := recorded.keeps.pool.trans alone.pool
  have owned : after.heap.Owns extent := by
    have before := recorded.owns
    refine ⟨before.recorded.transport fun block covers => ?_, ?_⟩
    · have upper := covers.2
      have within := before.within
      exact alone.entries block (by omega)
    · rw [alone.pool.total]
      exact before.within
  have address : tmpProcess = after.heap.addressOf extent.first := by
    rw [pool.addressOf]
    exact recorded.address
  have globals := alone.globals.trans recorded.requests.toGlobals
  have cleared : (kfree after tmpProcess).heap =
      after.heap.withEntries (clearExtent after.heap.table.entries extent) := by
    rw [address, kfree, free_spec (pool.wellPlaced placed) extent owned.recorded owned.within low]
    rfl
  refine ⟨⟨fun block inside => ?_, fun slot _ => congrFun (congrArg Globals.fileDescriptors globals) slot⟩,
    congrArg Globals.processes globals, congrArg Globals.headTask globals, congrArg Globals.tailTask globals,
    congrArg Globals.currentTask globals, fun other otherOwned task within => ?_⟩
  · rw [cleared]
    change clearExtent after.heap.table.entries extent block = _
    by_cases covers : extent.Covers block
    · rcases encoded with ⟨extents, encodes⟩
      rw [clearExtent_of_covers _ covers]
      refine (encodes.blank_of_free inside ?_).symm
      refine recorded.hands.fits.2 block covers.1 ?_
      rw [← recorded.hands.count]
      exact covers.2
    · rw [clearExtent_of_not_covers _ covers, alone.entries block (recorded.keeps.pool.total.symm ▸ inside),
        recorded.heap]
      exact markExtent_of_not_covers _ covers
  · have same := (recorded.keeps.same other trivial otherOwned task within).tasks
    change (after.tasks task).next = _ ∧ (after.tasks task).prev = _
    rw [alone.tasks, same]
    exact ⟨rfl, rfl⟩

end Recorded

/-! ## The condition -/

section Loads

variable {kernel : Kernel} (kernelHeap : kernel.heap.IsKernelHeap) (encoded : kernel.heap.Encoded) {stat : Word}
  {filename : List Byte} {loading : Loading}

theorem loadProcess_full (none : processGetFreeSlot kernel = none) (loads : loadProcess kernel stat filename = some loading) :
    loading = ⟨- ENOMEM, Option.none, kernel⟩ := by
  unfold loadProcess at loads
  rw [none] at loads
  exact (Option.some.inj loads).symm

include kernelHeap

theorem loadProcess_refused {slot : Nat} (free : processGetFreeSlot kernel = some slot)
    (refuses : kernel.heap.Refuses sizeofProcess) (loads : loadProcess kernel stat filename = some loading) :
    loading.res < 0 ∧ loading.kernel = (Kernel.refusal kernel).withHeap (Memory.free kernel.heap 0#32) := by
  have refused := kzalloc_refused kernelHeap.wellPlaced refuses
  unfold loadProcess at loads
  rw [free] at loads
  dsimp only at loads
  unfold processLoadForSlot at loads
  rw [if_neg (processGetFreeSlot_empty free)] at loads
  dsimp only at loads
  rw [refused] at loads
  dsimp only at loads
  rw [if_pos rfl] at loads
  obtain rfl := Option.some.inj loads
  exact ⟨(by decide : - ENOMEM < 0), rfl⟩

/-- A load with a record. -/
theorem loadProcess_recorded {slot : Nat} (free : processGetFreeSlot kernel = some slot)
    (served : ¬ kernel.heap.Refuses sizeofProcess) (loads : loadProcess kernel stat filename = some loading) :
    exists initial tmpProcess extent fd, Recorded kernel initial tmpProcess extent ∧
      initial.heap = (kzalloc kernel sizeofProcess).2.heap ∧ fopen initial filename [0x72#8] = some fd ∧
        loading.kernel.fileDescriptors = fd.2.fileDescriptors ∧
          (¬ Accepts fd.2 fd.1 -> (fd.2.processRecords tmpProcess).task = 0#32 ->
            loading.res < 0 ∧ loading.kernel = kfree fd.2 tmpProcess) := by
  rcases processInit_recorded kernelHeap.wellPlaced served with ⟨extent, recorded⟩
  have notNull : (kzalloc kernel sizeofProcess).1 ≠ 0#32 := by
    rw [recorded.address]
    exact kernelHeap.wellPlaced.addressOf_ne_null recorded.hands.inside
  unfold loadProcess at loads
  rw [free] at loads
  dsimp only at loads
  unfold processLoadForSlot at loads
  rw [if_neg (processGetFreeSlot_empty free)] at loads
  dsimp only at loads
  rw [if_neg notNull] at loads
  rcases Option.map_eq_some_iff.mp loads with ⟨loaded, binary, rfl⟩
  rcases processLoadBinary_opened binary with ⟨fd, opens, table, refusing⟩
  refine ⟨_, _, extent, fd, recorded, rfl, opens, ?_, fun refused blank => ?_⟩
  · split
    · exact (abandonProcess_tableKept _ _ _).fileDescriptors.trans table
    · exact ((TableKept.kzalloc _ _).trans (prepareProcess_tableKept _ _ _ _)).fileDescriptors.trans table
  · rcases refusing refused with ⟨failed, same⟩
    rw [if_pos failed, same, abandonProcess_blank blank]
    exact ⟨failed, rfl⟩

include encoded

/-- What is enough. -/
theorem LoadsNothing.keepsTables (nothing : LoadsNothing kernel filename)
    (loads : loadProcess kernel stat filename = some loading) : KeepsTables kernel loading := by
  have placed := kernelHeap.wellPlaced
  cases free : processGetFreeSlot kernel with
  | none =>
      rw [loadProcess_full free loads]
      exact ⟨fun _ => LeftAsBefore.refl kernel, fun succeeds => absurd succeeds (by decide : ¬ 0 ≤ - ENOMEM)⟩
  | some slot =>
      rcases nothing (free ▸ Option.some_ne_none slot) with ⟨harmless, path⟩
      by_cases refuses : kernel.heap.Refuses sizeofProcess
      · rcases loadProcess_refused kernelHeap free refuses loads with ⟨failed, final⟩
        refine ⟨fun _ => ?_, fun succeeds => absurd failed (Int.not_lt.mpr succeeds)⟩
        rw [final]
        exact LeftAsBefore.of_entries ((free_null_iff kernelHeap encoded).mpr (harmless refuses)) rfl rfl
      · rcases loadProcess_recorded kernelHeap free refuses loads with
          ⟨initial, tmpProcess, extent, fd, recorded, heap, opens, _, refusing⟩
        have allocatesNothing : AllocatesNothing initial filename := by
          unfold AllocatesNothing
          rw [heap]
          exact path refuses
        have initialPlaced := recorded.keeps.pool.wellPlaced placed
        rcases fopen_nothing initialPlaced allocatesNothing opens with ⟨zero, alone⟩
        have refused : ¬ Accepts fd.2 fd.1 := by
          rw [zero]
          exact fun accepted => accepted rfl
        have blank : (fd.2.processRecords tmpProcess).task = 0#32 := by
          rw [alone.records, recorded.blank]
          rfl
        rcases refusing refused blank with ⟨failed, final⟩
        refine ⟨fun _ => ?_, fun succeeds => absurd failed (Int.not_lt.mpr succeeds)⟩
        rw [final]
        exact recorded.released placed encoded (kernelHeap.low recorded.hands.inside) alone

omit kernelHeap encoded

/-- A file that was accepted is still in its slot. -/
theorem not_keepsTables_of_accepted {initial : Kernel} {fd : Int × Kernel} (requests : Requests kernel initial)
    (initialHeap : initial.heap.IsKernelHeap) (short : filename.length < entryTableAddress)
    (opens : fopen initial filename [0x72#8] = some fd) (accepted : Accepts fd.2 fd.1)
    (table : loading.kernel.fileDescriptors = fd.2.fileDescriptors) : ¬ KeepsTables kernel loading := by
  rcases fopen_requests initialHeap (fun _ => partsFit_of_short _ _ short) opens with ⟨allocated, _, rfl | ⟨slot, pointer, p, free, rfl⟩⟩
  · exact absurd rfl accepted
  · rcases freeSlot_some free with ⟨inside, empty⟩
    have before : kernel.fileDescriptors slot = 0#32 := by
      rw [← empty, congrArg Globals.fileDescriptors requests.toGlobals]
    have bound : pointer ≠ 0#32 := by
      intro null
      have resolved := getFileDescriptor_bind allocated inside pointer p
      rw [null, ite_self] at resolved
      dsimp only [Accepts] at accepted
      rw [null] at accepted
      exact accepted resolved
    have after : loading.kernel.fileDescriptors slot = pointer := by
      rw [table, bindDescriptor_fileDescriptors _ _ _ _ inside]
      exact Function.update_self _ _ _
    intro keeps
    have same : loading.kernel.fileDescriptors slot = kernel.fileDescriptors slot := by
      by_cases failed : loading.res < 0
      · exact (keeps.failed failed).tables.descriptors slot inside
      · exact keeps.succeeded (Int.not_lt.mp failed) slot inside
    exact bound (after.symm.trans (same.trans before))

include kernelHeap encoded

/-- A path that was copied is still in the heap. -/
theorem not_keepsTables_of_path {initial : Kernel} {tmpProcess : Word} {extent : Extent} {fd : Int × Kernel}
    (recorded : Recorded kernel initial tmpProcess extent) (short : filename.length < entryTableAddress)
    (valid : pathFormatIsValid filename = true) (component : firstComponent filename ≠ [])
    (served : ¬ initial.heap.Refuses (copySize (firstComponent filename)))
    (opens : fopen initial filename [0x72#8] = some fd) : ¬ LeftAsBefore kernel (kfree fd.2 tmpProcess) := by
  have placed := kernelHeap.wellPlaced
  have initialHeap := kernelHeap.samePool recorded.keeps.pool
  have initialEncoded := (recorded.requests.heap.encoded placed encoded).2
  rcases fopen_leaks initialHeap initialEncoded short valid component served opens with
    ⟨path, inside, free, fresh, stays, kept, _⟩
  have apart := fresh extent trivial recorded.owns
  have outside : forall heap : Heap, initial.heap.SamePool heap -> ¬ heap.InExtent path tmpProcess := by
    intro heap pool within
    rw [pool.inExtent] at within
    refine Heap.not_inExtent_of_apart apart ?_ within
    rw [recorded.address, ← recorded.keeps.pool.addressOf]
    exact inExtent_addressOf initialHeap.wellPlaced recorded.owns
  rcases fopen_requests initialHeap (fun _ => partsFit_of_short _ _ short) opens with ⟨allocated, requests, same⟩
  have heap : fd.2.heap = allocated.heap := by
    rcases same with rfl | ⟨slot, pointer, p, _, rfl⟩
    · rfl
    · exact bindDescriptor_heap allocated slot pointer p
  rcases requests.heap.encoded initialHeap.wellPlaced initialEncoded with ⟨pool, laterEncoded⟩
  rw [← heap] at pool laterEncoded
  have owned : (kfree fd.2 tmpProcess).heap.Owns path := by
    rcases kept with notFirst | keeps
    · exact stays.free (pool.wellPlaced initialHeap.wellPlaced) laterEncoded notFirst (outside _ pool)
    · have record : Acquired (fun _ => False) fd.2 fd.2 tmpProcess extent := by
        refine ⟨keeps.owns extent trivial recorded.owns, ?_, fun _ impossible => absurd impossible id⟩
        rw [recorded.address, pool.addressOf, recorded.keeps.pool.addressOf]
      have leaked : Acquired (fun _ => False) fd.2 fd.2 (fd.2.heap.addressOf path.first) path :=
        ⟨stays, rfl, fun _ impossible => absurd impossible id⟩
      exact (leaked.kfree_other record (pool.wellPlaced initialHeap.wellPlaced) (kernelHeap.low recorded.hands.inside)
        apart.symm).owned
  intro left
  refine Leaks.not_sameTables ⟨path, ?_, recorded.free free, owned⟩ left.tables
  rw [recorded.keeps.pool.total] at inside
  exact inside

/-- For every load: the tables are kept exactly when the load does not get to a
component of the path.  Only a path long enough to reach the entry table may do
harm beyond that. -/
theorem keepsTables_iff (loads : loadProcess kernel stat filename = some loading) :
    (LoadsNothing kernel filename -> KeepsTables kernel loading) ∧
      (filename.length < entryTableAddress -> KeepsTables kernel loading -> LoadsNothing kernel filename) := by
  refine ⟨fun nothing => nothing.keepsTables kernelHeap encoded loads, fun short keeps some => ?_⟩
  rcases Option.ne_none_iff_exists'.mp some with ⟨slot, free⟩
  refine ⟨fun refuses => ?_, fun served valid component => ?_⟩
  · rcases loadProcess_refused kernelHeap free refuses loads with ⟨failed, final⟩
    refine (free_null_iff kernelHeap encoded).mp ?_
    have entries := (keeps.failed failed).tables.entries
    rw [final] at entries
    exact entries
  · rcases loadProcess_recorded kernelHeap free served loads with
      ⟨initial, tmpProcess, extent, fd, recorded, heap, opens, table, refusing⟩
    have initialHeap := kernelHeap.samePool recorded.keeps.pool
    rw [← heap]
    by_cases accepted : Accepts fd.2 fd.1
    · exact absurd keeps (not_keepsTables_of_accepted recorded.requests initialHeap short opens accepted table)
    · by_cases refuses : initial.heap.Refuses (copySize (firstComponent filename))
      · refine ⟨refuses, fun block _ => entriesUnder_short _ ?_ block⟩
        have bound := firstComponent_length filename
        rw [List.length_append, List.length_singleton]
        omega
      · rcases refusing accepted (recorded.task_blank initialHeap short opens) with ⟨failed, final⟩
        have left := keeps.failed failed
        rw [final] at left
        exact absurd left (not_keepsTables_of_path kernelHeap encoded recorded short valid component refuses opens)

end Loads

/-- The load of the file of a hundred bytes. -/
theorem keepsTables_iff_file : exists booted loading, boot fileVolume (fun _ => 0#8) = some booted ∧
    loadProcess booted 0x1FF000#32 [forwardSlash, 0x41#8] = some loading ∧
    (LoadsNothing booted [forwardSlash, 0x41#8] -> KeepsTables booted loading) ∧
    ([forwardSlash, 0x41#8].length < entryTableAddress -> KeepsTables booted loading ->
      LoadsNothing booted [forwardSlash, 0x41#8]) := by
  rcases @fileVolume_loads 0x1FF000#32 (by decide) with ⟨booted, loading, _, boots, loads, _⟩
  have tables := boot_booted boots
  exact ⟨booted, loading, boots, loads, keepsTables_iff tables.kernelHeap tables.encoded loads⟩

/-- Its descriptor is still in the table after the load. -/
theorem fileVolume_stays_open : exists booted loading, boot fileVolume (fun _ => 0#8) = some booted ∧
    loadProcess booted 0x1FF000#32 [forwardSlash, 0x41#8] = some loading ∧ loading.res = 0 ∧
      booted.fileDescriptors 0 = 0#32 ∧ loading.kernel.fileDescriptors 0 ≠ 0#32 ∧ ¬ KeepsTables booted loading := by
  rcases @fileVolume_loads 0x1FF000#32 (by decide) with ⟨booted, loading, _, boots, loads, succeeds, _, empty, taken⟩
  refine ⟨booted, loading, boots, loads, succeeds, empty, taken, fun keeps => taken ?_⟩
  rw [keeps.succeeded (Int.le_of_eq succeeds.symm) 0 (by decide), empty]

end Tasks
end LarvaOS
