import LarvaOS.Fs.FileCalls
import LarvaOS.Memory.PagingRange
import LarvaOS.Task.Process
import LarvaOS.Task.Creation

namespace LarvaOS
namespace Tasks

open Disk Fs Library Memory

/-!
# The address space of a process

Whatever a load does before it makes the task, the pool of the kernel heap stays
where it is.  A load that succeeds ends with the task and with one call for the
mapping of the image.  The address space of the process is then the map of every
page to itself, read-only, up to the entry of the first page of the image.
-/

/-! ## The binary -/

/-- What reading the binary does: the open, the look at the length, the request for
the image, the read, and the record. -/
theorem processLoadBinary_cases {kernel : Kernel} {stat process : Word} {filename : List Byte} {loaded : Int × Kernel}
    (loads : processLoadBinary kernel stat filename process = some loaded) :
    exists fd stated size read, fopen kernel filename [0x72#8] = some fd ∧ Transferred fd.2 stated ∧
      Transferred (kzalloc stated size).2 read ∧
        ((loaded.1 < 0 ∧ (loaded.2 = stated ∨ loaded.2 = read)) ∨
          (¬ loaded.1 < 0 ∧ (kzalloc stated size).1 ≠ 0#32 ∧
            loaded.2 = modifyProcess read process ({ · with physicalPointer := (kzalloc stated size).1, size := size }))) := by
  unfold processLoadBinary at loads
  rcases Option.bind_eq_some_iff.mp loads with ⟨fd, opens, rest⟩
  have stated := fstat_transferred fd.2 fd.1 stat
  dsimp only at rest
  generalize fstat fd.2 fd.1 stat = res at *
  generalize filesize : statFilesize res.2 stat = size at rest
  by_cases missing : fd.1 ≤ 0
  · rw [if_pos missing] at rest
    obtain rfl := Option.some.inj rest
    exact ⟨fd, fd.2, size, _, opens, Transferred.refl fd.2, Transferred.refl _, Or.inl ⟨(by decide : - EIO < 0), Or.inl rfl⟩⟩
  · rw [if_neg missing] at rest
    by_cases failed : res.1 < 0
    · rw [if_pos failed] at rest
      obtain rfl := Option.some.inj rest
      exact ⟨fd, res.2, size, _, opens, stated, Transferred.refl _, Or.inl ⟨failed, Or.inl rfl⟩⟩
    · rw [if_neg failed] at rest
      by_cases full : (kzalloc res.2 size).1 = 0#32
      · rw [if_pos full] at rest
        obtain rfl := Option.some.inj rest
        exact ⟨fd, res.2, size, _, opens, stated, Transferred.refl _, Or.inl ⟨(by decide : - ENOMEM < 0), Or.inr rfl⟩⟩
      · rw [if_neg full] at rest
        rcases Option.map_eq_some_iff.mp rest with ⟨read, reads, rfl⟩
        refine ⟨fd, res.2, size, read.2, opens, stated, fread_transferred reads, ?_⟩
        by_cases unread : read.1 < 0
        · rw [if_pos unread]
          exact Or.inl ⟨(by decide : - EIO < 0), Or.inr rfl⟩
        · rw [if_neg unread]
          exact Or.inr ⟨failed, full, rfl⟩

/-! ## The pool of the heap -/

theorem processLoadBinary_kernelHeap {kernel : Kernel} (kernelHeap : kernel.heap.IsKernelHeap) {stat process : Word}
    {filename : List Byte} {loaded : Int × Kernel}
    (loads : processLoadBinary kernel stat filename process = some loaded) : loaded.2.heap.IsKernelHeap := by
  rcases processLoadBinary_cases loads with ⟨fd, stated, size, read, opens, looked, reads, outcome⟩
  have statedHeap : stated.heap.IsKernelHeap := looked.heap ▸ fopen_kernelHeap kernelHeap opens
  have readHeap : read.heap.IsKernelHeap := reads.heap ▸ kzalloc_kernelHeap statedHeap size
  rcases outcome with ⟨_, same | same⟩ | ⟨_, _, same⟩
  · exact same ▸ statedHeap
  · exact same ▸ readHeap
  · rw [same]
    exact readHeap

/-! ## The mapping of the image -/

/-- Only the words of memory have changed. -/
def OnlyWords (before after : Kernel) : Prop :=
  exists words, after = before.withStore { before.toStore with words := words }

theorem OnlyWords.refl (kernel : Kernel) : OnlyWords kernel kernel := ⟨kernel.words, rfl⟩

theorem OnlyWords.trans {first before after : Kernel} (left : OnlyWords first before) (right : OnlyWords before after) :
    OnlyWords first after := by
  rcases left with ⟨_, rfl⟩
  rcases right with ⟨words, rfl⟩
  exact ⟨words, rfl⟩

theorem pagingMapPage_onlyWords (kernel : Kernel) (page virt phys flags : Word) :
    OnlyWords kernel (pagingMapPage kernel page virt phys flags).2 := by
  unfold pagingMapPage pagingSetEntryForVirtualAddress
  split
  · exact OnlyWords.refl kernel
  · split
    · exact OnlyWords.refl kernel
    · dsimp only
      split
      · exact OnlyWords.refl kernel
      · exact ⟨_, rfl⟩

theorem pagingMapMemoryByRange_onlyWords (page flags : Word) (remaining : Nat) (kernel : Kernel) (virt phys : Word)
    (res : Int) : OnlyWords kernel (pagingMapMemoryByRange page flags remaining kernel virt phys res).2 := by
  induction remaining generalizing kernel virt phys res with
  | zero => exact OnlyWords.refl kernel
  | succ remaining inductionHypothesis =>
      have one := pagingMapPage_onlyWords kernel page virt phys flags
      rw [pagingMapMemoryByRange]
      rcases mapped : pagingMapPage kernel page virt phys flags with ⟨result, after⟩
      rw [mapped] at one
      dsimp only at one ⊢
      split
      · exact one
      · exact one.trans (inductionHypothesis after _ _ result)

theorem pagingMapVirtualMemory_onlyWords (kernel : Kernel) (page virt phys physEnd flags : Word) :
    OnlyWords kernel (pagingMapVirtualMemory kernel page virt phys physEnd flags).2 := by
  by_cases accepted : RangeAccepted virt phys physEnd
  · rw [pagingMapVirtualMemory_accepted accepted]
    exact pagingMapMemoryByRange_onlyWords page flags _ kernel virt phys 0
  · rw [pagingMapVirtualMemory_rejected accepted]
    exact OnlyWords.refl kernel

/-- Only words in the pages of an address space have changed. -/
structure OnlySpace (blocks : SpaceBlocks) (before after : Kernel) : Prop where
  words : OnlyWords before after
  outside : forall address, (forall block, blocks.Has block -> ¬ before.heap.InExtent (Extent.single block) address) ->
    after.words address = before.words address

/-- The mapping of a range sets at most one entry of the address space. -/
theorem pagingMapVirtualMemory_onlySpace {kernel : Kernel} {page bits : Word} {blocks : SpaceBlocks} {map : FlatMap}
    (represents : Represents kernel page bits blocks map) (low : bits.toNat < 256) {virt phys physEnd : Word}
    (flags : Word) (accepted : RangeAccepted virt phys physEnd) :
    OnlySpace blocks kernel (pagingMapVirtualMemory kernel page virt phys physEnd flags).2 := by
  refine ⟨pagingMapVirtualMemory_onlyWords _ _ _ _ _ _, fun address outside => ?_⟩
  rw [pagingMapVirtualMemory_accepted accepted]
  cases rangePages phys physEnd with
  | zero => rfl
  | succ remaining =>
      have aligned : (PagingCall.mapPage virt phys flags).Aligned := ⟨accepted.1, accepted.2.1⟩
      have maps := represents.space.run_aligned represents.placed low aligned
      have here : address ≠ blocks.entryAddress kernel.heap virt := by
        rintro rfl
        have inside := Memory.directoryIndex_lt virt
        refine outside _ (Or.inr (Or.inr ⟨_, inside, rfl⟩)) ?_
        exact inExtent_wordAt represents.placed (represents.space.tableOwned inside) (Memory.tableIndex_lt virt)
      change pagingMapPage kernel page virt phys flags = _ at maps
      rw [pagingMapMemoryByRange_first (congrArg Prod.fst maps), maps, storeWord_words]
      exact Function.update_of_ne here _ _

/-- The address space of a process with this image: every page is mapped to
itself without write access, but for the first page of a program. -/
def imageMap (physicalPointer size : Word) : FlatMap :=
  if rangePages physicalPointer (pagingAlignAddress (physicalPointer + size)) = 0 then fun virt => virt ||| 0b101#32
  else Function.update (fun virt => virt ||| 0b101#32) PROGRAM_VIRTUAL_ADDRESS (physicalPointer ||| 0b111#32)

/-- A process that was started: its task is the new one, and its address space
is that of its image. -/
structure Started (kernel final : Kernel) (process : Word) (slot task : Nat) (blocks : SpaceBlocks) : Prop where
  ready : exists ready mapped, TaskReady kernel ready task blocks process ∧
    OnlySpace blocks (modifyProcess (appendTask ready (kernel.heap.addressOf task)) process
      ({ · with task := kernel.heap.addressOf task })) mapped ∧ final = storeProcess mapped slot process
  record : (final.processRecords process).task = kernel.heap.addressOf task
  registers : (final.tasks (kernel.heap.addressOf task)).registers = initialRegisters
  space : Represents final (final.tasks (kernel.heap.addressOf task)).pageDirectory 0b101#32 blocks
    (imageMap (final.processRecords process).physicalPointer (final.processRecords process).size)

theorem abandonProcess_process (kernel : Kernel) (tmpProcess : Word) (res : Int) :
    (abandonProcess kernel tmpProcess res).process = none := rfl

theorem represents_congr {kernel after : Kernel} {page flags : Word} {blocks : SpaceBlocks} {map : FlatMap}
    (represents : Represents kernel page flags blocks map) (heap : after.heap = kernel.heap)
    (words : after.words = kernel.words) : Represents after page flags blocks map where
  placed := heap ▸ represents.placed
  space := represents.space.congr heap words
  entries := by
    rw [heap, words]
    exact represents.entries

theorem modifyProcess_record (kernel : Kernel) (process : Word) (change : Process -> Process) :
    (modifyProcess kernel process change).processRecords process = change (kernel.processRecords process) :=
  Function.update_self _ _ _

/-- A new task, before its image is mapped. -/
theorem taskReady_represents {kernel ready prepared : Kernel} (placed : kernel.heap.WellPlaced) {task : Nat}
    {blocks : SpaceBlocks} {process : Word} (made : TaskReady kernel ready task blocks process)
    (same : prepared = modifyProcess (appendTask ready (kernel.heap.addressOf task)) process
      ({ · with task := kernel.heap.addressOf task })) :
    (prepared.processRecords process).task = kernel.heap.addressOf task ∧
      (prepared.tasks (kernel.heap.addressOf task)).registers = initialRegisters ∧
        Represents prepared (prepared.tasks (kernel.heap.addressOf task)).pageDirectory 0b101#32 blocks
          (fun virt => virt ||| 0b101#32) := by
  rcases appendTask_memory ready (kernel.heap.addressOf task) with ⟨heap, words, directories⟩
  have page : ((appendTask ready (kernel.heap.addressOf task)).tasks (kernel.heap.addressOf task)).pageDirectory =
      ready.heap.addressOf blocks.chunk := by
    rw [directories, made.record, made.keeps.pool.addressOf]
  have registers : ((appendTask ready (kernel.heap.addressOf task)).tasks (kernel.heap.addressOf task)).registers =
      initialRegisters := by
    rw [appendTask_record Task.registers _ _ _ (fun _ _ => rfl) fun _ _ => rfl, made.record]
  subst same
  refine ⟨congrArg Process.task (modifyProcess_record _ _ _), registers, ?_⟩
  change Represents _ ((appendTask ready _).tasks _).pageDirectory _ _ _
  rw [page]
  refine represents_identity ?_ (made.space.congr heap words) (made.identity.congr heap words)
  change (appendTask ready (kernel.heap.addressOf task)).heap.WellPlaced
  rw [heap]
  exact made.keeps.pool.wellPlaced placed

theorem imageFlags : PAGING_IS_PRESENT ||| PAGING_ACCESS_FROM_ALL ||| PAGING_IS_WRITEABLE = 0b111#32 := by decide

/-- The mapping of the image, in a new address space. -/
theorem processMapVirtualMemory_represents {kernel : Kernel} {process : Word} {blocks : SpaceBlocks}
    (represents : Represents kernel (kernel.tasks (kernel.processRecords process).task).pageDirectory 0b101#32 blocks
      fun virt => virt ||| 0b101#32)
    (mapped : ¬ (processMapVirtualMemory kernel process).1 < 0) :
    OnlySpace blocks kernel (processMapVirtualMemory kernel process).2 ∧
      Represents (processMapVirtualMemory kernel process).2
        (kernel.tasks (kernel.processRecords process).task).pageDirectory 0b101#32 blocks
        (imageMap (kernel.processRecords process).physicalPointer (kernel.processRecords process).size) := by
  unfold processMapVirtualMemory at mapped ⊢
  dsimp only at mapped ⊢
  by_cases accepted : RangeAccepted PROGRAM_VIRTUAL_ADDRESS (kernel.processRecords process).physicalPointer
      (pagingAlignAddress ((kernel.processRecords process).physicalPointer + (kernel.processRecords process).size))
  · refine ⟨pagingMapVirtualMemory_onlySpace represents (by decide) _ accepted, ?_⟩
    have after := (represents.mapVirtualMemory (by decide) 0b111#32 accepted).2
    rw [imageFlags]
    exact after
  · rw [pagingMapVirtualMemory_rejected accepted] at mapped
    exact absurd (by decide : -EINVAL < 0) mapped

theorem startProcess_started {kernel : Kernel} (kernelHeap : kernel.heap.IsKernelHeap) {tmpProcess process : Word}
    {slot : Nat} (started : (startProcess kernel tmpProcess slot).process = some process) :
    process = tmpProcess ∧ exists task blocks,
      Started kernel (startProcess kernel tmpProcess slot).kernel tmpProcess slot task blocks := by
  have placed := kernelHeap.wellPlaced
  unfold startProcess at started ⊢
  dsimp only at started ⊢
  by_cases failed : isErr (makeNewTask kernel tmpProcess).1 = true
  · rw [if_pos failed, abandonProcess_process] at started
    exact absurd started.symm (Option.some_ne_none process)
  · rw [if_neg failed] at started ⊢
    rcases makeNewTask_spec placed tmpProcess (Bool.not_eq_true _ ▸ failed) with ⟨task, blocks, ready, made, result⟩
    rw [result] at started ⊢
    dsimp only at started ⊢
    generalize same : modifyProcess (appendTask ready (kernel.heap.addressOf task)) tmpProcess
      ({ · with task := kernel.heap.addressOf task }) = prepared at started ⊢
    rcases taskReady_represents placed made same.symm with ⟨record, registers, represents⟩
    by_cases unmapped : (processMapVirtualMemory prepared tmpProcess).1 < 0
    · rw [if_pos unmapped, abandonProcess_process] at started
      exact absurd started.symm (Option.some_ne_none process)
    · rw [if_neg unmapped] at started ⊢
      refine ⟨(Option.some.inj started).symm, task, blocks, ?_⟩
      rw [← record] at represents
      rcases processMapVirtualMemory_represents represents unmapped with ⟨onlySpace, space⟩
      rw [record] at space
      dsimp only
      generalize (processMapVirtualMemory prepared tmpProcess).2 = mapped at *
      have whole : exists ready mapped', TaskReady kernel ready task blocks tmpProcess ∧
          OnlySpace blocks (modifyProcess (appendTask ready (kernel.heap.addressOf task)) tmpProcess
            ({ · with task := kernel.heap.addressOf task })) mapped' ∧
          storeProcess mapped slot tmpProcess = storeProcess mapped' slot tmpProcess :=
        ⟨ready, mapped, made, same ▸ onlySpace, rfl⟩
      rcases onlySpace.words with ⟨words, rfl⟩
      exact ⟨whole, record, registers, represents_congr space rfl rfl⟩

theorem prepareProcess_started {kernel : Kernel} (kernelHeap : kernel.heap.IsKernelHeap) {filename : List Byte}
    {tmpProcess process : Word} {slot : Nat}
    (stored : (prepareProcess kernel filename tmpProcess slot).process = some process) :
    process = tmpProcess ∧ exists before task blocks, before.heap.IsKernelHeap ∧
      Started before (prepareProcess kernel filename tmpProcess slot).kernel tmpProcess slot task blocks := by
  have stack := kzalloc_kernelHeap kernelHeap USER_PROGRAM_STACK_SIZE
  unfold prepareProcess at stored ⊢
  dsimp only at stored ⊢
  by_cases refused : (kzalloc kernel USER_PROGRAM_STACK_SIZE).1 = 0#32
  · rw [if_pos refused, abandonProcess_process] at stored
    exact absurd stored.symm (Option.some_ne_none process)
  · rw [if_neg refused] at stored ⊢
    generalize same : modifyProcess (kzalloc kernel USER_PROGRAM_STACK_SIZE).2 tmpProcess _ = prepared at stored ⊢
    have prepared_heap : prepared.heap.IsKernelHeap := by
      rw [← same]
      exact stack
    rcases startProcess_started prepared_heap stored with ⟨rfl, task, blocks, started⟩
    exact ⟨rfl, prepared, task, blocks, prepared_heap, started⟩

/-- A load that succeeds ends with a started process. -/
theorem loadProcess_started {kernel : Kernel} (kernelHeap : kernel.heap.IsKernelHeap) {stat process : Word}
    {filename : List Byte} {loading : Loading} (loads : loadProcess kernel stat filename = some loading)
    (stored : loading.process = some process) : exists before slot task blocks, before.heap.IsKernelHeap ∧
      Started before loading.kernel process slot task blocks := by
  unfold loadProcess at loads
  cases free : processGetFreeSlot kernel with
  | none =>
      rw [free] at loads
      obtain rfl := Option.some.inj loads
      exact absurd stored.symm (Option.some_ne_none process)
  | some slot =>
      rw [free] at loads
      dsimp only at loads
      unfold processLoadForSlot at loads
      dsimp only at loads
      have record := kzalloc_kernelHeap kernelHeap sizeofProcess
      by_cases taken : getProcessById kernel slot ≠ 0#32
      · rw [if_pos taken] at loads
        obtain rfl := Option.some.inj loads
        exact absurd stored.symm (Option.some_ne_none process)
      · rw [if_neg taken] at loads
        by_cases refused : (kzalloc kernel sizeofProcess).1 = 0#32
        · rw [if_pos refused] at loads
          obtain rfl := Option.some.inj loads
          exact absurd stored.symm (Option.some_ne_none process)
        · rw [if_neg refused] at loads
          rcases Option.map_eq_some_iff.mp loads with ⟨loaded, binary, rfl⟩
          have heap := @processLoadBinary_kernelHeap (processInit _ _) record _ _ _ _ binary
          by_cases failed : loaded.1 < 0
          · rw [if_pos failed] at stored
            exact absurd stored.symm (Option.some_ne_none process)
          · rw [if_neg failed] at stored ⊢
            rcases prepareProcess_started heap stored with ⟨rfl, before, task, blocks, beforeHeap, started⟩
            exact ⟨before, slot, task, blocks, beforeHeap, started⟩

/-! ## Starts that succeed -/

/-- The end of an image, rounded up to a page. -/
theorem toNat_imageEnd {phys size : Word} (fits : phys.toNat + size.toNat + pagingPageSize ≤ 2 ^ 32) :
    (pagingAlignAddress (phys + size)).toNat % pagingPageSize = 0 ∧
      phys.toNat + size.toNat ≤ (pagingAlignAddress (phys + size)).toNat := by
  have sum : (phys + size).toNat = phys.toNat + size.toNat := by
    rw [BitVec.toNat_add]
    unfold pagingPageSize at fits
    omega
  unfold pagingAlignAddress
  rw [sum]
  dsimp only
  split
  · rw [BitVec.toNat_sub, BitVec.toNat_add, BitVec.toNat_ofNat, BitVec.toNat_ofNat, sum]
    unfold pagingPageSize at *
    omega
  · rw [sum]
    unfold pagingPageSize at *
    omega

/-- The pages of an image are a range that can be mapped. -/
theorem rangeAccepted_image {phys size : Word} (aligned : phys.toNat % pagingPageSize = 0)
    (fits : phys.toNat + size.toNat + pagingPageSize ≤ 2 ^ 32) :
    RangeAccepted PROGRAM_VIRTUAL_ADDRESS phys (pagingAlignAddress (phys + size)) := by
  rcases toNat_imageEnd fits with ⟨endAligned, covers⟩
  exact ⟨by decide, aligned, endAligned, by omega⟩

/-- An image that is not empty has a page. -/
theorem rangePages_image {phys size : Word} (aligned : phys.toNat % pagingPageSize = 0)
    (fits : phys.toNat + size.toNat + pagingPageSize ≤ 2 ^ 32) (nonempty : size ≠ 0#32) :
    rangePages phys (pagingAlignAddress (phys + size)) ≠ 0 := by
  rcases toNat_imageEnd fits with ⟨endAligned, covers⟩
  have positive : size.toNat ≠ 0 := fun zero => nonempty (BitVec.eq_of_toNat_eq zero)
  unfold rangePages pagingPageSize at *
  omega

/-- The pages of a new image can be mapped, whatever its size. -/
theorem kzalloc_image {kernel : Kernel} (kernelHeap : kernel.heap.IsKernelHeap) {size : Word}
    (served : (kzalloc kernel size).1 ≠ 0#32) :
    (kzalloc kernel size).1.toNat % pagingPageSize = 0 ∧
      (kzalloc kernel size).1.toNat + size.toNat + pagingPageSize ≤ 2 ^ 32 ∧ size ≠ 0#32 := by
  have placed := kernelHeap.wellPlaced
  rcases kzalloc_cases placed size with ⟨extent, hands, result⟩ | ⟨_, result⟩
  · have total : kernel.heap.table.total.toNat = 25600 := congrArg BitVec.toNat kernelHeap.total
    have start : kernel.heap.startAddress.toNat = 0x01000000 := congrArg BitVec.toNat kernelHeap.start
    have within := hands.within
    have count := hands.count
    rw [result]
    refine ⟨placed.addressOf_aligned hands.inside, ?_, hands.nonzero⟩
    rw [placed.toNat_addressOf hands.inside, start]
    unfold blocksFor heapBlockSizeBytes pagingPageSize at *
    omega
  · rw [result] at served
    exact absurd rfl served

theorem rangeAccepted_kzalloc {kernel : Kernel} (kernelHeap : kernel.heap.IsKernelHeap) {size : Word}
    (served : (kzalloc kernel size).1 ≠ 0#32) : RangeAccepted PROGRAM_VIRTUAL_ADDRESS (kzalloc kernel size).1
      (pagingAlignAddress ((kzalloc kernel size).1 + size)) := by
  rcases kzalloc_image kernelHeap served with ⟨aligned, fits, _⟩
  exact rangeAccepted_image aligned fits

/-- What starting a process leaves alone, next to the heap: the file system. -/
structure KeepsFiles (before after : Kernel) : Prop where
  heap : after.heap = before.heap
  bytes : after.bytes = before.bytes
  fatPrivates : after.fatPrivates = before.fatPrivates
  disk : after.disk = before.disk
  drive : driveOf after = driveOf before
  fileDescriptors : after.fileDescriptors = before.fileDescriptors
  refused : after.refused = before.refused

namespace KeepsFiles

variable {first before after : Kernel}

theorem trans (left : KeepsFiles first before) (right : KeepsFiles before after) : KeepsFiles first after :=
  ⟨right.heap.trans left.heap, right.bytes.trans left.bytes, right.fatPrivates.trans left.fatPrivates,
    right.disk.trans left.disk, right.drive.trans left.drive, right.fileDescriptors.trans left.fileDescriptors,
    right.refused.trans left.refused⟩

theorem appendTask (kernel : Kernel) (task : Word) : KeepsFiles kernel (Tasks.appendTask kernel task) := by
  unfold Tasks.appendTask
  by_cases none : kernel.headTask = 0#32
  · rw [if_pos none]
    exact ⟨rfl, rfl, rfl, rfl, rfl, rfl, rfl⟩
  · rw [if_neg none]
    exact ⟨rfl, rfl, rfl, rfl, rfl, rfl, rfl⟩

theorem of_onlyWords (words : OnlyWords before after) : KeepsFiles before after := by
  rcases words with ⟨words, rfl⟩
  exact ⟨rfl, rfl, rfl, rfl, rfl, rfl, rfl⟩

/-- Behind the new task only records, words and the table of processes change. -/
theorem startProcess {kernel : Kernel} {process other : Word} {slot : Nat}
    (started : (Tasks.startProcess kernel process slot).process = some other) :
    KeepsFiles (makeNewTask kernel process).2 (Tasks.startProcess kernel process slot).kernel := by
  unfold Tasks.startProcess at started ⊢
  dsimp only at started ⊢
  generalize makeNewTask kernel process = task at *
  by_cases failed : isErr task.1 = true
  · rw [if_pos failed, abandonProcess_process] at started
    exact absurd started.symm (Option.some_ne_none other)
  · rw [if_neg failed] at started ⊢
    have recorded : KeepsFiles task.2 (modifyProcess task.2 process ({ · with task := task.1 })) :=
      ⟨rfl, rfl, rfl, rfl, rfl, rfl, rfl⟩
    generalize modifyProcess task.2 process ({ · with task := task.1 }) = prepared at *
    have mapped : KeepsFiles prepared (processMapVirtualMemory prepared process).2 :=
      of_onlyWords (pagingMapVirtualMemory_onlyWords _ _ _ _ _ _)
    by_cases unmapped : (processMapVirtualMemory prepared process).1 < 0
    · rw [if_pos unmapped, abandonProcess_process] at started
      exact absurd started.symm (Option.some_ne_none other)
    · rw [if_neg unmapped]
      exact (recorded.trans mapped).trans ⟨rfl, rfl, rfl, rfl, rfl, rfl, rfl⟩

end KeepsFiles

/-- What a load that succeeds returns. -/
structure Succeeds (kernel : Kernel) (process : Word) (loading : Loading) : Prop where
  res : loading.res = 0
  process : loading.process = some process
  fileDescriptors : loading.kernel.fileDescriptors = kernel.fileDescriptors

theorem appendTask_fileDescriptors (kernel : Kernel) (task : Word) :
    (appendTask kernel task).fileDescriptors = kernel.fileDescriptors ∧
      (appendTask kernel task).processRecords = kernel.processRecords := by
  unfold appendTask
  by_cases first : kernel.headTask = 0#32
  · rw [if_pos first]
    exact ⟨rfl, rfl⟩
  · rw [if_neg first]
    exact ⟨rfl, rfl⟩

/-- The image of the process can be mapped. -/
def ImageAccepted (record : Process) : Prop :=
  RangeAccepted PROGRAM_VIRTUAL_ADDRESS record.physicalPointer (pagingAlignAddress (record.physicalPointer + record.size))

/-- A start with a new task succeeds, when its image can be mapped. -/
theorem startProcess_made {kernel : Kernel} (placed : kernel.heap.WellPlaced) {process : Word} {extent : Extent}
    (owned : kernel.heap.Owns extent) (address : process = kernel.heap.addressOf extent.first)
    (image : ImageAccepted (kernel.processRecords process)) (slot : Nat)
    (made : isErr (makeNewTask kernel process).1 = false) : Succeeds kernel process (startProcess kernel process slot) := by
  rcases makeNewTask_spec placed process made with ⟨task, blocks, ready, complete, result⟩
  have inExtent : kernel.heap.InExtent extent process := by
    rw [address]
    exact inExtent_addressOf placed owned
  have record : ready.processRecords process = kernel.processRecords process :=
    (complete.keeps.same extent trivial owned _ inExtent).processRecords
  have descriptors : ready.fileDescriptors = kernel.fileDescriptors := congrArg Globals.fileDescriptors complete.globals
  rcases appendTask_fileDescriptors ready (kernel.heap.addressOf task) with ⟨linkedDescriptors, linkedRecords⟩
  unfold startProcess
  dsimp only
  rw [if_neg (Bool.eq_false_iff.mp made), result]
  dsimp only
  generalize same : modifyProcess (appendTask ready (kernel.heap.addressOf task)) process
    ({ · with task := kernel.heap.addressOf task }) = prepared
  rcases taskReady_represents placed complete same.symm with ⟨storedTask, _, represents⟩
  have stored : prepared.processRecords process = { kernel.processRecords process with
      task := kernel.heap.addressOf task } := by
    rw [← same, modifyProcess_record, linkedRecords, record]
  have kept : prepared.fileDescriptors = kernel.fileDescriptors := by
    rw [← same]
    exact linkedDescriptors.trans descriptors
  rw [← storedTask] at represents
  have accepted : RangeAccepted PROGRAM_VIRTUAL_ADDRESS (prepared.processRecords process).physicalPointer
      (pagingAlignAddress ((prepared.processRecords process).physicalPointer + (prepared.processRecords process).size)) := by
    rw [stored]
    exact image
  have mapping := (represents.mapVirtualMemory (by decide)
    (PAGING_IS_PRESENT ||| PAGING_ACCESS_FROM_ALL ||| PAGING_IS_WRITEABLE) accepted).1
  change (processMapVirtualMemory prepared process).1 = 0 at mapping
  have words := pagingMapVirtualMemory_onlyWords prepared (prepared.tasks (prepared.processRecords process).task).pageDirectory
    PROGRAM_VIRTUAL_ADDRESS (prepared.processRecords process).physicalPointer
    (pagingAlignAddress ((prepared.processRecords process).physicalPointer + (prepared.processRecords process).size))
    (PAGING_IS_PRESENT ||| PAGING_ACCESS_FROM_ALL ||| PAGING_IS_WRITEABLE)
  change OnlyWords prepared (processMapVirtualMemory prepared process).2 at words
  generalize processMapVirtualMemory prepared process = mapped at *
  rw [mapping, if_neg (by decide)]
  rcases words with ⟨words, changed⟩
  refine ⟨rfl, rfl, ?_⟩
  rw [← kept]
  exact congrArg (fun after => after.fileDescriptors) changed

/-- A process that receives a stack is started. -/
theorem prepareProcess_starts {kernel : Kernel} (placed : kernel.heap.WellPlaced) {process : Word} {extent : Extent}
    (owned : kernel.heap.Owns extent) (address : process = kernel.heap.addressOf extent.first)
    (image : ImageAccepted (kernel.processRecords process)) (slot : Nat) (filename : List Byte)
    (served : (kzalloc kernel USER_PROGRAM_STACK_SIZE).1 ≠ 0#32) : exists prepared,
      prepareProcess kernel filename process slot = startProcess prepared process slot ∧
        KeepsFiles (kzalloc kernel USER_PROGRAM_STACK_SIZE).2 prepared ∧ prepared.heap.Owns extent ∧
          process = prepared.heap.addressOf extent.first ∧ ImageAccepted (prepared.processRecords process) := by
  have keeps := keeps_kzalloc (fun _ => True) placed USER_PROGRAM_STACK_SIZE
  have inExtent : kernel.heap.InExtent extent process := by
    rw [address]
    exact inExtent_addressOf placed owned
  have record := (keeps.same extent trivial owned _ inExtent).processRecords
  unfold prepareProcess
  dsimp only
  rw [if_neg served]
  generalize kzalloc kernel USER_PROGRAM_STACK_SIZE = stack at *
  refine ⟨_, rfl, ⟨rfl, rfl, rfl, rfl, rfl, rfl, rfl⟩, keeps.owns extent trivial owned, ?_, ?_⟩
  · exact address.trans (keeps.pool.addressOf extent.first).symm
  · rw [modifyProcess_record]
    exact record.symm ▸ image

section Succeeding

variable {kernel : Kernel} {first : Nat} (room : RoomFrom kernel first) {process : Word} {extent : Extent}
  (owned : kernel.heap.Owns extent) (address : process = kernel.heap.addressOf extent.first)
  (image : ImageAccepted (kernel.processRecords process)) (slot : Nat)
include room owned address image

theorem startProcess_succeeds (fits : first + 1027 ≤ 25600) : Succeeds kernel process (startProcess kernel process slot) := by
  have placed := room.kernelHeap.wellPlaced
  have inside : first + 1027 ≤ kernel.heap.table.total.toNat := by
    rw [room.kernelHeap.total]
    exact fits
  exact startProcess_made placed owned address image slot (makeNewTask_freeFrom placed process room.free inside).1

theorem prepareProcess_succeeds (filename : List Byte) (fits : first + 1031 ≤ 25600) :
    Succeeds kernel process (prepareProcess kernel filename process slot) := by
  rcases room.kzalloc USER_PROGRAM_STACK_SIZE (by decide) (show first + 4 ≤ 25600 by omega) with ⟨served, later⟩
  rcases prepareProcess_starts room.kernelHeap.wellPlaced owned address image slot filename served with
    ⟨prepared, starts, files, preparedOwned, preparedAddress, preparedImage⟩
  have started := startProcess_succeeds (later.of_heap files.heap) preparedOwned preparedAddress preparedImage slot
    (show first + 4 + 1027 ≤ 25600 by omega)
  rw [starts]
  refine ⟨started.res, started.process, started.fileDescriptors.trans (files.fileDescriptors.trans ?_)⟩
  exact congrArg Globals.fileDescriptors (kzalloc_globals kernel USER_PROGRAM_STACK_SIZE)

end Succeeding

end Tasks
end LarvaOS
