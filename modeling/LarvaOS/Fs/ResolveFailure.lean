import LarvaOS.Fs.DirectoryTree
import LarvaOS.Memory.Growth
import LarvaOS.Task.LoadBalance

namespace LarvaOS
namespace Fs

open Library Disk Memory

/-!
# What a refused disk leaves behind

`fat16_resolve` publishes itself in the disk and allocates the private data and four
streams before it looks at the boot sector.  The label `out` releases one of the streams
and the private data, and sets one of the two pointers of the disk.  The three streams
behind the private data stay allocated, and the operations stay in the disk.
-/

/-! ## The requests -/

variable {kernel current after : Kernel} {sizes : List Word}

theorem createDiskStream_heap (kernel : Kernel) : (createDiskStream kernel).2.heap = (kzalloc kernel 8#32).2.heap :=
  diskStreamSeek_heap _ _ _

theorem createDiskStream_pointer (kernel : Kernel) : (createDiskStream kernel).1 = (kzalloc kernel 8#32).1 := rfl

theorem keepNewStream_heap (kernel : Kernel) (fatPrivate : Word) (field : Word -> FatPrivateData -> FatPrivateData) :
    (keepNewStream kernel fatPrivate field).heap = (kzalloc kernel 8#32).2.heap :=
  (modifyPrivate_heap _ _ _).trans (createDiskStream_heap kernel)

theorem asked_keepNewStream (asked : Asked kernel current sizes) (fatPrivate : Word)
    (field : Word -> FatPrivateData -> FatPrivateData) :
    Asked kernel (Fs.keepNewStream current fatPrivate field) (sizes ++ [8#32]) :=
  (asked.kzalloc (show blocksFor 8#32 = 1 by decide)).of_heap (keepNewStream_heap current fatPrivate field)

theorem fat16InitPrivateData_asked (asked : Asked kernel current sizes) (fatPrivate : Word) :
    Asked kernel (fat16InitPrivateData current fatPrivate) (sizes ++ [8#32] ++ [8#32] ++ [8#32]) := by
  have cleared := asked.of_heap (Kernel.withStore_heap current (current.toStore.fillZero fatPrivate sizeofPrivateData))
  unfold fat16InitPrivateData
  exact asked_keepNewStream (asked_keepNewStream (asked_keepNewStream cleared _ _) _ _) _ _

theorem boundDisk_heap (kernel : Kernel) : (boundDisk kernel).heap =
    (fat16InitPrivateData (kzalloc kernel sizeofPrivateData).2 (privatePointer kernel)).heap := by
  unfold boundDisk
  exact withDisk_heap _ _

theorem boundDisk_asked (placed : kernel.heap.WellPlaced) :
    Asked kernel (boundDisk kernel) [sizeofPrivateData, 8#32, 8#32, 8#32] := by
  have allocated := (Asked.nothing placed).kzalloc (show blocksFor sizeofPrivateData = 1 by decide)
  unfold boundDisk
  exact (fat16InitPrivateData_asked allocated (privatePointer kernel)).of_heap (withDisk_heap _ _)

theorem bootStream_asked (placed : kernel.heap.WellPlaced) :
    Asked kernel (bootStream kernel).2 [sizeofPrivateData, 8#32, 8#32, 8#32, 8#32] :=
  ((boundDisk_asked placed).kzalloc (show blocksFor 8#32 = 1 by decide)).of_heap (createDiskStream_heap (boundDisk kernel))

theorem bootStream_null_iff (placed : kernel.heap.WellPlaced) :
    (bootStream kernel).1 = 0#32 ↔ kernel.heap.freeBlocks < 5 := by
  rw [bootStream, createDiskStream_pointer, (boundDisk_asked placed).refused_iff (show blocksFor 8#32 = 1 by decide)]
  exact Nat.lt_succ_iff.symm

theorem loadRootDirectory_grown (placed : kernel.heap.WellPlaced) (fatPrivate : Word) (totalItems : Int) :
    Grown kernel.heap (loadRootDirectory kernel fatPrivate totalItems).2.heap := by
  rw [loadRootDirectory_heap]
  exact Grown.kzalloc placed _

theorem fat16GetRootDirectory_grown (placed : kernel.heap.WellPlaced) {fatPrivate : Word} {root : Int × Kernel}
    (load : fat16GetRootDirectory kernel fatPrivate = some root) :
    Grown kernel.heap root.2.heap ∧ root.2.disk = kernel.disk := by
  rcases fat16GetRootDirectory_some load with ⟨mark, _, rfl⟩
  have scanned : (rootScanned kernel (kernel.fatPrivates fatPrivate).header mark).heap = kernel.heap :=
    diskStreamSeek_heap _ _ _
  have placed' := placed
  rw [← scanned] at placed' ⊢
  exact ⟨loadRootDirectory_grown placed' _ _, congrArg Globals.disk (loadRootDirectory_toGlobals _ _ _)⟩

/-! ## The condition -/

/-- The heap has room for the root directory, behind the private data and the four streams. -/
def RootFits (heap : Heap) (header : Nat -> Byte) : Prop :=
  heap.ServesAll [sizeofPrivateData, 8#32, 8#32, 8#32, 8#32, intToWord (rootDirSize header)]

/-- The disk is refused: there are too few free blocks, the boot sector has not the
signature, or the root directory has an end but does not fit. -/
def ResolveFails (kernel : Kernel) : Prop :=
  kernel.heap.freeBlocks < 5 ∨ FatHeader.signature (bootSector kernel) ≠ FAT16_SIGNATURE ∨
    exists mark, DirectoryEnds (driveOf kernel) (rootDirStart (bootSector kernel)) mark ∧
      ¬ RootFits kernel.heap (bootSector kernel)

/-- The disk and the entry table are as they were. -/
structure Untouched (before after : Kernel) : Prop where
  disk : after.disk = before.disk
  entries : SameEntries before after

/-- Whenever `fat16_resolve` returns an error, it has undone everything. -/
def UndoesFailure (kernel : Kernel) : Prop :=
  forall resolved, fat16Resolve kernel = some resolved -> resolved.1 < 0 -> Untouched kernel resolved.2

/-! ## How the resolution fails -/

/-- The rest of the resolution, around the header that was read. -/
theorem resolveWith_eq (kernel : Kernel) (stream fatPrivate : Word) : resolveWith kernel stream fatPrivate =
    if FatHeader.signature ((headerRead kernel stream fatPrivate).fatPrivates fatPrivate).header ≠ FAT16_SIGNATURE then
      some (finishResolve (headerRead kernel stream fatPrivate) stream fatPrivate (- EIO))
    else (fat16GetRootDirectory (headerRead kernel stream fatPrivate) fatPrivate).map fun root =>
      finishResolve root.2 stream fatPrivate (if root.1 ≠ 0 then - EIO else 0) := by
  unfold resolveWith
  simp only [diskStreamRead_result, ne_eq, not_true_eq_false, if_false]
  rfl

theorem rootFits_iff (placed : kernel.heap.WellPlaced) (enough : 5 ≤ kernel.heap.freeBlocks) (header : Nat -> Byte) :
    RootFits kernel.heap header ↔ ServesRootDirectory (bootStream kernel).2 header := by
  have asked := bootStream_asked placed
  have serves := asked.serves enough [intToWord (rootDirSize header)]
  rw [servesAll_cons asked.placed, kzalloc_pointer] at serves
  exact serves.trans ⟨fun served => served.1, fun served => ⟨served, trivial⟩⟩

/-- What the resolution knows at its label when it fails. -/
structure AtLabel (kernel last : Kernel) : Prop where
  grown : Grown (bootStream kernel).2.heap last.heap
  disk : last.disk = ⟨true, privatePointer kernel⟩
  early : (bootStream kernel).1 = 0#32 -> last = (bootStream kernel).2

theorem bootStream_disk (kernel : Kernel) : (bootStream kernel).2.disk = ⟨true, privatePointer kernel⟩ := by
  have globals : (bootStream kernel).2.toGlobals = (boundDisk kernel).toGlobals := by
    rw [bootStream, createDiskStream_toGlobals]
  exact congrArg Globals.disk globals

section Failing

variable (placed : kernel.heap.WellPlaced)
include placed

/-- The header is that of the boot sector. -/
theorem headerRead_boot : SameHeader
    ((headerRead (bootStream kernel).2 (bootStream kernel).1 (privatePointer kernel)).fatPrivates
      (privatePointer kernel)).header (bootSector kernel) := by
  have header := headerRead_header (bootStream kernel).2 (bootStream kernel).1 (privatePointer kernel)
    (createDiskStream_pos (boundDisk kernel))
  rw [bootSector_congr (bootStream_holds placed).drive] at header
  exact header

/-- The root directory, when the signature was found. -/
theorem rootDirectory_failed {read : Kernel} (heap : read.heap = (bootStream kernel).2.heap)
    (drive : driveOf read = driveOf kernel) (header : SameHeader (read.fatPrivates (privatePointer kernel)).header
      (bootSector kernel)) (enough : 5 ≤ kernel.heap.freeBlocks) :
    (exists root, fat16GetRootDirectory read (privatePointer kernel) = some root ∧ root.1 ≠ 0) ↔
      exists mark, DirectoryEnds (driveOf kernel) (rootDirStart (bootSector kernel)) mark ∧
        ¬ RootFits kernel.heap (bootSector kernel) := by
  have serves : ServesRootDirectory read (read.fatPrivates (privatePointer kernel)).header ↔
      RootFits kernel.heap (bootSector kernel) := by
    rw [rootFits_iff placed enough, ServesRootDirectory, ServesRootDirectory, heap, header.rootDirSize]
  rw [← serves]
  constructor
  · rintro ⟨root, load, failed⟩
    rcases fat16GetRootDirectory_some load with ⟨mark, ends, rfl⟩
    refine ⟨mark, ?_, fun served => failed (loadRootDirectory_served _ served).1⟩
    rw [header.rootDirStart, drive] at ends
    exact ends
  · rintro ⟨mark, ends, refused⟩
    rw [← header.rootDirStart, ← drive] at ends
    refine ⟨_, fat16GetRootDirectory_ends read (privatePointer kernel) ends, ?_⟩
    rw [loadRootDirectory_refused _ refused]
    decide

/-- The disks that are refused. -/
theorem fat16Resolve_fails_iff :
    (exists resolved, fat16Resolve kernel = some resolved ∧ resolved.1 < 0) ↔ ResolveFails kernel := by
  have null := bootStream_null_iff placed
  rw [fat16Resolve_eq]
  unfold ResolveFails
  by_cases refused : (bootStream kernel).1 = 0#32
  · rw [if_pos refused]
    refine ⟨fun _ => Or.inl (null.mp refused), fun _ => ⟨_, rfl, ?_⟩⟩
    rw [finishResolve_failed _ _ _ (by decide)]
    decide
  · have enough : 5 ≤ kernel.heap.freeBlocks := Nat.not_lt.mp fun few => refused (null.mpr few)
    have holds := headerRead_holds (bootStream_holds placed) (bootStream kernel).1
    have header := headerRead_boot placed
    have heap := headerRead_heap (bootStream kernel).2 (bootStream kernel).1 (privatePointer kernel)
    rw [if_neg refused, resolveWith_eq]
    generalize headerRead (bootStream kernel).2 (bootStream kernel).1 (privatePointer kernel) = read at *
    rw [header.signature, ← rootDirectory_failed placed heap holds.drive header enough]
    by_cases unsigned : FatHeader.signature (bootSector kernel) ≠ FAT16_SIGNATURE
    · rw [if_pos unsigned]
      refine ⟨fun _ => Or.inr (Or.inl unsigned), fun _ => ⟨_, rfl, ?_⟩⟩
      rw [finishResolve_failed _ _ _ (by decide)]
      decide
    · rw [if_neg unsigned]
      constructor
      · rintro ⟨resolved, mapped, negative⟩
        rcases Option.map_eq_some_iff.mp mapped with ⟨root, load, rfl⟩
        refine Or.inr (Or.inr ⟨root, load, fun accepted => ?_⟩)
        rw [if_neg (not_not.mpr accepted), finishResolve_accepted _ _ refused] at negative
        exact absurd negative (Int.lt_irrefl 0)
      · rintro (few | signed | ⟨root, load, failed⟩)
        · omega
        · exact absurd signed unsigned
        · rw [load, Option.map_some, if_pos failed]
          refine ⟨_, rfl, ?_⟩
          rw [finishResolve_failed _ _ _ (by decide)]
          decide

/-- A resolution that fails goes through its label. -/
theorem fat16Resolve_atLabel {resolved : Int × Kernel} (result : fat16Resolve kernel = some resolved)
    (failed : resolved.1 < 0) : exists last res, res < 0 ∧
      resolved = finishResolve last (bootStream kernel).1 (privatePointer kernel) res ∧ AtLabel kernel last := by
  have early : AtLabel kernel (bootStream kernel).2 := ⟨Grown.refl _, bootStream_disk kernel, fun _ => rfl⟩
  rw [fat16Resolve_eq] at result
  by_cases refused : (bootStream kernel).1 = 0#32
  · rw [if_pos refused] at result
    exact ⟨_, _, by decide, (Option.some.inj result).symm, early⟩
  · have holds := headerRead_holds (bootStream_holds placed) (bootStream kernel).1
    have heap := headerRead_heap (bootStream kernel).2 (bootStream kernel).1 (privatePointer kernel)
    have disk := headerRead_disk kernel (bootStream kernel).1 (privatePointer kernel)
    rw [if_neg refused, resolveWith_eq] at result
    generalize headerRead (bootStream kernel).2 (bootStream kernel).1 (privatePointer kernel) = read at *
    have grown : Grown (bootStream kernel).2.heap read.heap := by
      rw [heap]
      exact Grown.refl _
    by_cases unsigned : FatHeader.signature (read.fatPrivates (privatePointer kernel)).header ≠ FAT16_SIGNATURE
    · rw [if_pos unsigned] at result
      exact ⟨_, _, by decide, (Option.some.inj result).symm, grown, disk, fun null => absurd null refused⟩
    · rw [if_neg unsigned] at result
      rcases Option.map_eq_some_iff.mp result with ⟨root, load, rfl⟩
      by_cases accepted : root.1 = 0
      · rw [if_neg (not_not.mpr accepted), finishResolve_accepted _ _ refused] at failed
        exact absurd failed (Int.lt_irrefl 0)
      · rw [if_pos accepted]
        rcases fat16GetRootDirectory_grown holds.placed load with ⟨later, sameDisk⟩
        exact ⟨root.2, - EIO, by decide, rfl, grown.trans later, sameDisk.trans disk, fun null => absurd null refused⟩

end Failing

/-! ## What is left -/

/-- The two releases at the label. -/
def labelReleases (last : Kernel) (stream fatPrivate : Word) : Kernel :=
  kfree (if stream ≠ 0#32 then releaseDiskStream last stream else last) fatPrivate

theorem finishResolve_kernel (last : Kernel) (stream fatPrivate : Word) {res : Int} (failed : res < 0) :
    (finishResolve last stream fatPrivate res).2 =
      withDisk (labelReleases last stream fatPrivate) ⟨last.disk.fs, 0#32⟩ := by
  unfold finishResolve labelReleases
  simp only [failed, if_true]
  by_cases created : stream ≠ 0#32
  · rw [if_pos created]
    rfl
  · rw [if_neg created]
    rfl

theorem keepNewStream_grown (placed : kernel.heap.WellPlaced) (fatPrivate : Word)
    (field : Word -> FatPrivateData -> FatPrivateData) :
    Grown kernel.heap (keepNewStream kernel fatPrivate field).heap ∧ (keepNewStream kernel fatPrivate field).heap.WellPlaced := by
  rw [keepNewStream_heap]
  exact ⟨Grown.kzalloc placed 8#32, kzalloc_wellPlaced placed 8#32⟩

/-- The first of the streams is asked for in front of the others. -/
theorem fat16InitPrivateData_steps (placed : kernel.heap.WellPlaced) (fatPrivate : Word) : exists cleared first : Kernel,
    cleared.heap = kernel.heap ∧ first.heap = (kzalloc cleared 8#32).2.heap ∧
      Grown first.heap (fat16InitPrivateData kernel fatPrivate).heap := by
  unfold fat16InitPrivateData
  dsimp only
  have clearedHeap := Kernel.withStore_heap kernel (kernel.toStore.fillZero fatPrivate sizeofPrivateData)
  rw [← clearedHeap] at placed
  generalize kernel.withStore (kernel.toStore.fillZero fatPrivate sizeofPrivateData) = cleared at *
  have firstHeap := keepNewStream_heap cleared fatPrivate fun stream record => { record with clusterReadStream := stream }
  have firstPlaced := (keepNewStream_grown placed fatPrivate fun stream record =>
    { record with clusterReadStream := stream }).2
  generalize keepNewStream cleared fatPrivate (fun stream record => { record with clusterReadStream := stream }) = first at *
  have second := keepNewStream_grown firstPlaced fatPrivate fun stream record => { record with fatReadStream := stream }
  exact ⟨cleared, first, clearedHeap, firstHeap, second.1.trans (keepNewStream_grown second.2 fatPrivate _).1⟩

/-- A stream that was asked for in front of the others is still there in the end. -/
theorem labelReleases_leak (kernelHeap : kernel.heap.IsKernelHeap) (more : 2 ≤ kernel.heap.freeBlocks) {last : Kernel}
    (label : AtLabel kernel last) :
    ¬ SameEntries kernel (labelReleases last (bootStream kernel).1 (privatePointer kernel)) := by
  have page : blocksFor 8#32 = 1 := by decide
  have placed := kernelHeap.wellPlaced
  have allocated := (Asked.nothing placed).kzalloc (show blocksFor sizeofPrivateData = 1 by decide)
  rcases fat16InitPrivateData_steps allocated.placed (privatePointer kernel) with
    ⟨cleared, first, clearedHeap, firstHeap, toBound⟩
  rw [← boundDisk_heap] at toBound
  have asked := allocated.of_heap clearedHeap
  have boundPlaced := (boundDisk_asked placed).placed
  have grown := label.grown
  unfold bootStream at grown ⊢
  generalize boundDisk kernel = bound at *
  rw [createDiskStream_heap] at grown
  rw [createDiskStream_pointer]
  rcases kzalloc_page placed (show blocksFor sizeofPrivateData = 1 by decide) with ⟨block, hands, result⟩ | ⟨exhausted, _⟩
  · have address : privatePointer kernel = kernel.heap.addressOf block := congrArg Prod.fst result
    have recordOwned : cleared.heap.Owns (Extent.single block) := by
      rw [clearedHeap, result]
      exact Heap.owns_marked hands.within
    rcases kzalloc_page asked.placed page with ⟨next, handsNext, resultNext⟩ | ⟨exhausted, _⟩
    · have apart := handsNext.apart recordOwned
      have firstOwned : first.heap.Owns (Extent.single next) := by
        rw [firstHeap, resultNext]
        exact Heap.owns_marked handsNext.within
      have firstGrown := Grown.kzalloc asked.placed 8#32
      rw [← firstHeap] at firstGrown
      have boundGrown := Grown.kzalloc boundPlaced 8#32
      have all := ((asked.grown.trans firstGrown).trans toBound).trans (boundGrown.trans grown)
      have lastHeap := kernelHeap.samePool all.pool
      have recordLast := grown.owns _ (boundGrown.owns _ (toBound.owns _ (firstGrown.owns _ recordOwned)))
      have firstBound := toBound.owns _ firstOwned
      have firstLast := grown.owns _ (boundGrown.owns _ firstBound)
      refine asked.grown.not_sameEntries handsNext ?_
      rw [address, ← all.pool.addressOf]
      unfold labelReleases
      by_cases created : (kzalloc bound 8#32).1 ≠ 0#32
      · rw [if_pos created, releaseDiskStream]
        rcases kzalloc_page boundPlaced page with ⟨stream, handsStream, resultStream⟩ | ⟨_, refused⟩
        · have streamAddress : (kzalloc bound 8#32).1 = last.heap.addressOf stream := by
            rw [grown.pool.addressOf, boundGrown.pool.addressOf]
            exact congrArg Prod.fst resultStream
          have streamOwned : last.heap.Owns (Extent.single stream) := by
            refine grown.owns _ ?_
            rw [resultStream]
            exact Heap.owns_marked handsStream.within
          have released := kfree_keepsApart lastHeap streamOwned streamAddress
          have recordKept := released.owns _ (handsStream.apart (toBound.owns _ (firstGrown.owns _ recordOwned))) recordLast
          have firstKept := released.owns _ (handsStream.apart firstBound) firstLast
          rw [← released.pool.addressOf]
          exact (kfree_keepsApart (lastHeap.samePool released.pool) recordKept rfl).owns _ apart.symm firstKept
        · rw [refused] at created
          exact absurd rfl created
      · rw [if_neg created]
        exact (kfree_keepsApart lastHeap recordLast rfl).owns _ apart.symm firstLast
    · have none := Heap.exhausted_iff.mp exhausted
      rw [asked.freeBlocks] at none
      change kernel.heap.freeBlocks - 1 = 0 at none
      omega
  · have none := Heap.exhausted_iff.mp exhausted
    omega

/-- With less than two blocks no stream is served. -/
theorem bootStream_heap_few (placed : kernel.heap.WellPlaced) (few : kernel.heap.freeBlocks ≤ 1) :
    (bootStream kernel).2.heap = (kzalloc kernel sizeofPrivateData).2.heap := by
  have page : blocksFor 8#32 = 1 := by decide
  have allocated := (Asked.nothing placed).kzalloc (show blocksFor sizeofPrivateData = 1 by decide)
  have full : (kzalloc kernel sizeofPrivateData).2.heap.freeBlocks = 0 := by
    rw [allocated.freeBlocks]
    exact Nat.sub_eq_zero_of_le few
  have step {current : Kernel} (same : current.heap = (kzalloc kernel sizeofPrivateData).2.heap) :
      (kzalloc current 8#32).2.heap = (kzalloc kernel sizeofPrivateData).2.heap := by
    have currentPlaced := allocated.placed
    have none := full
    rw [← same] at currentPlaced none
    exact (kzalloc_full currentPlaced page none).2.trans same
  unfold bootStream boundDisk fat16InitPrivateData
  rw [createDiskStream_heap]
  apply step
  rw [withDisk_heap, keepNewStream_heap]
  apply step
  rw [keepNewStream_heap]
  apply step
  rw [keepNewStream_heap]
  apply step
  exact Kernel.withStore_heap _ _

section Releases

variable (kernelHeap : kernel.heap.IsKernelHeap) (encoded : kernel.heap.Encoded) {last : Kernel} (label : AtLabel kernel last)
include kernelHeap encoded label

/-- The releases undo the requests only when no stream was served. -/
theorem labelReleases_iff :
    SameEntries kernel (labelReleases last (bootStream kernel).1 (privatePointer kernel)) ↔
      kernel.heap.freeBlocks = 1 ∨ kernel.heap.freeBlocks = 0 ∧ Tasks.NullReleaseHarmless kernel.heap := by
  have placed := kernelHeap.wellPlaced
  have one : blocksFor sizeofPrivateData = 1 := by decide
  by_cases few : kernel.heap.freeBlocks ≤ 1
  · have null := (bootStream_null_iff placed).mpr (by omega)
    have heap := bootStream_heap_few placed few
    rw [← label.early null] at heap
    have page := (kzalloc_freeBlocks placed one).1
    rw [null, labelReleases, if_neg (not_not.mpr rfl)]
    by_cases none : kernel.heap.freeBlocks = 0
    · have same := heap.trans (kzalloc_full placed one none).2
      have pointer : privatePointer kernel = 0#32 := page.mpr none
      have harmless := Tasks.free_null_iff kernelHeap encoded
      rw [← same] at harmless
      rw [← same, pointer]
      change SameEntries kernel (kfree last 0#32) ↔ _
      unfold SameEntries
      rw [← same]
      exact harmless.trans ⟨fun holds => Or.inr ⟨same ▸ none, holds⟩, fun holds => holds.elim
        (fun single => absurd (single.symm.trans (same ▸ none)) (by decide)) fun holds => holds.2⟩
    · have restored := kfree_kzalloc_entries kernelHeap encoded (fun null => none (page.mp null)) heap
      exact ⟨fun _ => Or.inl (by omega), fun _ => restored⟩
  · have leaks := labelReleases_leak kernelHeap (by omega) label
    refine ⟨fun same => absurd same leaks, ?_⟩
    rintro (single | ⟨none, _⟩)
    · omega
    · omega

end Releases

theorem untouched_withDisk {before : Kernel} {disk : DiskRecord} :
    Untouched before (withDisk after disk) ↔ disk = before.disk ∧ SameEntries before after :=
  ⟨fun untouched => ⟨untouched.disk, untouched.entries⟩, fun same => ⟨same.1, same.2⟩⟩

/-- The failure of a kernel with two free blocks. -/
theorem resolveFailure_leaks (kernelHeap : kernel.heap.IsKernelHeap) (more : 2 ≤ kernel.heap.freeBlocks)
    (fails : ResolveFails kernel) : exists resolved, fat16Resolve kernel = some resolved ∧ resolved.1 < 0 ∧
      resolved.2.disk = ⟨true, 0#32⟩ ∧ ¬ SameEntries kernel resolved.2 := by
  rcases (fat16Resolve_fails_iff kernelHeap.wellPlaced).mpr fails with ⟨resolved, result, failed⟩
  rcases fat16Resolve_atLabel kernelHeap.wellPlaced result failed with ⟨last, res, negative, same, label⟩
  have leaks := labelReleases_leak kernelHeap more label
  have kernel' := congrArg Prod.snd same
  rw [finishResolve_kernel _ _ _ negative, label.disk] at kernel'
  generalize labelReleases last (bootStream kernel).1 (privatePointer kernel) = released at leaks kernel'
  refine ⟨resolved, result, failed, ?_, ?_⟩
  · rw [kernel']
    rfl
  · rw [kernel']
    exact leaks

/-- A failure is undone exactly if the disk was already taken over without private data,
and the heap had too few blocks for a stream. -/
theorem undoesFailure_iff (kernelHeap : kernel.heap.IsKernelHeap) (encoded : kernel.heap.Encoded) :
    UndoesFailure kernel ↔ (ResolveFails kernel -> kernel.disk = ⟨true, 0#32⟩ ∧
      (kernel.heap.freeBlocks = 1 ∨ kernel.heap.freeBlocks = 0 ∧ Tasks.NullReleaseHarmless kernel.heap)) := by
  have placed := kernelHeap.wellPlaced
  constructor
  · intro undoes fails
    rcases (fat16Resolve_fails_iff placed).mpr fails with ⟨resolved, result, failed⟩
    rcases fat16Resolve_atLabel placed result failed with ⟨last, res, negative, rfl, label⟩
    have untouched := undoes _ result failed
    rw [finishResolve_kernel _ _ _ negative, label.disk, untouched_withDisk, labelReleases_iff kernelHeap encoded label]
      at untouched
    exact ⟨untouched.1.symm, untouched.2⟩
  · intro condition resolved result failed
    rcases condition ((fat16Resolve_fails_iff placed).mp ⟨resolved, result, failed⟩) with ⟨disk, few⟩
    rcases fat16Resolve_atLabel placed result failed with ⟨last, res, negative, rfl, label⟩
    rw [finishResolve_kernel _ _ _ negative, label.disk, untouched_withDisk, labelReleases_iff kernelHeap encoded label]
    exact ⟨disk.symm, few⟩

/-- A kernel with a blank disk. -/
abbrev blankDisk : Kernel := kheapInit (Kernel.loaded Store.blank (fun _ _ => 0#8) fun _ => 0#8) fun _ => 0#8

/-- The promise for the blank disk. -/
theorem undoesFailure_iff_blank : UndoesFailure blankDisk ↔ (ResolveFails blankDisk -> blankDisk.disk = ⟨true, 0#32⟩ ∧
    (blankDisk.heap.freeBlocks = 1 ∨ blankDisk.heap.freeBlocks = 0 ∧ Tasks.NullReleaseHarmless blankDisk.heap)) :=
  undoesFailure_iff (kheapInit_isKernelHeap _ _) (kheapInit_encoded _ _)

/-- The blank disk is refused, and keeps the operations that were put into it. -/
theorem undoesFailure_blank : (exists resolved, fat16Resolve blankDisk = some resolved ∧ resolved.1 < 0 ∧
    blankDisk.disk.fs = false ∧ resolved.2.disk.fs = true ∧ ¬ SameEntries blankDisk resolved.2) ∧
      ¬ UndoesFailure blankDisk := by
  have kernelHeap : blankDisk.heap.IsKernelHeap := kheapInit_isKernelHeap _ _
  have unsigned : ResolveFails blankDisk := Or.inr (Or.inl (by decide))
  have free : 2 ≤ blankDisk.heap.freeBlocks := by
    rw [kheapInit_freeBlocks]
    decide
  have fs : blankDisk.disk.fs = false := rfl
  generalize blankDisk = kernel at *
  rcases resolveFailure_leaks kernelHeap free unsigned with ⟨resolved, result, failed, disk, leaks⟩
  refine ⟨⟨resolved, result, failed, fs, ?_, leaks⟩, fun undoes => leaks (undoes resolved result failed).entries⟩
  rw [disk]

end Fs
end LarvaOS
