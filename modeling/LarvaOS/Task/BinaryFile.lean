import LarvaOS.Fs.OpenTable
import LarvaOS.Fs.PathList
import LarvaOS.Libc.CharArray
import LarvaOS.Task.LoadBalance

namespace LarvaOS
namespace Tasks

open Disk Fs Library Libc Memory

/-!
# The name of a loaded file

The record of a process has a field of a hundred bytes for the name of its file, and
`strncpy` stores no NUL there when the name is as long as the field.  Neither the
parser nor the load bounds the name: any number of slashes may precede a component.

Whatever a load does after the copy, the record is kept or cleared.  It is kept when
the load does not damage the entry table of the heap.
-/

/-! ## The copy -/

/-- The field holds a string that the file name begins with, and the NUL behind it. -/
def HoldsPrefix (field : Nat -> Byte) (filename : List Byte) : Prop :=
  exists s, s <+: filename ∧ s.length < FILESYSTEM_MAX_PATH_LENGTH ∧ HoldsAt field 0 (s ++ [0#8])

theorem strncpy_holdsPrefix (d : Nat -> Byte) {filename : List Byte}
    (short : filename.length < FILESYSTEM_MAX_PATH_LENGTH) :
    HoldsPrefix (Libc.strncpy d filename FILESYSTEM_MAX_PATH_LENGTH) filename := by
  refine ⟨filename, List.prefix_refl filename, short, fun place c found => ?_⟩
  have inside := (List.getElem?_eq_some_iff.mp found).1
  rw [List.length_append, List.length_singleton] at inside
  unfold Libc.strncpy FILESYSTEM_MAX_PATH_LENGTH at *
  rw [Nat.zero_add, if_pos (by omega), found]
  rfl

/-- A name that fills the field has no NUL in it. -/
theorem strncpy_not_holdsPrefix (d : Nat -> Byte) {filename : List Byte} (string : IsString filename)
    (long : FILESYSTEM_MAX_PATH_LENGTH ≤ filename.length) :
    ¬ HoldsPrefix (Libc.strncpy d filename FILESYSTEM_MAX_PATH_LENGTH) filename := by
  rintro ⟨s, _, short, holds⟩
  have ended := holds s.length 0#8 (List.getElem?_concat_length)
  have inside : s.length < filename.length := Nat.lt_of_lt_of_le short long
  have copied : Libc.strncpy d filename FILESYSTEM_MAX_PATH_LENGTH s.length = filename[s.length] := by
    unfold Libc.strncpy FILESYSTEM_MAX_PATH_LENGTH at *
    rw [if_pos (by omega), List.getElem?_append_left inside, List.getElem?_eq_getElem inside]
    rfl
  rw [Nat.zero_add, copied] at ended
  exact string (ended ▸ List.getElem_mem inside)

theorem blank_holdsPrefix (filename : List Byte) : HoldsPrefix Process.zero.binaryFile filename := by
  refine ⟨[], List.nil_prefix, by decide, holdsAt_cons.mpr ⟨rfl, fun _ _ found => absurd found (by simp)⟩⟩

/-! ## The record, from the copy on -/

section Records

variable {kernel : Kernel}

/-- The record of a process is the same, or was cleared. -/
def KeepsRecord (before after : Kernel) (address : Word) : Prop :=
  after.processRecords address = before.processRecords address ∨ after.processRecords address = Process.zero

/-- A new task keeps the record of a process, or clears it. -/
theorem makeNewTask_records {proc : Word} (made : isErr (makeNewTask kernel proc).1 = false) (address : Word) :
    KeepsRecord kernel (makeNewTask kernel proc).2 address := by
  rcases makeNewTask_appends made with ⟨ready, requests, result⟩
  have same := congrFun (appendTask_fileDescriptors ready (kzalloc kernel sizeofTask).1).2 address
  rw [result]
  exact (requests.records address).imp same.trans same.trans

/-- A start that succeeds ends with the record that the new task leaves, and the
pointer to the task. -/
theorem startProcess_record {tmpProcess process : Word} {slot : Nat}
    (started : (startProcess kernel tmpProcess slot).process = some process) :
    process = tmpProcess ∧ isErr (makeNewTask kernel tmpProcess).1 = false ∧
      (startProcess kernel tmpProcess slot).kernel.processRecords tmpProcess =
        { (makeNewTask kernel tmpProcess).2.processRecords tmpProcess with task := (makeNewTask kernel tmpProcess).1 } := by
  unfold startProcess at started ⊢
  dsimp only at started ⊢
  generalize makeNewTask kernel tmpProcess = task at started ⊢
  by_cases failed : isErr task.1 = true
  · rw [if_pos failed, abandonProcess_process] at started
    exact absurd started.symm (Option.some_ne_none process)
  · rw [if_neg failed] at started ⊢
    have record := modifyProcess_record task.2 tmpProcess ({ · with task := task.1 })
    generalize modifyProcess task.2 tmpProcess ({ · with task := task.1 }) = prepared at started record ⊢
    have words : OnlyWords prepared (processMapVirtualMemory prepared tmpProcess).2 :=
      pagingMapVirtualMemory_onlyWords _ _ _ _ _ _
    generalize processMapVirtualMemory prepared tmpProcess = mapped at started words ⊢
    by_cases unmapped : mapped.1 < 0
    · rw [if_pos unmapped, abandonProcess_process] at started
      exact absurd started.symm (Option.some_ne_none process)
    · rw [if_neg unmapped] at started ⊢
      rcases words with ⟨words, same⟩
      refine ⟨(Option.some.inj started).symm, Bool.eq_false_iff.mpr failed, ?_⟩
      rw [← record]
      change mapped.2.processRecords tmpProcess = _
      rw [same]
      rfl

/-- The kernel before the task is made, when a load succeeds. -/
structure Prepared (kernel prepared final : Kernel) (filename : List Byte) (process : Word) (slot : Nat) : Prop where
  heap : prepared.heap = (kzalloc kernel USER_PROGRAM_STACK_SIZE).2.heap
  id : (prepared.processRecords process).id = BitVec.ofNat 16 slot
  binaryFile : exists d, (prepared.processRecords process).binaryFile = Libc.strncpy d filename FILESYSTEM_MAX_PATH_LENGTH
  made : isErr (makeNewTask prepared process).1 = false
  record : final.processRecords process =
    { (makeNewTask prepared process).2.processRecords process with task := (makeNewTask prepared process).1 }

theorem prepareProcess_prepared {filename : List Byte} {tmpProcess process : Word} {slot : Nat}
    (stored : (prepareProcess kernel filename tmpProcess slot).process = some process) :
    process = tmpProcess ∧ exists prepared,
      Prepared kernel prepared (prepareProcess kernel filename tmpProcess slot).kernel filename tmpProcess slot := by
  unfold prepareProcess at stored ⊢
  dsimp only at stored ⊢
  by_cases refused : (kzalloc kernel USER_PROGRAM_STACK_SIZE).1 = 0#32
  · rw [if_pos refused, abandonProcess_process] at stored
    exact absurd stored.symm (Option.some_ne_none process)
  · rw [if_neg refused] at stored ⊢
    generalize same : modifyProcess (kzalloc kernel USER_PROGRAM_STACK_SIZE).2 tmpProcess _ = prepared at stored ⊢
    have record := modifyProcess_record (kzalloc kernel USER_PROGRAM_STACK_SIZE).2 tmpProcess fun record =>
      { record with
        binaryFile := Libc.strncpy record.binaryFile filename FILESYSTEM_MAX_PATH_LENGTH
        stackPointer := (kzalloc kernel USER_PROGRAM_STACK_SIZE).1
        id := BitVec.ofNat 16 slot }
    rw [same] at record
    rcases startProcess_record stored with ⟨whole, made, final⟩
    refine ⟨whole, prepared, ?_, ?_, ?_, made, final⟩
    · rw [← same]
      rfl
    · rw [record]
    · rw [record]
      exact ⟨_, rfl⟩

/-- The field of a loaded process, whatever happened to its record. -/
theorem Prepared.copied {prepared final : Kernel} {filename : List Byte} {process : Word} {slot : Nat}
    (complete : Prepared kernel prepared final filename process slot) :
    (exists d, (final.processRecords process).binaryFile = Libc.strncpy d filename FILESYSTEM_MAX_PATH_LENGTH) ∨
      (final.processRecords process).binaryFile = Process.zero.binaryFile := by
  rcases complete.binaryFile with ⟨d, copy⟩
  rw [complete.record]
  rcases makeNewTask_records complete.made process with same | cleared
  · refine Or.inl ⟨d, ?_⟩
    rw [same]
    exact copy
  · refine Or.inr ?_
    rw [cleared]

/-- An allocated record is kept. -/
theorem Prepared.kept {prepared final : Kernel} {filename : List Byte} {process : Word} {slot : Nat}
    (complete : Prepared kernel prepared final filename process slot) (placed : kernel.heap.WellPlaced) {extent : Extent}
    (owned : kernel.heap.Owns extent) (address : process = kernel.heap.addressOf extent.first) :
    final.processRecords process =
      { prepared.processRecords process with task := (makeNewTask prepared process).1 } := by
  have keeps := keeps_kzalloc (fun _ => True) placed USER_PROGRAM_STACK_SIZE
  have heap := complete.heap
  have preparedPlaced : prepared.heap.WellPlaced := heap ▸ keeps.pool.wellPlaced placed
  have stillOwned : prepared.heap.Owns extent := heap ▸ keeps.owns extent trivial owned
  have inExtent : prepared.heap.InExtent extent process := by
    rw [address, ← keeps.pool.addressOf, ← heap]
    exact inExtent_addressOf preparedPlaced stillOwned
  rcases makeNewTask_spec preparedPlaced process complete.made with ⟨task, blocks, ready, made, result⟩
  have record : (makeNewTask prepared process).2.processRecords process = prepared.processRecords process := by
    rw [result]
    exact (congrFun (appendTask_fileDescriptors ready _).2 process).trans
      (made.keeps.same extent trivial stillOwned process inExtent).processRecords
  rw [complete.record, record]

end Records

/-! ## The load -/

/-- The components of a path end below the entry table wherever they are copied. -/
def ShortComponents (path : List Byte) : Prop :=
  forall component, component ∈ components path -> component.length < entryTableAddress

/-- The components after the first one do so. -/
def ShortFollowing (path : List Byte) : Prop :=
  forall component, component ∈ (components path).tail -> component.length < entryTableAddress

theorem parseOnePathPart_text {kernel : Kernel} {path : List Byte} {part : PathPart}
    (parsed : (parseOnePathPart kernel path).1 = some part) : firstComponent path ≠ [] ∧ part.text = firstComponent path := by
  by_cases none : firstComponent path = []
  · rw [parseOnePathPart_nothing kernel none] at parsed
    cases parsed
  · refine ⟨none, ?_⟩
    unfold parseOnePathPart at parsed
    rw [getAndRemovePrefixPath_eq, if_neg none] at parsed
    have text : (copyComponent kernel (nextComponent (fromComponent path))).text = firstComponent path := rfl
    generalize copyComponent kernel (nextComponent (fromComponent path)) = copied at parsed text
    dsimp only at parsed
    split at parsed
    · cases parsed
    · split at parsed
      · cases parsed
      · rw [← Option.some.inj parsed]
        exact text

/-- A file is opened only by a path whose first component can be the name of a slot. -/
theorem fopen_firstComponent {kernel : Kernel} {path mode : List Byte} (string : IsString path) {fd : Int × Kernel}
    (opens : fopen kernel path mode = some fd) (opened : 0 < fd.1) : (firstComponent path).length ≤ 12 := by
  rcases fopen_cases opens with rfl | ⟨p, attempt, rfl⟩
  · exact absurd opened (Int.lt_irrefl 0)
  · have noError : isErr p.1 = false := by
      by_contra error
      have failed : isErr p.1 = true := Bool.eq_true_of_not_eq_false error
      rw [fopenEnd, if_pos failed, fopenResult_ptrErr failed] at opened
      exact absurd opened (Int.lt_irrefl 0)
    rcases fopenAttempt_some attempt with ⟨root, next, parsed, parses, _, _, walks⟩
    rcases fat16Open_walks walks noError with ⟨opener, item, walk, found, _⟩
    have text : root.text = firstComponent path := by
      unfold pathParse at parses
      split at parses
      · cases parses
      · rw [parseParts] at parses
        generalize part : parseOnePathPart kernel path = result at parses
        rcases result with ⟨made | made, rest, after⟩
        · cases parses
        · have first : made = root := (List.cons.inj (congrArg Prod.fst parses)).1
          rw [← first]
          exact (parseOnePathPart_text (congrArg Prod.fst part)).2
    unfold fat16GetDirectoryEntry at walk
    rcases Option.bind_eq_some_iff.mp walk with ⟨rootItem, search, rest⟩
    have taken : exists slot, TakenFor root.text slot := by
      refine (searchSlots_taken _ search).resolve_left fun missing => found ?_
      rw [if_pos missing] at rest
      exact (congrArg Prod.fst (Option.some.inj rest)).symm
    rcases taken with ⟨slot, taken⟩
    rw [← text]
    refine taken.short ?_
    rw [text]
    exact fun member => string ((List.dropWhile_suffix _).subset ((List.takeWhile_prefix _).subset member))

theorem partsFit_of_components (bytes : Nat) (kernel : Kernel) {path : List Byte} (short : ShortComponents path) :
    PartsFit bytes kernel path := by
  induction bytes generalizing kernel path with
  | zero => trivial
  | succ bytes inductionHypothesis =>
      have split := components_eq path
      refine ⟨fun some => Or.inl (short _ ?_), fun part rest after parsed => inductionHypothesis after ?_⟩
      · rw [split, if_neg some]
        exact List.mem_cons_self
      · by_cases none : firstComponent path = []
        · rw [parseOnePathPart_nothing kernel none] at parsed
          cases congrArg Prod.fst parsed
        · have left := parseOnePathPart_follows kernel none
          rw [parsed] at left
          obtain rfl : rest = (nextComponent (fromComponent path)).2 := left
          intro component member
          refine short component ?_
          rw [split, if_neg none]
          exact List.mem_cons_of_mem _ member

section Loads

variable {kernel : Kernel} {stat : Word} {filename : List Byte}

/-- More slashes in front of a path open the same file. -/
theorem fopen_slashes (kernel : Kernel) (count : Nat) (following mode : List Byte) :
    fopen kernel (List.replicate count forwardSlash ++ forwardSlash :: following) mode =
      fopen kernel (forwardSlash :: following) mode := by
  have parse : pathParse kernel (List.replicate count forwardSlash ++ forwardSlash :: following) =
      pathParse kernel (forwardSlash :: following) := by
    induction count with
    | zero => rfl
    | succ count inductionHypothesis =>
        rw [List.replicate_succ, List.cons_append, pathParse_slash kernel, inductionHypothesis]
        cases count with
        | zero => rfl
        | succ count => rfl
  unfold fopen
  rw [parse]

/-- Reading the binary keeps the allocations. -/
theorem processLoadBinary_owns (kernelHeap : kernel.heap.IsKernelHeap) (fits : PathFits kernel filename) {process : Word}
    {loaded : Int × Kernel} (loads : processLoadBinary kernel stat filename process = some loaded) :
    kernel.heap.SamePool loaded.2.heap ∧ forall extent, kernel.heap.Owns extent -> loaded.2.heap.Owns extent := by
  rcases processLoadBinary_cases loads with ⟨fd, stated, size, read, opens, looked, reads, outcome⟩
  have opened := fopen_keeps kernelHeap fits opens
  have pool := opened.pool
  have owns := fun extent => opened.owns extent trivial
  rw [← looked.heap] at pool owns
  have image := keeps_kzalloc (fun _ => True) (pool.wellPlaced kernelHeap.wellPlaced) size
  have whole : kernel.heap.SamePool read.heap ∧ forall extent, kernel.heap.Owns extent -> read.heap.Owns extent := by
    rw [reads.heap]
    exact ⟨pool.trans image.pool, fun extent owned => image.owns extent trivial (owns extent owned)⟩
  rcases outcome with ⟨_, same | same⟩ | ⟨_, _, same⟩
  · exact same ▸ ⟨pool, owns⟩
  · exact same ▸ whole
  · rw [same]
    exact whole

/-- A load that goes through: its slot, its record and its end. -/
theorem loadProcess_succeeded {process : Word} {loading : Loading} (loads : loadProcess kernel stat filename = some loading)
    (stored : loading.process = some process) : exists slot loaded, processGetFreeSlot kernel = some slot ∧
      process = (kzalloc kernel sizeofProcess).1 ∧ process ≠ 0#32 ∧
      processLoadBinary (processInit (kzalloc kernel sizeofProcess).2 process) stat filename process = some loaded ∧
      ¬ loaded.1 < 0 ∧ loading = prepareProcess loaded.2 filename process slot := by
  unfold loadProcess at loads
  cases free : processGetFreeSlot kernel with
  | none =>
      rw [free] at loads
      obtain rfl := Option.some.inj loads
      exact absurd stored.symm (Option.some_ne_none process)
  | some slot =>
      rw [free] at loads
      dsimp only at loads
      unfold processLoadForSlot at loads
      rw [if_neg (processGetFreeSlot_empty free)] at loads
      dsimp only at loads
      by_cases refused : (kzalloc kernel sizeofProcess).1 = 0#32
      · rw [if_pos refused] at loads
        obtain rfl := Option.some.inj loads
        exact absurd stored.symm (Option.some_ne_none process)
      · rw [if_neg refused] at loads
        rcases Option.map_eq_some_iff.mp loads with ⟨loaded, binary, rfl⟩
        by_cases failed : loaded.1 < 0
        · rw [if_pos failed] at stored
          exact absurd stored.symm (Option.some_ne_none process)
        · rw [if_neg failed] at stored ⊢
          rcases prepareProcess_prepared stored with ⟨rfl, _⟩
          exact ⟨slot, loaded, rfl, rfl, refused, binary, failed, rfl⟩

/-- A binary that was read was opened, so that the first component of its path is short. -/
theorem processLoadBinary_short (string : IsString filename) (following : ShortFollowing filename) {process : Word}
    {loaded : Int × Kernel} (loads : processLoadBinary kernel stat filename process = some loaded)
    (succeeded : ¬ loaded.1 < 0) : ShortComponents filename := by
  unfold processLoadBinary at loads
  rcases Option.bind_eq_some_iff.mp loads with ⟨fd, opens, rest⟩
  have opened : 0 < fd.1 := by
    by_contra missing
    rw [if_pos (Int.not_lt.mp missing)] at rest
    rw [← Option.some.inj rest] at succeeded
    exact succeeded (by decide : - EIO < 0)
  have first := fopen_firstComponent string opens opened
  intro component member
  rw [ShortFollowing, components_eq] at following
  rw [components_eq] at member
  split at member
  · exact absurd member List.not_mem_nil
  · rename_i some
    rw [if_neg some] at following
    rcases List.mem_cons.mp member with rfl | later
    · exact Nat.lt_of_le_of_lt first (by decide)
    · exact following component later

/-- The record of a loaded process keeps its name. -/
theorem loadProcess_keepsName (kernelHeap : kernel.heap.IsKernelHeap) (string : IsString filename)
    (following : ShortFollowing filename) {process : Word} {loading : Loading}
    (loads : loadProcess kernel stat filename = some loading) (stored : loading.process = some process) :
    exists d, (loading.kernel.processRecords process).binaryFile = Libc.strncpy d filename FILESYSTEM_MAX_PATH_LENGTH := by
  rcases loadProcess_succeeded loads stored with ⟨slot, loaded, _, pointer, notNull, binary, succeeded, rfl⟩
  rcases (prepareProcess_prepared stored).2 with ⟨prepared, complete⟩
  rw [pointer] at notNull binary
  rcases processInit_keeps kernelHeap.wellPlaced notNull with ⟨extent, acquired, keeps⟩
  have initialHeap := kernelHeap.samePool keeps.pool
  have short := processLoadBinary_short string following binary succeeded
  rcases processLoadBinary_owns initialHeap (fun _ => partsFit_of_components _ _ short) binary with ⟨pool, owns⟩
  have address : process = loaded.2.heap.addressOf extent.first := by
    rw [pointer, pool.addressOf]
    exact acquired.address
  rcases complete.binaryFile with ⟨d, copy⟩
  refine ⟨d, ?_⟩
  rw [complete.kept (pool.wellPlaced initialHeap.wellPlaced) (owns extent acquired.owned) address]
  exact copy

/-- The field of a loaded process holds a prefix of the name and a NUL when the name is
shorter than the field, and otherwise not.  Only a component after the first one that
reaches the entry table of the heap may clear the record again: the heap refuses its copy,
and the file of the first component is opened. -/
theorem loadProcess_binaryFile (kernelHeap : kernel.heap.IsKernelHeap) (string : IsString filename) {process : Word}
    {loading : Loading} (loads : loadProcess kernel stat filename = some loading) (stored : loading.process = some process) :
    (filename.length < FILESYSTEM_MAX_PATH_LENGTH ->
      HoldsPrefix (loading.kernel.processRecords process).binaryFile filename) ∧
    (ShortFollowing filename -> HoldsPrefix (loading.kernel.processRecords process).binaryFile filename ->
      filename.length < FILESYSTEM_MAX_PATH_LENGTH) := by
  constructor
  · intro short
    rcases loadProcess_succeeded loads stored with ⟨slot, loaded, _, _, _, _, _, rfl⟩
    rcases (prepareProcess_prepared stored).2 with ⟨prepared, complete⟩
    rcases complete.copied with ⟨d, copy⟩ | cleared
    · rw [copy]
      exact strncpy_holdsPrefix d short
    · rw [cleared]
      exact blank_holdsPrefix filename
  · intro following holds
    by_contra long
    rcases loadProcess_keepsName kernelHeap string following loads stored with ⟨d, copy⟩
    rw [copy] at holds
    exact strncpy_not_holdsPrefix d string (Nat.le_of_not_lt long) holds

end Loads

/-- The file of a hundred bytes, under its short name. -/
theorem loadProcess_binaryFile_short : exists booted loading process, boot fileVolume (fun _ => 0#8) = some booted ∧
    loadProcess booted 0x1FF000#32 [forwardSlash, 0x41#8] = some loading ∧ loading.process = some process ∧
      HoldsPrefix (loading.kernel.processRecords process).binaryFile [forwardSlash, 0x41#8] := by
  rcases @fileVolume_loads 0x1FF000#32 (by decide) with ⟨booted, loading, process, boots, loads, _, stored, _⟩
  exact ⟨booted, loading, process, boots, loads, stored,
    (loadProcess_binaryFile (boot_booted boots).kernelHeap (by decide) loads stored).1 (by decide)⟩

/-- The same file behind 99 slashes: the name fills the field. -/
theorem loadProcess_binaryFile_slashes : exists booted loading process, boot fileVolume (fun _ => 0#8) = some booted ∧
    loadProcess booted 0x1FF000#32 (List.replicate 98 forwardSlash ++ [forwardSlash, 0x41#8]) = some loading ∧
      loading.process = some process ∧ ¬ HoldsPrefix (loading.kernel.processRecords process).binaryFile
        (List.replicate 98 forwardSlash ++ [forwardSlash, 0x41#8]) := by
  rcases @fileVolume_loads_as 0x1FF000#32 (by decide) (List.replicate 98 forwardSlash ++ [forwardSlash, 0x41#8])
    (fun kernel => fopen_slashes kernel 98 [0x41#8] [0x72#8]) with ⟨booted, loading, process, boots, loads, _, stored, _⟩
  have following : ShortFollowing (List.replicate 98 forwardSlash ++ [forwardSlash, 0x41#8]) := by
    have same : components (List.replicate 98 forwardSlash ++ [forwardSlash, 0x41#8]) = [[0x41#8]] := by
      rw [components_slashes]
      decide
    intro component member
    rw [same] at member
    exact absurd member List.not_mem_nil
  rcases loadProcess_keepsName (boot_booted boots).kernelHeap (by decide) following loads stored with ⟨d, copy⟩
  refine ⟨booted, loading, process, boots, loads, stored, ?_⟩
  rw [copy]
  exact strncpy_not_holdsPrefix d (by decide) (by decide)

end Tasks
end LarvaOS
