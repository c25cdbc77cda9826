import LarvaOS.Task.ProcessTable

namespace LarvaOS
namespace Core

open Disk Fs Library Memory Tasks

/-!
# The current process

`proc::load_proc` takes the result of `load_process` for the number of the process,
and prints it.  But a load that goes through returns the result of its last step,
which is 0.  The number of the process is only in its record.

So the process of the first slot is reported as it should be, and no other one.
-/

/-- A line that `load_proc` prints, with the process that was just loaded. -/
structure Report where
  filename : List Byte
  pid : Int
  process : Word

/-- The members of `proc`, next to the kernel and to what was printed. -/
structure Proc where
  kernel : Kernel
  currentProcId : Int
  currentProc : Word
  reports : List Report

/-- Before the first load. -/
def Proc.initial (kernel : Kernel) : Proc := ⟨kernel, 0, 0#32, []⟩

/-- `proc::load_proc`.  The local structure of the load lies at `stat`. -/
def Proc.loadProc (proc : Proc) (stat : Word) (filename : List Byte) : Option Proc :=
  (loadProcess proc.kernel stat filename).map fun loading =>
    let currentProc := loading.process.getD proc.currentProc
    { kernel := loading.kernel
      currentProcId := loading.res
      currentProc := currentProc
      reports := if (0 : Int) ≤ loading.res then proc.reports ++ [⟨filename, loading.res, currentProc⟩] else proc.reports }

/-- One more load.  A load that does not return is the last one. -/
def loadStep (stat : Word) (state : Option Proc) (filename : List Byte) : Option Proc :=
  state.bind fun proc => proc.loadProc stat filename

/-! ## What the loads should keep -/

/-- The table is in order, the current process has the number that is recorded for it,
and every process is reported under a number of its own, which is that of its record. -/
structure Proc.InOrder (proc : Proc) : Prop where
  table : TableInOrder proc.kernel
  current : 0 ≤ proc.currentProcId -> proc.currentProc ≠ 0#32 ->
    proc.currentProcId = (proc.kernel.processRecords proc.currentProc).id.toNat
  reported : forall report, report ∈ proc.reports ->
    report.pid = (proc.kernel.processRecords report.process).id.toNat
  distinct : forall left right, left ∈ proc.reports -> right ∈ proc.reports -> left.process ≠ right.process ->
    left.pid ≠ right.pid

/-- A load that fails changes no slot. -/
def FailureKeepsSlots (stat : Word) (state : Option Proc) (filename : List Byte) : Prop :=
  forall proc, state = some proc -> forall loading, loadProcess proc.kernel stat filename = some loading ->
    loading.res < 0 -> loading.kernel.processes = proc.kernel.processes

/-- The name is a string in memory, and all requests of the load are served. -/
def Served (stat : Word) (state : Option Proc) (filename : List Byte) : Prop :=
  forall proc, state = some proc -> filename.length + 1 < 2 ^ 32 ∧
    forall loading, loadProcess proc.kernel stat filename = some loading ->
      loading.kernel.refused = proc.kernel.refused

/-- A load that finds an empty slot and can read its binary finds the first slot empty. -/
def LoadsFirst (stat : Word) (state : Option Proc) (filename : List Byte) : Prop :=
  forall proc, state = some proc -> processGetFreeSlot proc.kernel ≠ none -> ReadsBinary proc.kernel stat filename ->
    proc.kernel.processes 0 = 0#32

/-! ## One load -/

/-- The members while no process but the first was reported. -/
structure Proc.Tracked (proc : Proc) : Prop where
  held : exists live, TableHeld proc.kernel live
  current : 0 ≤ proc.currentProcId -> proc.currentProc ≠ 0#32 ->
    proc.currentProcId = 0 ∧ proc.currentProc = proc.kernel.processes 0 ∧ proc.kernel.processes 0 ≠ 0#32
  reported : forall report, report ∈ proc.reports ->
    report.pid = 0 ∧ report.process = proc.kernel.processes 0 ∧ proc.kernel.processes 0 ≠ 0#32

theorem Proc.Tracked.inOrder {proc : Proc} (tracked : proc.Tracked) : proc.InOrder := by
  rcases tracked.held with ⟨live, held⟩
  have first (taken : proc.kernel.processes 0 ≠ 0#32) :
      (proc.kernel.processRecords (proc.kernel.processes 0)).id.toNat = 0 := by
    rw [(held.slots 0 (by decide) taken).id]
    rfl
  refine ⟨held.inOrder, fun succeeded some => ?_, fun report member => ?_, fun left right leftMember rightMember => ?_⟩
  · rcases tracked.current succeeded some with ⟨zero, same, taken⟩
    rw [zero, same, first taken]
    rfl
  · rcases tracked.reported report member with ⟨zero, same, taken⟩
    rw [zero, same, first taken]
    rfl
  · intro different
    exact absurd ((tracked.reported left leftMember).2.1.trans (tracked.reported right rightMember).2.1.symm) different

/-- What a load does to the members. -/
theorem loadProc_some {proc after : Proc} {stat : Word} {filename : List Byte}
    (returns : proc.loadProc stat filename = some after) : exists loading,
      loadProcess proc.kernel stat filename = some loading ∧ after.kernel = loading.kernel ∧
        after.currentProcId = loading.res ∧ after.currentProc = loading.process.getD proc.currentProc ∧
        (loading.res < 0 -> after.reports = proc.reports) ∧
        (0 ≤ loading.res -> after.reports = proc.reports ++ [⟨filename, loading.res, after.currentProc⟩]) := by
  rcases Option.map_eq_some_iff.mp returns with ⟨loading, loads, rfl⟩
  exact ⟨loading, loads, rfl, rfl, rfl, fun failed => if_neg (Int.not_le.mpr failed), fun succeeded => if_pos succeeded⟩

/-- A load that fails, or that takes the first slot. -/
theorem Proc.Tracked.load {proc after : Proc} (tracked : proc.Tracked) {stat : Word} {filename : List Byte}
    (served : Served stat (some proc) filename) (first : LoadsFirst stat (some proc) filename)
    (returns : proc.loadProc stat filename = some after) : after.Tracked := by
  rcases tracked.held with ⟨live, held⟩
  rcases loadProc_some returns with ⟨loading, loads, kernel, id, current, failing, succeeding⟩
  rcases served proc rfl with ⟨small, unrefused⟩
  rcases loadProcess_outcome held.kernelHeap small loads (unrefused loading loads) with
    ⟨nothing, _⟩ | ⟨reads, slot, ready, process, task, free, complete⟩
  · have processes : after.kernel.processes = proc.kernel.processes := by
      rw [kernel]
      exact (congrArg Globals.processes nothing.globals).trans rfl
    refine ⟨⟨live, ?_⟩, fun succeeded => ?_, fun report member => ?_⟩
    · rw [kernel]
      exact held.keep nothing.keeps nothing.globals
    · rw [id] at succeeded
      exact absurd nothing.res (Int.not_lt.mpr succeeded)
    · rw [failing nothing.res] at member
      rw [processes]
      exact tracked.reported report member
  · have empty : proc.kernel.processes 0 = 0#32 := first proc rfl (free ▸ Option.some_ne_none slot) reads
    obtain rfl := processGetFreeSlot_first free empty
    have processes : after.kernel.processes 0 = process := by
      rw [kernel, complete.processes]
      exact Function.update_self _ _ _
    have notNull := complete.notNull held.kernelHeap.wellPlaced
    have currentProc : after.currentProc = process := by
      rw [current, complete.stored]
      rfl
    refine ⟨⟨_, kernel ▸ held.loaded complete⟩, fun _ _ => ?_, fun report member => ?_⟩
    · rw [id, processes, currentProc]
      exact ⟨complete.res, rfl, notNull⟩
    · rw [succeeding (Int.le_of_eq complete.res.symm)] at member
      rw [processes]
      rcases List.mem_append.mp member with earlier | isNew
      · exact absurd empty (tracked.reported report earlier).2.2
      · rw [List.mem_singleton.mp isNew]
        exact ⟨complete.res, currentProc, notNull⟩

/-- A load that takes another slot reports the number 0 for it. -/
theorem Proc.Tracked.notInOrder {proc after : Proc} (tracked : proc.Tracked) {stat : Word} {filename : List Byte}
    (served : Served stat (some proc) filename) (some : processGetFreeSlot proc.kernel ≠ none)
    (reads : ReadsBinary proc.kernel stat filename) (taken : proc.kernel.processes 0 ≠ 0#32)
    (returns : proc.loadProc stat filename = Option.some after) : ¬ after.InOrder := by
  rcases tracked.held with ⟨live, held⟩
  rcases loadProc_some returns with ⟨loading, loads, kernel, id, current, _, _⟩
  rcases served proc rfl with ⟨small, unrefused⟩
  rcases loadProcess_outcome held.kernelHeap small loads (unrefused loading loads) with
    ⟨_, unread⟩ | ⟨_, slot, ready, process, task, free, complete⟩
  · exact absurd reads (unread some)
  · rcases processGetFreeSlot_spec free with ⟨inside, empty⟩
    have currentProc : after.currentProc = process := by
      rw [current, complete.stored]
      rfl
    have number : (after.kernel.processRecords process).id = BitVec.ofNat 16 slot := by
      rw [kernel, complete.record]
      exact complete.id
    intro inOrder
    have agrees := inOrder.current (by rw [id, complete.res]) (by
      rw [currentProc]
      exact complete.notNull held.kernelHeap.wellPlaced)
    rw [currentProc, number, id, complete.res] at agrees
    have zero : slot = 0 := by
      rw [BitVec.toNat_ofNat] at agrees
      unfold MAX_PROCESSES at inside
      omega
    rw [zero] at empty
    exact taken empty

/-! ## The file of a volume, loaded again -/

/-- The name of the file of a hundred bytes. -/
abbrev fileOfVolume : List Byte := [forwardSlash, 0x41#8]

/-- The file is loaded, and all requests are served. -/
theorem loadProc_volume {count first : Nat} {proc : Proc} (volume : VolumeReady count first proc.kernel)
    (early : count + 1 < MAX_FILE_DESCRIPTORS) (fits : first + 1040 ≤ 25600)
    (some : processGetFreeSlot proc.kernel ≠ none) {stat : Word} (low : stat.toNat + 32 ≤ 0x01000000) :
    exists after, proc.loadProc stat fileOfVolume = Option.some after ∧
      VolumeReady (count + 1) (first + 1040) after.kernel ∧ Served stat (Option.some proc) fileOfVolume ∧
        ReadsBinary proc.kernel stat fileOfVolume := by
  rcases Option.ne_none_iff_exists'.mp some with ⟨slot, free⟩
  rcases loadProcess_volume volume early fits free low fun _ => rfl with
    ⟨loading, process, loads, succeeds, stored, last, unrefused, reads⟩
  refine ⟨_, congrArg (Option.map _) loads, last, ?_, reads⟩
  rintro other same
  obtain rfl := Option.some.inj same
  refine ⟨by decide, fun again loadsAgain => ?_⟩
  obtain rfl := Option.some.inj (loads.symm.trans loadsAgain)
  exact unrefused

/-- A load of the file from an empty table leaves the second slot empty. -/
theorem loadProc_first {proc after : Proc} (tracked : proc.Tracked) (empty : proc.kernel.processes = fun _ => 0#32)
    {stat : Word} (served : Served stat (some proc) fileOfVolume) (reads : ReadsBinary proc.kernel stat fileOfVolume)
    (returns : proc.loadProc stat fileOfVolume = some after) :
    after.kernel.processes 0 ≠ 0#32 ∧ processGetFreeSlot after.kernel ≠ none := by
  rcases tracked.held with ⟨live, held⟩
  rcases loadProc_some returns with ⟨loading, loads, kernel, _⟩
  rcases served proc rfl with ⟨small, unrefused⟩
  have free : processGetFreeSlot proc.kernel = some 0 := by
    unfold processGetFreeSlot
    rw [empty]
    rfl
  rcases loadProcess_outcome held.kernelHeap small loads (unrefused loading loads) with
    ⟨_, unread⟩ | ⟨_, slot, ready, process, task, taken, complete⟩
  · exact absurd reads (unread (free ▸ Option.some_ne_none 0))
  · obtain rfl := Option.some.inj (free.symm.trans taken)
    rw [kernel, complete.processes, Function.update_self]
    have second : Function.update (fun _ : Nat => 0#32) 0 process 1 = 0#32 := Function.update_of_ne Nat.one_ne_zero _ _
    refine ⟨complete.notNull held.kernelHeap.wellPlaced, fun full => ?_⟩
    unfold processGetFreeSlot at full
    rw [complete.processes, empty] at full
    exact List.find?_eq_none.mp full 1 (by decide) (decide_eq_true second)

/-! ## Every run of loads -/

/-- The members of a state that was reached are tracked. -/
def TrackedState (state : Option Proc) : Prop := forall proc, state = some proc -> proc.Tracked

theorem loadStep_some {stat : Word} {state : Option Proc} {filename : List Byte} {after : Proc}
    (step : loadStep stat state filename = some after) :
    exists proc, state = some proc ∧ proc.loadProc stat filename = some after := Option.bind_eq_some_iff.mp step

theorem TrackedState.step {stat : Word} {state : Option Proc} (tracked : TrackedState state) {filename : List Byte}
    (served : Served stat state filename) (first : LoadsFirst stat state filename) :
    TrackedState (loadStep stat state filename) := by
  intro after step
  rcases loadStep_some step with ⟨proc, rfl, returns⟩
  exact (tracked proc rfl).load served first returns

theorem TrackedState.broken {stat : Word} {state : Option Proc} (tracked : TrackedState state) {filename : List Byte}
    (served : Served stat state filename) (later : ¬ LoadsFirst stat state filename) :
    ¬ forall after, loadStep stat state filename = some after -> after.InOrder := by
  intro inOrder
  refine later ?_
  rintro proc rfl some reads
  by_contra taken
  rcases Option.ne_none_iff_exists'.mp some with ⟨slot, free⟩
  rcases reads.returns free with ⟨loading, loads⟩
  have returns : proc.loadProc stat filename = Option.some _ := congrArg (Option.map _) loads
  exact (tracked proc rfl).notInOrder served some reads taken returns (inOrder _ returns)

/-- The table of a state that was reached is in order. -/
def HeldState (state : Option Proc) : Prop := forall proc, state = some proc -> exists live, TableHeld proc.kernel live

theorem HeldState.step {stat : Word} {state : Option Proc} (holds : HeldState state) {filename : List Byte}
    (served : Served stat state filename) : HeldState (loadStep stat state filename) := by
  intro after step
  rcases loadStep_some step with ⟨proc, rfl, returns⟩
  rcases holds proc rfl with ⟨live, held⟩
  rcases loadProc_some returns with ⟨loading, loads, kernel, _⟩
  rcases served proc rfl with ⟨small, unrefused⟩
  rw [kernel]
  rcases loadProcess_outcome held.kernelHeap small loads (unrefused loading loads) with
    ⟨nothing, _⟩ | ⟨_, slot, ready, process, task, _, complete⟩
  · exact ⟨live, held.keep nothing.keeps nothing.globals⟩
  · exact ⟨_, held.loaded complete⟩

theorem HeldState.failureKeepsSlots {stat : Word} {state : Option Proc} (holds : HeldState state)
    {filename : List Byte} (served : Served stat state filename) : FailureKeepsSlots stat state filename := by
  rintro proc rfl loading loads failed
  rcases holds proc rfl with ⟨live, held⟩
  rcases served proc rfl with ⟨small, unrefused⟩
  rcases loadProcess_outcome held.kernelHeap small loads (unrefused loading loads) with
    ⟨nothing, _⟩ | ⟨_, slot, ready, process, task, _, complete⟩
  · exact (congrArg Globals.processes nothing.globals).trans rfl
  · exact absurd failed (Int.not_lt.mpr (Int.le_of_eq complete.res.symm))

theorem Proc.initial_tracked {booted : Kernel} (held : TableHeld booted []) : (Proc.initial booted).Tracked :=
  ⟨⟨[], held⟩, fun _ some => absurd rfl some, fun _ member => absurd member List.not_mem_nil⟩

section Runs

variable {store : Store} {sectors : Int -> Nat -> Byte} {stray : Int -> Byte} {entries : Int -> Byte} {booted : Kernel}
  (boots : boot (Kernel.loaded store sectors stray) entries = some booted) (stat : Word) (filenames : List (List Byte))
  (legal : Run.Everywhere (loadStep stat) (Served stat) (some (Proc.initial booted)) filenames)
include boots

theorem boot_held : TableHeld booted [] :=
  TableHeld.empty (boot_booted boots).kernelHeap (boot_booted boots).processes (boot_booted boots).headTask

include legal

/-- In every run of loads whose requests are served the table stays in order, and a load
that fails changes no slot. -/
theorem loads_keepTable :
    Run.Throughout (loadStep stat) (fun state => forall proc, state = some proc -> TableInOrder proc.kernel)
        (some (Proc.initial booted)) filenames ∧
      Run.Everywhere (loadStep stat) (FailureKeepsSlots stat) (some (Proc.initial booted)) filenames := by
  have start : HeldState (some (Proc.initial booted)) := by
    intro proc here
    obtain rfl := Option.some.inj here
    exact ⟨[], boot_held boots⟩
  constructor
  · refine Run.throughout_of_invariant (fun state holds proc here => ?_) (fun _ _ holds served => holds.step served)
      _ filenames start legal
    rcases holds proc here with ⟨live, held⟩
    exact held.inOrder
  · exact Run.everywhere_of_invariant (fun _ _ holds served => holds.failureKeepsSlots served)
      (fun _ _ holds served => holds.step served) _ filenames start legal

/-- The numbers that are recorded and printed are those of the processes exactly when
every load that can go through finds the first slot empty. -/
theorem reportsIds_iff :
    (Run.Throughout (loadStep stat) (fun state => forall proc, state = some proc -> proc.InOrder)
        (some (Proc.initial booted)) filenames ∧
      Run.Everywhere (loadStep stat) (FailureKeepsSlots stat) (some (Proc.initial booted)) filenames) ↔
    Run.Everywhere (loadStep stat) (LoadsFirst stat) (some (Proc.initial booted)) filenames := by
  have start : TrackedState (some (Proc.initial booted)) := by
    intro proc here
    obtain rfl := Option.some.inj here
    exact Proc.initial_tracked (boot_held boots)
  have slots := (loads_keepTable boots stat filenames legal).2
  have ids := Run.throughout_iff (fun state tracked proc here => (tracked proc here).inOrder)
    (fun _ _ tracked served first => tracked.step served first)
    (fun _ _ tracked served later inOrder => tracked.broken served later inOrder) _ filenames start legal
  exact ⟨fun both => ids.mp both.1, fun first => ⟨ids.mpr first, slots⟩⟩

end Runs

/-- The file of a hundred bytes is loaded, and then a name without a root, for which the
load fails. -/
theorem reportsIds_iff_failing : exists booted, boot fileVolume (fun _ => 0#8) = some booted ∧
    Run.Everywhere (loadStep 0x1FF000#32) (LoadsFirst 0x1FF000#32) (some (Proc.initial booted)) [fileOfVolume, [0x41#8]] ∧
    Run.Throughout (loadStep 0x1FF000#32) (fun state => forall proc, state = some proc -> proc.InOrder)
        (some (Proc.initial booted)) [fileOfVolume, [0x41#8]] ∧
      Run.Everywhere (loadStep 0x1FF000#32) (FailureKeepsSlots 0x1FF000#32) (some (Proc.initial booted))
        [fileOfVolume, [0x41#8]] := by
  rcases fileVolume_booted with ⟨booted, boots, times⟩
  have some : processGetFreeSlot booted ≠ none := boot_freeSlot boots ▸ Option.some_ne_none 0
  rcases @loadProc_volume 0 1543 (Proc.initial booted) times.ready (by decide) (by decide) some 0x1FF000#32 (by decide) with
    ⟨after, returns, volume, served, reads⟩
  have empty := (boot_booted boots).processes
  have first : LoadsFirst 0x1FF000#32 (Option.some (Proc.initial booted)) fileOfVolume := by
    intro proc here _ _
    obtain rfl := Option.some.inj here
    exact congrFun empty 0
  have free := (loadProc_first (Proc.initial_tracked (boot_held boots)) empty served reads returns).2
  rcases Option.ne_none_iff_exists'.mp free with ⟨slot, free⟩
  rcases volume.room.kzalloc sizeofProcess (by decide) (by decide : 2583 + 2 ≤ 25600) with ⟨notNull, _⟩
  rcases loadProcess_notPath volume.room.kernelHeap free notNull (by decide : pathFormatIsValid [0x41#8] = false)
    0x1FF000#32 with ⟨failing, fails, unrefused, unread⟩
  have failingServed : Served 0x1FF000#32 (Option.some after) [0x41#8] := by
    rintro proc here
    obtain rfl := Option.some.inj here
    refine ⟨by decide, fun loading loads => ?_⟩
    obtain rfl := Option.some.inj (fails.symm.trans loads)
    exact unrefused
  have failingFirst : LoadsFirst 0x1FF000#32 (Option.some after) [0x41#8] := by
    intro proc here _ readsAgain
    obtain rfl := Option.some.inj here
    exact absurd readsAgain unread
  have step : loadStep 0x1FF000#32 (Option.some (Proc.initial booted)) fileOfVolume = Option.some after := returns
  have legal : Run.Everywhere (loadStep 0x1FF000#32) (Served 0x1FF000#32) (Option.some (Proc.initial booted))
      [fileOfVolume, [0x41#8]] := by
    refine ⟨served, ?_, trivial⟩
    rw [step]
    exact failingServed
  have condition : Run.Everywhere (loadStep 0x1FF000#32) (LoadsFirst 0x1FF000#32) (Option.some (Proc.initial booted))
      [fileOfVolume, [0x41#8]] := by
    refine ⟨first, ?_, trivial⟩
    rw [step]
    exact failingFirst
  exact ⟨booted, boots, condition, (reportsIds_iff boots 0x1FF000#32 _ legal).mpr condition⟩

/-- The file, loaded twice.  For the second process the number of the first is printed again. -/
theorem loadedTwice_reportsZero : exists booted, boot fileVolume (fun _ => 0#8) = some booted ∧
    Run.Everywhere (loadStep 0x1FF000#32) (Served 0x1FF000#32) (some (Proc.initial booted)) [fileOfVolume, fileOfVolume] ∧
    ¬ Run.Throughout (loadStep 0x1FF000#32) (fun state => forall proc, state = some proc -> proc.InOrder)
      (some (Proc.initial booted)) [fileOfVolume, fileOfVolume] := by
  rcases fileVolume_booted with ⟨booted, boots, times⟩
  have start := Proc.initial_tracked (boot_held boots)
  have some : processGetFreeSlot booted ≠ none := boot_freeSlot boots ▸ Option.some_ne_none 0
  rcases @loadProc_volume 0 1543 (Proc.initial booted) times.ready (by decide) (by decide) some 0x1FF000#32 (by decide) with
    ⟨after, returns, volume, served, reads⟩
  have empty := (boot_booted boots).processes
  rcases loadProc_first start empty served reads returns with ⟨taken, free⟩
  have tracked := start.load served (fun proc here _ _ => Option.some.inj here ▸ congrFun empty 0) returns
  rcases @loadProc_volume 1 2583 after volume (by decide) (by decide) free 0x1FF000#32 (by decide) with
    ⟨last, again, _, servedAgain, readsAgain⟩
  have step : loadStep 0x1FF000#32 (Option.some (Proc.initial booted)) fileOfVolume = Option.some after := returns
  refine ⟨booted, boots, ⟨served, ?_, trivial⟩, fun holds => ?_⟩
  · rw [step]
    exact servedAgain
  · have inOrder := holds.2.2
    rw [step] at inOrder
    exact tracked.notInOrder servedAgain free readsAgain taken again (inOrder last again)

end Core
end LarvaOS
