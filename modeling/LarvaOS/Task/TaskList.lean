import LarvaOS.Library.Chain
import LarvaOS.Library.Run
import LarvaOS.Task.TaskSpec

namespace LarvaOS
namespace Tasks

open Library Memory Chain

/-!
# The task list over whole runs

The ledger is the list of live tasks in the order of their creation.  The law
of the list says that the links and the global pointers describe exactly this
ledger.

`remove_task_from_linked_list` never writes the back link of the task after
the removed one.  That link is then left pointing to a released task, unless
there is no such task.  Hence the law holds throughout a run exactly when each
released task is, at that moment, the tail.
-/

inductive TaskCall where
  | makeNewTask (proc : Word)
  | releaseTask (task : Word)

/-- The kernel with the ledger of live tasks. -/
structure TaskRun where
  kernel : Kernel
  live : List Word

/-- `get_next_task`, asked of a given task. -/
def nextOf (kernel : Kernel) (task : Word) : Word :=
  getNextTask { kernel with currentTask := task }

/-- The list after a new task is linked at its tail. -/
theorem appendTask_leads {ready : Kernel} {live : List Word} {new : Word}
    (forward : Leads (fun task => (ready.tasks task).next) ready.headTask live 0#32) (distinct : live.Nodup)
    (tail : forall before last, live = before ++ [last] -> ready.tailTask = last) (notNull : 0#32 ∉ live)
    (notLive : new ∉ live) (link : (ready.tasks new).next = 0#32) :
    Leads (fun task => ((appendTask ready new).tasks task).next) (appendTask ready new).headTask (live ++ [new]) 0#32 ∧
      (appendTask ready new).tailTask = new := by
  rcases List.eq_nil_or_concat' live with none | ⟨before, last, same⟩
  · subst none
    rw [appendTask_first forward]
    exact ⟨⟨rfl, link⟩, rfl⟩
  · have isTail := tail before last same
    have lastMember : last ∈ live := same ▸ List.mem_append_right _ (List.mem_singleton_self _)
    have different : ready.tailTask ≠ new := fun isNew => notLive (isNew ▸ isTail ▸ lastMember)
    have some : ready.headTask ≠ 0#32 := by
      intro null
      cases live with
      | nil => exact List.not_mem_nil lastMember
      | cons first rest =>
          have isHead : ready.headTask = first := forward.1
          exact notNull (null ▸ isHead ▸ List.mem_cons_self)
    rcases appendTask_later some different with ⟨next', _, head', tail', _⟩
    refine ⟨leads_concat.mpr ⟨?_, ?_⟩, tail'⟩
    · rw [head']
      rw [same] at forward distinct ⊢
      refine leads_concat.mpr ⟨(leads_concat.mp forward).1.congr fun node member => ?_, ?_⟩
      · have notLast : node ≠ ready.tailTask := fun isLast =>
          (List.nodup_append.mp distinct).2.2 node member last (List.mem_singleton_self _) (isLast.trans isTail)
        rw [next', if_neg notLast]
      · rw [next', if_pos isTail.symm]
    · rw [next', if_neg (Ne.symm different)]
      exact link

namespace TaskRun

def step (run : TaskRun) : TaskCall -> TaskRun
  | .makeNewTask proc =>
      let made := Tasks.makeNewTask run.kernel proc
      { kernel := made.2
        live := if isErr made.1 then run.live else run.live ++ [made.1] }
  | .releaseTask task =>
      { kernel := Tasks.releaseTask run.kernel task
        live := run.live.filter fun other => other ≠ task }

/-- The allocations of a new task succeed, and only live tasks are released. -/
def Allowed (run : TaskRun) : TaskCall -> Prop
  | .makeNewTask proc => isErr (Tasks.makeNewTask run.kernel proc).1 = false
  | .releaseTask task => task ∈ run.live

/-- The released task is the most recently created one. -/
def ReleasesTail (run : TaskRun) : TaskCall -> Prop
  | .makeNewTask _ => True
  | .releaseTask task => run.live.getLast? = some task

def next (run : TaskRun) (task : Word) : Word := (run.kernel.tasks task).next

def prev (run : TaskRun) (task : Word) : Word := (run.kernel.tasks task).prev

/-- The list holds the live tasks in the order of their creation, and going
round it from any live task visits each of them once. -/
structure InCreationOrder (run : TaskRun) : Prop where
  forward : Leads run.next run.kernel.headTask run.live 0#32
  backward : Leads run.prev run.kernel.tailTask run.live.reverse 0#32
  noCurrent : run.kernel.currentTask = 0#32 ↔ run.live = []
  current : run.live ≠ [] -> run.kernel.currentTask ∈ run.live
  links : forall task, task ∈ run.live ->
    (run.next task = 0#32 ∨ run.next task ∈ run.live) ∧ (run.prev task = 0#32 ∨ run.prev task ∈ run.live)
  cycle : forall task, task ∈ run.live ->
    (List.range run.live.length).map (fun steps => (nextOf run.kernel)^[steps] task) ~r run.live ∧
      (nextOf run.kernel)^[run.live.length] task = task

/-! ## The invariant -/

structure Invariant (run : TaskRun) : Prop where
  kernelHeap : run.kernel.heap.IsKernelHeap
  owned : exists blocks : Word -> TaskBlocks, (forall task, task ∈ run.live -> TaskAt run.kernel task (blocks task)) ∧
    forall left right, left ∈ run.live -> right ∈ run.live -> left ≠ right ->
      forall block, (blocks left).Has block -> ¬ (blocks right).Has block
  distinct : run.live.Nodup
  forward : Leads run.next run.kernel.headTask run.live 0#32
  backward : Leads run.prev run.kernel.tailTask run.live.reverse 0#32
  current : (run.live = [] -> run.kernel.currentTask = 0#32) ∧ (run.live ≠ [] -> run.kernel.currentTask ∈ run.live)

namespace Invariant

variable {run : TaskRun}

theorem null_not_live (valid : Invariant run) : 0#32 ∉ run.live := by
  intro member
  rcases valid.owned with ⟨blocks, at_, _⟩
  exact (at_ _ member).ne_null valid.kernelHeap.wellPlaced rfl

theorem inCreationOrder (valid : Invariant run) : InCreationOrder run where
  forward := valid.forward
  backward := valid.backward
  noCurrent := by
    refine ⟨fun none => ?_, valid.current.1⟩
    by_contra some
    exact valid.null_not_live (none ▸ valid.current.2 some)
  current := valid.current.2
  links := by
    intro task member
    constructor
    · exact leads_next_or valid.forward member
    · exact (leads_next_or valid.backward (List.mem_reverse.mpr member)).imp_right List.mem_reverse.mp
  cycle := fun task member => advance_visits_all valid.forward valid.null_not_live member

/-- The live tasks end with the tail. -/
theorem tail_eq (valid : Invariant run) {before : List Word} {last : Word} (live : run.live = before ++ [last]) :
    run.kernel.tailTask = last ∧ Leads run.prev (run.prev last) before.reverse 0#32 := by
  have backward := valid.backward
  rw [live, List.reverse_append] at backward
  exact backward

theorem head_null (valid : Invariant run) : run.kernel.headTask = 0#32 ↔ run.live = [] := by
  have forward := valid.forward
  cases live : run.live with
  | nil =>
      rw [live] at forward
      exact ⟨fun _ => rfl, fun _ => forward⟩
  | cons first rest =>
      rw [live] at forward
      refine ⟨fun null => ?_, fun impossible => absurd impossible (List.cons_ne_nil _ _)⟩
      have member : first ∈ run.live := live ▸ List.mem_cons_self
      exact absurd (forward.1.symm.trans null ▸ member) valid.null_not_live

end Invariant

/-! ## One step -/

/-- Ownership after a new task was linked. -/
theorem Invariant.owned_append {run : TaskRun} (valid : Invariant run) {ready : Kernel} {task : Nat}
    {space : SpaceBlocks} {proc : Word} (made : TaskReady run.kernel ready task space proc) :
    run.kernel.heap.addressOf task ∉ run.live ∧
    exists blocks : Word -> TaskBlocks,
      (forall live, live ∈ run.live ++ [run.kernel.heap.addressOf task] ->
        TaskAt (appendTask ready (run.kernel.heap.addressOf task)) live (blocks live)) ∧
      forall left right, left ∈ run.live ++ [run.kernel.heap.addressOf task] ->
        right ∈ run.live ++ [run.kernel.heap.addressOf task] -> left ≠ right ->
        forall block, (blocks left).Has block -> ¬ (blocks right).Has block := by
  have placed := valid.kernelHeap.wellPlaced
  rcases valid.owned with ⟨blocks, at_, separate⟩
  rcases appendTask_memory ready (run.kernel.heap.addressOf task) with ⟨heap, words, record⟩
  have appended {pointer : Word} {footprint : TaskBlocks} (here : TaskAt ready pointer footprint) :
      TaskAt (appendTask ready (run.kernel.heap.addressOf task)) pointer footprint :=
    here.transport (heap ▸ Heap.SamePool.refl _) (fun block has => heap ▸ here.owned has)
      (fun _ _ _ _ => congrFun words _) (record pointer)
  -- The new blocks were free, so no old task has one of them.
  have newFresh {block : Nat} (has : (TaskBlocks.mk task space).Has block) :
      FreshExtent (fun _ => True) run.kernel (Extent.single block) := by
    rcases has with same | has
    · exact same ▸ made.taskFresh
    · exact (made.spaceFresh block has).1
  have oldNew {live : Word} (member : live ∈ run.live) {block : Nat} (old : (blocks live).Has block)
      (new : (TaskBlocks.mk task space).Has block) : False :=
    Extent.not_apart_self _ (newFresh new _ trivial ((at_ live member).owned old))
  have notLive : run.kernel.heap.addressOf task ∉ run.live := by
    intro member
    have same := (at_ _ member).address
    have inside : task < run.kernel.heap.table.total.toNat := by
      have within := made.taskOwned.address_inside
      rwa [made.keeps.pool.total] at within
    have equal := placed.addressOf_injective inside (at_ _ member).taskOwned.address_inside same
    exact oldNew member (Or.inl rfl) (Or.inl equal.symm)
  refine ⟨notLive, Function.update blocks (run.kernel.heap.addressOf task) ⟨task, space⟩, ?_, ?_⟩
  · intro live member
    rcases List.mem_append.mp member with old | new
    · have different : live ≠ run.kernel.heap.addressOf task := fun same => notLive (same ▸ old)
      rw [Function.update_of_ne different]
      exact appended (made.old placed (at_ live old)).1
    · rw [List.mem_singleton.mp new, Function.update_self]
      exact appended made.new
  · intro left right leftMember rightMember different block leftHas rightHas
    rcases List.mem_append.mp leftMember with leftOld | leftNew <;>
      rcases List.mem_append.mp rightMember with rightOld | rightNew
    · have leftDifferent : left ≠ run.kernel.heap.addressOf task := fun same => notLive (same ▸ leftOld)
      have rightDifferent : right ≠ run.kernel.heap.addressOf task := fun same => notLive (same ▸ rightOld)
      rw [Function.update_of_ne leftDifferent] at leftHas
      rw [Function.update_of_ne rightDifferent] at rightHas
      exact separate left right leftOld rightOld different block leftHas rightHas
    · have leftDifferent : left ≠ run.kernel.heap.addressOf task := fun same => notLive (same ▸ leftOld)
      rw [Function.update_of_ne leftDifferent] at leftHas
      rw [List.mem_singleton.mp rightNew, Function.update_self] at rightHas
      exact oldNew leftOld leftHas rightHas
    · have rightDifferent : right ≠ run.kernel.heap.addressOf task := fun same => notLive (same ▸ rightOld)
      rw [Function.update_of_ne rightDifferent] at rightHas
      rw [List.mem_singleton.mp leftNew, Function.update_self] at leftHas
      exact oldNew rightOld rightHas leftHas
    · exact different ((List.mem_singleton.mp leftNew).trans (List.mem_singleton.mp rightNew).symm)

theorem Invariant.step_make {run : TaskRun} (valid : Invariant run) (proc : Word)
    (allowed : run.Allowed (.makeNewTask proc)) : Invariant (run.step (.makeNewTask proc)) := by
  have placed := valid.kernelHeap.wellPlaced
  have succeeded : isErr (Tasks.makeNewTask run.kernel proc).1 = false := allowed
  rcases makeNewTask_spec placed proc succeeded with ⟨task, space, ready, made, result⟩
  have run' : run.step (.makeNewTask proc) =
      { kernel := appendTask ready (run.kernel.heap.addressOf task)
        live := run.live ++ [run.kernel.heap.addressOf task] } := by
    rw [result] at succeeded
    simp only [step, result, succeeded, Bool.false_eq_true, if_false]
  have headTask : ready.headTask = run.kernel.headTask := congrArg Globals.headTask made.globals
  have tailTask : ready.tailTask = run.kernel.tailTask := congrArg Globals.tailTask made.globals
  have currentTask : ready.currentTask = run.kernel.currentTask := congrArg Globals.currentTask made.globals
  rcases valid.owned_append made with ⟨notLive, owned⟩
  rcases valid.owned with ⟨blocks, at_, _⟩
  have record {live : Word} (member : live ∈ run.live) : ready.tasks live = run.kernel.tasks live :=
    (made.old placed (at_ live member)).2
  have heap := (appendTask_memory ready (run.kernel.heap.addressOf task)).1
  have newRecord := made.record
  rw [run']
  generalize run.kernel.heap.addressOf task = new at *
  have kernelHeap : (appendTask ready new).heap.IsKernelHeap := heap ▸ valid.kernelHeap.samePool made.keeps.pool
  have distinct : (run.live ++ [new]).Nodup := by
    refine List.nodup_append.mpr ⟨valid.distinct, List.nodup_singleton _, ?_⟩
    rintro old member _ isNew rfl
    exact notLive (List.mem_singleton.mp isNew ▸ member)
  have link : (ready.tasks new).next = 0#32 := congrArg Task.next newRecord
  have readyForward : Leads (fun task => (ready.tasks task).next) ready.headTask run.live 0#32 := by
    rw [headTask]
    exact valid.forward.congr fun node member => congrArg Task.next (record member)
  have forward := (appendTask_leads readyForward valid.distinct
    (fun _ _ live => tailTask.trans (valid.tail_eq live).1) valid.null_not_live notLive link).1
  by_cases first : run.live = []
  · have none : ready.headTask = 0#32 := headTask.trans (valid.head_null.mpr first)
    have back : (ready.tasks new).prev = 0#32 := congrArg Task.prev newRecord
    rw [first, List.nil_append] at owned distinct forward ⊢
    rw [appendTask_first none] at owned kernelHeap forward ⊢
    exact
      { kernelHeap := kernelHeap
        owned := owned
        distinct := distinct
        forward := forward
        backward := ⟨rfl, back⟩
        current := ⟨fun impossible => absurd impossible (List.cons_ne_nil _ _), fun _ => List.mem_singleton_self _⟩ }
  · obtain ⟨before, last, live⟩ : exists before last, run.live = before ++ [last] :=
      ⟨_, _, (List.dropLast_append_getLast first).symm⟩
    have tail := valid.tail_eq live
    have lastMember : last ∈ run.live := live ▸ List.mem_append_right _ (List.mem_singleton_self _)
    have some : ready.headTask ≠ 0#32 := fun none => first (valid.head_null.mp (headTask.symm.trans none))
    have isTail : ready.tailTask = last := tailTask.trans tail.1
    have different : ready.tailTask ≠ new := fun same => notLive (same ▸ isTail ▸ lastMember)
    rcases appendTask_later some different with ⟨_, prev', _, tail', current'⟩
    exact
      { kernelHeap := kernelHeap
        owned := owned
        distinct := distinct
        forward := forward
        backward := by
          rw [List.reverse_append]
          refine ⟨tail', ?_⟩
          change Leads _ ((appendTask ready new).tasks new).prev run.live.reverse 0#32
          rw [prev', if_pos rfl, tailTask]
          refine valid.backward.congr fun node member => ?_
          have member' := List.mem_reverse.mp member
          have old : node ≠ new := fun same => notLive (same ▸ member')
          change ((appendTask ready new).tasks node).prev = (run.kernel.tasks node).prev
          rw [prev', if_neg old, record member']
        current := by
          refine ⟨fun impossible => absurd impossible (by simp), fun _ => ?_⟩
          change (appendTask ready new).currentTask ∈ run.live ++ [new]
          rw [current', currentTask]
          exact List.mem_append_left _ (valid.current.2 first) }

/-- The kernel after the release of a live task. -/
theorem Invariant.released {run : TaskRun} (valid : Invariant run) {task : Word} (member : task ∈ run.live) :
    task ≠ 0#32 ∧ exists entries',
      Tasks.releaseTask run.kernel task =
        (removeTaskFromLinkedList run.kernel task).withHeap (run.kernel.heap.withEntries entries') ∧
      exists blocks : Word -> TaskBlocks, forall other, other ∈ run.live -> other ≠ task ->
        TaskAt ((removeTaskFromLinkedList run.kernel task).withHeap (run.kernel.heap.withEntries entries'))
          other (blocks other) ∧
        forall right, right ∈ run.live -> right ≠ task -> other ≠ right ->
          forall block, (blocks other).Has block -> ¬ (blocks right).Has block := by
  rcases valid.owned with ⟨blocks, at_, separate⟩
  have notNull := (at_ task member).ne_null valid.kernelHeap.wellPlaced
  rcases releaseTask_spec valid.kernelHeap (at_ task member) with ⟨entries', result, cleared⟩
  refine ⟨notNull, entries', result, blocks, fun other otherMember different => ⟨?_, ?_⟩⟩
  · refine (at_ other otherMember).transport ⟨rfl, rfl⟩ (fun block has => ?_) (fun _ _ _ _ => ?_) ?_
    · refine cleared.owns ((at_ other otherMember).owned has) fun gone isGone covered => ?_
      have same : gone = block := Extent.covers_single.mp covered
      exact separate other task otherMember member different block has (same ▸ isGone)
    · exact congrFun (removeTask_words run.kernel task) _
    · exact (removeTask_task run.kernel task notNull other).2
  · exact fun right rightMember _ => separate other right otherMember rightMember

/-- In a duplicate-free list whose last element is removed, the others remain. -/
theorem filter_last {before : List Word} {last : Word} (distinct : (before ++ [last]).Nodup) :
    (before ++ [last]).filter (fun other => other ≠ last) = before := by
  have parts := List.nodup_append.mp distinct
  rw [List.filter_append, List.filter_eq_self.mpr]
  · simp
  · intro other member
    exact decide_eq_true fun same => parts.2.2 other member last (List.mem_singleton_self _) same

theorem Invariant.step_release {run : TaskRun} (valid : Invariant run) (task : Word)
    (isTail : run.ReleasesTail (.releaseTask task)) : Invariant (run.step (.releaseTask task)) := by
  obtain ⟨before, live⟩ : exists before, run.live = before ++ [task] := List.getLast?_eq_some_iff.mp isTail
  have member : task ∈ run.live := live ▸ List.mem_append_right _ (List.mem_singleton_self _)
  rcases valid.released member with ⟨notNull, entries', result, blocks, at_⟩
  have distinct := valid.distinct
  rw [live] at distinct
  have run' : run.step (.releaseTask task) =
      { kernel := (removeTaskFromLinkedList run.kernel task).withHeap (run.kernel.heap.withEntries entries')
        live := before } := by
    simp only [step, result, live]
    rw [filter_last distinct]
  have notBefore : task ∉ before := fun again =>
    (List.nodup_append.mp distinct).2.2 task again task (List.mem_singleton_self _) rfl
  have live' {other : Word} (kept : other ∈ before) : other ∈ run.live ∧ other ≠ task :=
    ⟨live ▸ List.mem_append_left _ kept, fun same => notBefore (same ▸ kept)⟩
  have tail := valid.tail_eq live
  have forward := valid.forward
  rw [live] at forward
  have lastLink : (run.kernel.tasks task).next = 0#32 := (leads_concat.mp forward).2
  have toTask := (leads_concat.mp forward).1
  rcases removeTask_pointers run.kernel task notNull with ⟨head', tail', current'⟩
  have next' := removeTask_next run.kernel task notNull
  have prev' (other : Word) := (removeTask_task run.kernel task notNull other).1
  rw [if_pos tail.1.symm] at tail'
  rw [lastLink] at head' current' next'
  rw [if_pos rfl] at current'
  rw [run']
  generalize removeTaskFromLinkedList run.kernel task = removed at *
  -- The previous task becomes the last one, and its link becomes null.
  have forward' : Leads (fun other => (removed.tasks other).next) removed.headTask before 0#32 := by
    rcases List.eq_nil_or_concat' before with none | ⟨earlier, last, same⟩
    · subst none
      change removed.headTask = 0#32
      rw [head', if_pos (show task = run.kernel.headTask from toTask.symm)]
    · subst same
      have lastIn : last ∈ earlier ++ [last] := List.mem_append_right _ (List.mem_singleton_self _)
      have back := tail.2
      rw [List.reverse_append] at back
      have isPrev : run.prev task = last := back.1
      have lastNotNull : last ≠ 0#32 := fun null => valid.null_not_live (null ▸ (live' lastIn).1)
      have headKept : task ≠ run.kernel.headTask := by
        intro same
        cases earlier with
        | nil =>
            have isHead : run.kernel.headTask = last := toTask.1
            exact (live' lastIn).2 (isHead.symm.trans same.symm)
        | cons first rest =>
            have isHead : run.kernel.headTask = first := toTask.1
            have kept : first ∈ first :: rest ++ [last] := List.mem_cons_self
            exact (live' kept).2 (isHead.symm.trans same.symm)
      rw [head', if_neg headKept]
      have distinctBefore := (List.nodup_append.mp distinct).1
      refine leads_concat.mpr ⟨(leads_concat.mp toTask).1.congr fun node nodeIn => ?_, ?_⟩
      · have notLast : node ≠ last := fun same =>
          (List.nodup_append.mp distinctBefore).2.2 node nodeIn last (List.mem_singleton_self _) same
        have notPrev : ¬ (node = (run.kernel.tasks task).prev ∧ node ≠ 0#32) := fun both =>
          notLast (both.1.trans isPrev)
        change (removed.tasks node).next = (run.kernel.tasks node).next
        rw [next', if_neg notPrev]
      · rw [next', if_pos ⟨isPrev.symm, lastNotNull⟩]
  exact
    { kernelHeap := valid.kernelHeap.samePool ⟨rfl, rfl⟩
      owned := ⟨blocks, fun other kept => (at_ other (live' kept).1 (live' kept).2).1,
        fun left right leftKept rightKept =>
          (at_ left (live' leftKept).1 (live' leftKept).2).2 right (live' rightKept).1 (live' rightKept).2⟩
      distinct := (List.nodup_append.mp distinct).1
      forward := forward'
      backward := by
        change Leads _ removed.tailTask before.reverse 0#32
        rw [tail']
        exact tail.2.congr fun node _ => prev' node
      current := by
        change (before = [] -> removed.currentTask = 0#32) ∧ (before ≠ [] -> removed.currentTask ∈ before)
        have headIn : before ≠ [] -> removed.headTask ∈ before := by
          intro some
          cases before with
          | nil => exact absurd rfl some
          | cons first rest =>
              have isHead : removed.headTask = first := forward'.1
              exact isHead ▸ List.mem_cons_self
        have headNull : before = [] -> removed.headTask = 0#32 := by
          rintro rfl
          exact forward'
        have some : run.live ≠ [] := fun none => by simp [none] at member
        have wasLive := valid.current.2 some
        rw [live] at wasLive
        rw [current']
        by_cases isCurrent : task = run.kernel.currentTask
        · rw [if_pos isCurrent]
          exact ⟨headNull, headIn⟩
        · rw [if_neg isCurrent]
          have inBefore : run.kernel.currentTask ∈ before := by
            rcases List.mem_append.mp wasLive with inBefore | isTask
            · exact inBefore
            · exact absurd (List.mem_singleton.mp isTask).symm isCurrent
          exact ⟨fun none => absurd (none ▸ inBefore) List.not_mem_nil, fun _ => inBefore⟩ }

/-- A task released from the head or the middle of the list is still linked to
by the task after it. -/
theorem Invariant.broken {run : TaskRun} (valid : Invariant run) (call : TaskCall) (allowed : run.Allowed call)
    (notTail : ¬ run.ReleasesTail call) : ¬ InCreationOrder (run.step call) := by
  cases call with
  | makeNewTask proc => exact absurd trivial notTail
  | releaseTask task =>
      have member : task ∈ run.live := allowed
      obtain ⟨before, after, live⟩ := List.append_of_mem member
      cases after with
      | nil => exact absurd (List.getLast?_eq_some_iff.mpr ⟨before, live⟩) notTail
      | cons following rest =>
          have backward := valid.backward
          rw [live, List.reverse_append, List.reverse_cons, List.reverse_cons, List.append_assoc,
            List.append_assoc] at backward
          have back : run.prev following = task := Leads.link_eq backward
          rcases valid.released member with ⟨notNull, entries', result, _⟩
          have distinct := valid.distinct
          rw [live] at distinct
          have different : following ≠ task := by
            intro same
            have tailDistinct := (List.nodup_append.mp distinct).2.1
            exact (List.nodup_cons.mp tailDistinct).1 (same ▸ List.mem_cons_self)
          have stays : following ∈ run.live.filter fun other => other ≠ task := by
            refine List.mem_filter.mpr ⟨?_, decide_eq_true different⟩
            rw [live]
            simp
          intro law
          have link : (run.step (.releaseTask task)).prev following = task := by
            change ((Tasks.releaseTask run.kernel task).tasks following).prev = task
            rw [result]
            exact (removeTask_task run.kernel task notNull following).1.trans back
          rcases (law.links following stays).2 with null | stillLive
          · exact notNull (link.symm.trans null)
          · rw [link] at stillLive
            exact of_decide_eq_true (List.mem_filter.mp stillLive).2 rfl

/-! ## Whole runs -/

/-- The list describes the live tasks after every call exactly when no task is
released before the tasks that were created after it. -/
theorem Invariant.throughout_iff {run : TaskRun} (valid : Invariant run) {calls : List TaskCall}
    (legal : Run.Everywhere TaskRun.step Allowed run calls) :
    Run.Throughout TaskRun.step InCreationOrder run calls ↔ Run.Everywhere TaskRun.step ReleasesTail run calls := by
  refine Run.throughout_iff (fun _ valid => valid.inCreationOrder) (fun run call valid allowed isTail => ?_)
    (fun _ call valid => valid.broken call) run calls valid legal
  cases call with
  | makeNewTask proc => exact valid.step_make proc allowed
  | releaseTask task => exact valid.step_release task isTail

/-- Before the first task. -/
theorem invariant_empty {kernel : Kernel} (kernelHeap : kernel.heap.IsKernelHeap)
    (head : kernel.headTask = 0#32) (tail : kernel.tailTask = 0#32) (current : kernel.currentTask = 0#32) :
    Invariant ⟨kernel, []⟩ where
  kernelHeap := kernelHeap
  owned := ⟨fun _ => ⟨0, 0, 0, fun _ => 0⟩, fun _ member => absurd member List.not_mem_nil,
    fun _ _ member => absurd member List.not_mem_nil⟩
  distinct := List.nodup_nil
  forward := head
  backward := tail
  current := ⟨fun _ => current, fun some => absurd rfl some⟩

/-- The task list over every run of creations and releases. -/
theorem inCreationOrder_iff_releasesTail (kernel : Kernel) (kernelHeap : kernel.heap.IsKernelHeap)
    (head : kernel.headTask = 0#32) (tail : kernel.tailTask = 0#32) (current : kernel.currentTask = 0#32)
    (calls : List TaskCall) (legal : Run.Everywhere step Allowed ⟨kernel, []⟩ calls) :
    Run.Throughout step InCreationOrder ⟨kernel, []⟩ calls ↔
      Run.Everywhere step ReleasesTail ⟨kernel, []⟩ calls :=
  (invariant_empty kernelHeap head tail current).throughout_iff legal

/-- The kernel heap just after its creation, with room for tasks. -/
def emptyKernel : Kernel := kheapInit (Kernel.loaded Store.blank (fun _ _ => 0) fun _ => 0) fun _ => 0

theorem invariant_emptyKernel : Invariant ⟨emptyKernel, []⟩ :=
  invariant_empty (kheapInit_isKernelHeap _ _) rfl rfl rfl

theorem step_make_live {run : TaskRun} {proc : Word} (allowed : run.Allowed (.makeNewTask proc)) :
    (run.step (.makeNewTask proc)).live = run.live ++ [(Tasks.makeNewTask run.kernel proc).1] := by
  have succeeded : isErr (Tasks.makeNewTask run.kernel proc).1 = false := allowed
  simp only [step, succeeded, Bool.false_eq_true, if_false]

theorem step_release_live (run : TaskRun) (task : Word) :
    (run.step (.releaseTask task)).live = run.live.filter fun other => other ≠ task := rfl

/-- With 1027 free blocks at the end of the pool, a task can be created. -/
theorem Invariant.room {run : TaskRun} (valid : Invariant run) (proc : Word) {first : Nat}
    (free : run.kernel.heap.FreeFrom first) (room : first + 1027 ≤ 25600) :
    run.Allowed (.makeNewTask proc) ∧ (run.step (.makeNewTask proc)).kernel.heap.FreeFrom (first + 1027) := by
  refine makeNewTask_freeFrom valid.kernelHeap.wellPlaced proc free ?_
  rw [valid.kernelHeap.total]
  exact room

/-- A run that begins with two tasks. -/
theorem emptyKernel_two_tasks :
    TaskRun.Allowed ⟨emptyKernel, []⟩ (.makeNewTask 0#32) ∧
      (TaskRun.step ⟨emptyKernel, []⟩ (.makeNewTask 0#32)).Allowed (.makeNewTask 0#32) ∧
      Invariant ((TaskRun.step ⟨emptyKernel, []⟩ (.makeNewTask 0#32)).step (.makeNewTask 0#32)) := by
  have first := invariant_emptyKernel.room 0#32 (kheapInit_freeFrom _ _) (by decide)
  have valid := invariant_emptyKernel.step_make 0#32 first.1
  have second := valid.room 0#32 first.2 (by decide)
  exact ⟨first.1, second.1, valid.step_make 0#32 second.1⟩

/-- Two tasks that are released in the opposite order are the tail each. -/
theorem releasesTail_back {run : TaskRun} {first second : Word} (live : run.live = [first, second])
    (apart : first ≠ second) :
    Run.Everywhere step Allowed run [.releaseTask second, .releaseTask first] ∧
      Run.Everywhere step ReleasesTail run [.releaseTask second, .releaseTask first] := by
  have left : (run.step (.releaseTask second)).live = [first] := by
    rw [step_release_live, live, List.filter_cons_of_pos (by simpa using apart), List.filter_cons_of_neg (by simp),
      List.filter_nil]
  refine ⟨⟨?_, ?_, trivial⟩, ?_, ?_, trivial⟩
  · rw [Allowed, live]
    exact List.mem_cons_of_mem _ (List.mem_singleton_self _)
  · rw [Allowed, left]
    exact List.mem_singleton_self _
  · rw [ReleasesTail, live, List.getLast?_cons_cons, List.getLast?_singleton]
  · rw [ReleasesTail, left, List.getLast?_singleton]

/-- Two tasks are created and released, the second one first. -/
theorem inCreationOrder_two_tasks :
    let first := Tasks.makeNewTask emptyKernel 0#32
    let second := Tasks.makeNewTask (TaskRun.step ⟨emptyKernel, []⟩ (.makeNewTask 0#32)).kernel 0#32
    Run.Throughout step InCreationOrder ⟨emptyKernel, []⟩
      [.makeNewTask 0#32, .makeNewTask 0#32, .releaseTask second.1, .releaseTask first.1] := by
  rcases emptyKernel_two_tasks with ⟨first, second, valid⟩
  have live := step_make_live second
  have distinct := valid.distinct
  rw [step_make_live first, List.nil_append, List.singleton_append] at live
  rw [live] at distinct
  rcases releasesTail_back live fun same => (List.nodup_cons.mp distinct).1 (List.mem_singleton.mpr same) with ⟨legal, back⟩
  have allowed : Run.Everywhere step Allowed ⟨emptyKernel, []⟩ (.makeNewTask 0#32 :: .makeNewTask 0#32 :: _) :=
    ⟨first, second, legal⟩
  exact (inCreationOrder_iff_releasesTail emptyKernel (kheapInit_isKernelHeap _ _) rfl rfl rfl _ allowed).mpr
    ⟨trivial, trivial, back⟩

/-- The first of two tasks is released, and the second one still links back
to it. -/
theorem emptyKernel_release_first :
    Run.Everywhere step Allowed ⟨emptyKernel, []⟩ [.makeNewTask 0#32, .makeNewTask 0#32,
        .releaseTask (Tasks.makeNewTask emptyKernel 0#32).1] ∧
      ¬ Run.Throughout step InCreationOrder ⟨emptyKernel, []⟩ [.makeNewTask 0#32, .makeNewTask 0#32,
        .releaseTask (Tasks.makeNewTask emptyKernel 0#32).1] := by
  rcases emptyKernel_two_tasks with ⟨first, second, valid⟩
  have live := step_make_live second
  rw [step_make_live first, List.nil_append, List.singleton_append] at live
  have legal : Run.Everywhere step Allowed ⟨emptyKernel, []⟩ [.makeNewTask 0#32, .makeNewTask 0#32,
      .releaseTask (Tasks.makeNewTask emptyKernel 0#32).1] := by
    refine ⟨first, second, ?_, trivial⟩
    rw [Allowed, live]
    exact List.mem_cons_self
  refine ⟨legal, fun law => ?_⟩
  have isLast := ((invariant_emptyKernel.throughout_iff legal).mp law).2.2.1
  have distinct := valid.distinct
  rw [live] at distinct
  rw [ReleasesTail, live] at isLast
  rw [List.getLast?_cons_cons, List.getLast?_singleton] at isLast
  have same := Option.some.inj isLast
  exact (List.nodup_cons.mp distinct).1 (List.mem_singleton.mpr same.symm)

end TaskRun

end Tasks
end LarvaOS
