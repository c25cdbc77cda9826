import LarvaOS.Memory.FreeBlocks
import LarvaOS.Memory.Requests
import LarvaOS.Task.TaskSpec

namespace LarvaOS
namespace Tasks

open Library Memory

/-!
# All or nothing

A new task takes 1027 blocks: one for itself and 1026 for its address space.
The request for the task is the only one whose refusal is noticed before the
result is stored through.  Hence `make_new_task` is all or nothing exactly when
no block is free, so that it does nothing, or when 1027 of them are.

In between, the heap runs out inside the constructor of the address space.  The
directory, a table or the chunk is then written at address 0.
-/

/-- The pointers that `make_new_task` stores through. -/
def taskStores (kernel : Kernel) : List Word :=
  let task := kzalloc kernel sizeofTask
  if task.1 = 0#32 then []
  else task.1 :: spaceStores (task.2.withStore (task.2.toStore.fillZero task.1 sizeofTask)) 0b00000101#8

/-- The task is the last one of the list, which is otherwise as before. -/
structure LinkedAtTail (kernel after : Kernel) (task : Word) : Prop where
  tail : after.tailTask = task
  first : kernel.headTask = 0#32 -> after.headTask = task ∧ after.currentTask = task ∧ (after.tasks task).prev = 0#32
  later : kernel.headTask ≠ 0#32 -> after.headTask = kernel.headTask ∧ after.currentTask = kernel.currentTask ∧
    (after.tasks kernel.tailTask).next = task ∧ (after.tasks task).prev = kernel.tailTask
  last : kernel.headTask = 0#32 ∨ kernel.tailTask ≠ task -> (after.tasks task).next = 0#32

/-- A task with a complete address space of blocks that were free before. -/
structure Created (kernel after : Kernel) (task proc : Word) : Prop where
  space : exists blocks, TaskAt after task blocks ∧ IdentityMapped after 0b101#32 blocks.space ∧
    forall block, blocks.Has block -> FreshExtent (fun _ => True) kernel (Extent.single block)
  registers : (after.tasks task).registers = initialRegisters
  proc : (after.tasks task).proc = proc
  linked : LinkedAtTail kernel after task

/-- Only the blocks that were free before hold other objects. -/
structure Untouched (kernel after : Kernel) : Prop where
  heap : after.heap = kernel.heap
  globals : after.toGlobals = kernel.toGlobals
  memory : forall address, (forall block, block < kernel.heap.table.total.toNat ->
    BlockFree kernel.heap.table.entries block -> ¬ kernel.heap.InExtent (Extent.single block) address) ->
      kernel.toStore.SameAt after.toStore address

/-- A new task or an error that changes nothing, and no store through `NULL`. -/
structure AllOrNothing (kernel : Kernel) (proc : Word) : Prop where
  stores : 0#32 ∉ taskStores kernel
  outcome : (isErr (makeNewTask kernel proc).1 = false ∧
      Created kernel (makeNewTask kernel proc).2 (makeNewTask kernel proc).1 proc) ∨
    (isErr (makeNewTask kernel proc).1 = true ∧ Untouched kernel (makeNewTask kernel proc).2)

/-! ## The link -/

theorem appendTask_linked {kernel ready : Kernel} {task : Word} (globals : ready.toGlobals = kernel.toGlobals)
    (unlinked : (ready.tasks task).next = 0#32 ∧ (ready.tasks task).prev = 0#32) :
    LinkedAtTail kernel (appendTask ready task) task := by
  have head : ready.headTask = kernel.headTask := congrArg Globals.headTask globals
  have tail : ready.tailTask = kernel.tailTask := congrArg Globals.tailTask globals
  have current : ready.currentTask = kernel.currentTask := congrArg Globals.currentTask globals
  by_cases first : ready.headTask = 0#32
  · rw [appendTask_first first]
    exact
      { tail := rfl
        first := fun _ => ⟨rfl, rfl, unlinked.2⟩
        later := fun some => absurd (head.symm.trans first) some
        last := fun _ => unlinked.1 }
  · have nextKept (other : Word) : ((appendTask ready task).tasks other).next =
        ((modifyTask ready ready.tailTask ({ · with next := task })).tasks other).next := by
      rw [appendTask, if_neg first]
      exact modifyTask_field Task.next ({ · with prev := ready.tailTask }) _ task (fun _ => rfl) other
    have prev : ((appendTask ready task).tasks task).prev = ready.tailTask := by
      rw [appendTask, if_neg first]
      simp only [modifyTask_tasks, Function.update_self]
      rfl
    have pointers : (appendTask ready task).headTask = ready.headTask ∧ (appendTask ready task).tailTask = task ∧
        (appendTask ready task).currentTask = ready.currentTask := by
      rw [appendTask, if_neg first]
      exact ⟨rfl, rfl, rfl⟩
    exact
      { tail := pointers.2.1
        first := fun none => absurd (head.trans none) first
        later := by
          intro _
          refine ⟨pointers.1.trans head, pointers.2.2.trans current, ?_, prev.trans tail⟩
          rw [nextKept, ← tail, modifyTask_tasks, Function.update_self]
        last := by
          rintro (none | different)
          · exact absurd (head.trans none) first
          · rw [← tail] at different
            rw [nextKept, modifyTask_tasks, Function.update_of_ne (Ne.symm different)]
            exact unlinked.1 }

/-- The record of the new task, as far as the link leaves it alone. -/
theorem appendTask_record {Field : Type} (field : Task -> Field) (kernel : Kernel) (task other : Word)
    (next : forall record link, field { record with next := link } = field record)
    (prev : forall record link, field { record with prev := link } = field record) :
    field ((appendTask kernel task).tasks other) = field (kernel.tasks other) := by
  unfold appendTask
  by_cases first : kernel.headTask = 0#32
  · rw [if_pos first]
  · rw [if_neg first]
    have tail := modifyTask_field field ({ · with next := task }) kernel kernel.tailTask (fun record => next record task) other
    rw [← tail]
    exact modifyTask_field field ({ · with prev := kernel.tailTask }) _ task (fun record => prev record _) other

/-- A complete task that was linked. -/
theorem TaskReady.created {kernel ready : Kernel} {task : Nat} {blocks : SpaceBlocks} {proc : Word}
    (made : TaskReady kernel ready task blocks proc) :
    Created kernel (appendTask ready (kernel.heap.addressOf task)) (kernel.heap.addressOf task) proc := by
  rcases appendTask_memory ready (kernel.heap.addressOf task) with ⟨heap, words, directories⟩
  refine ⟨⟨⟨task, blocks⟩, ?_, ?_, ?_⟩, ?_, ?_, ?_⟩
  · refine made.new.transport ⟨congrArg Heap.startAddress heap, congrArg (fun heap => heap.table.total) heap⟩ ?_ ?_
      (directories _)
    · intro block has
      rw [heap]
      exact made.new.owned has
    · intro block _ index _
      rw [words]
  · exact made.identity.congr heap words
  · rintro block (rfl | has)
    · exact made.taskFresh
    · exact (made.spaceFresh block has).1
  · rw [appendTask_record Task.registers _ _ _ (fun _ _ => rfl) fun _ _ => rfl, made.record]
  · rw [appendTask_record Task.proc _ _ _ (fun _ _ => rfl) fun _ _ => rfl, made.record]
  · refine appendTask_linked made.globals ?_
    rw [made.record]
    exact ⟨rfl, rfl⟩

/-! ## What is asked of the heap -/

theorem modifyTask_requests {first before : Kernel} (requests : Requests first before) (task : Word) (change : Task -> Task) :
    Requests first (modifyTask before task change) := requests.withStore _ rfl

/-- The initialization requests an address space, and says whether it got one. -/
theorem taskInit_requests (kernel : Kernel) (task proc : Word) : Requests kernel (taskInit kernel task proc).2 ∧
    ((taskInit kernel task proc).1 = 0 ∨ (taskInit kernel task proc).1 = - EIO) := by
  have space := ((Requests.refl kernel).fillZero task sizeofTask).trans
    (makeNew4GB_requests (kernel.withStore (kernel.toStore.fillZero task sizeofTask)) 0b00000101#8)
  rw [taskInit]
  generalize makeNew4GBVirtualMemoryAddressSpace (kernel.withStore (kernel.toStore.fillZero task sizeofTask))
    0b00000101#8 = made at space ⊢
  by_cases null : made.1 = 0#32
  · rw [if_pos null]
    dsimp only
    exact ⟨modifyTask_requests space _ _, Or.inr rfl⟩
  · rw [if_neg null]
    dsimp only
    exact ⟨modifyTask_requests (modifyTask_requests space _ _) _ _, Or.inl rfl⟩

/-- The end of `make_new_task`, without an error. -/
theorem linkedTask_appends {task : Word × Kernel} {ready : Int × Kernel} (result : ready.1 = 0 ∨ ready.1 = - EIO)
    (made : isErr (if task.1 = 0#32 then (errPtr (-ENOMEM), releaseTask task.2 task.1)
      else if ready.1 < 0 then (errPtr ready.1, releaseTask ready.2 task.1)
      else (task.1, appendTask ready.2 task.1)).1 = false) :
    (if task.1 = 0#32 then (errPtr (-ENOMEM), releaseTask task.2 task.1)
      else if ready.1 < 0 then (errPtr ready.1, releaseTask ready.2 task.1)
      else (task.1, appendTask ready.2 task.1)) = (task.1, appendTask ready.2 task.1) := by
  by_cases refused : task.1 = 0#32
  · rw [if_pos refused] at made
    exact absurd (isErr_errPtr_enomem.symm.trans made) (by decide)
  · rw [if_neg refused] at made ⊢
    rcases result with zero | error
    · rw [if_neg (by rw [zero]; decide)]
    · rw [if_pos (by rw [error]; decide), error] at made
      exact absurd (isErr_errPtr_eio.symm.trans made) (by decide)

/-- A task is made by requests to the heap and linked. -/
theorem makeNewTask_appends {kernel : Kernel} {proc : Word} (made : isErr (makeNewTask kernel proc).1 = false) :
    exists ready, Requests kernel ready ∧
      makeNewTask kernel proc = ((kzalloc kernel sizeofTask).1, appendTask ready (kzalloc kernel sizeofTask).1) := by
  rcases taskInit_requests (kzalloc kernel sizeofTask).2 (kzalloc kernel sizeofTask).1 proc with ⟨requests, result⟩
  exact ⟨_, ((Requests.refl kernel).kzalloc sizeofTask).trans requests, linkedTask_appends result made⟩

/-- A task is made by requests to the heap. -/
theorem makeNewTask_requests {kernel : Kernel} {proc : Word} (made : isErr (makeNewTask kernel proc).1 = false) :
    kernel.heap.Requests (makeNewTask kernel proc).2.heap := by
  rcases makeNewTask_appends made with ⟨ready, requests, result⟩
  rw [result, (appendTask_memory _ _).1]
  exact requests.heap

/-! ## The blocks that are left -/

section Blocks

variable {kernel : Kernel} (placed : kernel.heap.WellPlaced)

include placed

/-- A call that runs out of blocks after it has the task stores through `NULL`. -/
theorem taskStores_null :
    0#32 ∈ taskStores kernel ↔ kernel.heap.freeBlocks ≠ 0 ∧ kernel.heap.freeBlocks ≤ 1026 := by
  have task := kzalloc_freeBlocks placed (show blocksFor sizeofTask = 1 by decide)
  have placed' := kzalloc_wellPlaced placed sizeofTask
  unfold taskStores
  dsimp only
  by_cases none : (kzalloc kernel sizeofTask).1 = 0#32
  · rw [if_pos none]
    exact ⟨fun impossible => absurd impossible List.not_mem_nil, fun some => absurd (task.1.mp none) some.1⟩
  · have space := @spaceStores_null ((kzalloc kernel sizeofTask).2.withStore
      ((kzalloc kernel sizeofTask).2.toStore.fillZero (kzalloc kernel sizeofTask).1 sizeofTask)) placed' 0b00000101#8
    rw [Kernel.withStore_heap, task.2] at space
    have some : kernel.heap.freeBlocks ≠ 0 := fun null => none (task.1.mpr null)
    rw [if_neg none, List.mem_cons, space]
    constructor
    · rintro (null | short)
      · exact absurd null.symm none
      · exact ⟨some, by omega⟩
    · rintro ⟨_, short⟩
      exact Or.inr (by omega)

/-- What the initialization returns, and what it leaves. -/
theorem taskInit_freeBlocks (task proc : Word) :
    (taskInit kernel task proc).1 = (if 1026 ≤ kernel.heap.freeBlocks then 0 else - EIO) ∧
      (taskInit kernel task proc).2.heap.freeBlocks = kernel.heap.freeBlocks - 1026 := by
  have space := @makeNew4GB_freeBlocks (kernel.withStore (kernel.toStore.fillZero task sizeofTask)) placed 0b00000101#8
  rw [Kernel.withStore_heap] at space
  rw [taskInit]
  generalize makeNew4GBVirtualMemoryAddressSpace (kernel.withStore (kernel.toStore.fillZero task sizeofTask))
    0b00000101#8 = made at space ⊢
  by_cases enough : 1026 ≤ kernel.heap.freeBlocks
  · have some : made.1 ≠ 0#32 := fun null => absurd (space.1.mp null) (by omega)
    rw [if_neg some, if_pos enough, modifyTask_heap, modifyTask_heap]
    exact ⟨rfl, space.2⟩
  · have null : made.1 = 0#32 := space.1.mpr (by omega)
    rw [if_pos null, if_neg enough, modifyTask_heap]
    exact ⟨rfl, space.2⟩

/-- Without a free block the call only counts the refusal. -/
theorem makeNewTask_none (proc : Word) (none : kernel.heap.freeBlocks = 0) :
    makeNewTask kernel proc = (errPtr (-ENOMEM), Kernel.refusal kernel) := by
  rcases kzalloc_page placed (show blocksFor sizeofTask = 1 by decide) with ⟨block, hands, _⟩ | ⟨_, result⟩
  · exact absurd (Heap.exhausted_iff.mpr none) hands.not_exhausted
  · rw [makeNewTask, result]
    dsimp only
    rw [if_pos rfl, releaseTask, if_pos rfl]

/-- With enough of them it returns a task. -/
theorem makeNewTask_enough (proc : Word) (enough : 1027 ≤ kernel.heap.freeBlocks) :
    isErr (makeNewTask kernel proc).1 = false ∧
      (makeNewTask kernel proc).2.heap.freeBlocks = kernel.heap.freeBlocks - 1027 := by
  have left := (kzalloc_freeBlocks placed (show blocksFor sizeofTask = 1 by decide)).2
  have initialized := taskInit_freeBlocks (kzalloc_wellPlaced placed sizeofTask) (kzalloc kernel sizeofTask).1 proc
  rw [left, if_pos (by omega), Nat.sub_sub] at initialized
  rcases kzalloc_page placed (show blocksFor sizeofTask = 1 by decide) with ⟨block, hands, result⟩ | ⟨exhausted, _⟩
  · rw [makeNewTask]
    dsimp only
    have notNull : (kzalloc kernel sizeofTask).1 ≠ 0#32 := by
      rw [result]
      exact placed.addressOf_ne_null hands.inside
    rw [if_neg notNull, initialized.1, if_neg (by decide), (appendTask_memory _ _).1]
    refine ⟨?_, initialized.2⟩
    rw [result]
    exact isErr_addressOf placed hands.inside
  · exact absurd (Heap.exhausted_iff.mp exhausted) (by omega)

/-- With some of them, but not enough, it returns an error. -/
theorem makeNewTask_short (proc : Word) (some : kernel.heap.freeBlocks ≠ 0) (short : kernel.heap.freeBlocks ≤ 1026) :
    isErr (makeNewTask kernel proc).1 = true := by
  have task := kzalloc_freeBlocks placed (show blocksFor sizeofTask = 1 by decide)
  have initialized := (taskInit_freeBlocks (kzalloc_wellPlaced placed sizeofTask) (kzalloc kernel sizeofTask).1 proc).1
  rw [task.2, if_neg (by omega)] at initialized
  rw [makeNewTask]
  dsimp only
  rw [if_neg fun null => some (task.1.mp null), initialized, if_pos (by decide)]
  exact isErr_errPtr_eio

end Blocks

/-- The kernel after tasks were made for these processes. -/
def afterTasks (kernel : Kernel) (procs : List Word) : Kernel :=
  procs.foldl (fun kernel proc => (makeNewTask kernel proc).2) kernel

/-- Each of the tasks takes its 1027 blocks. -/
theorem afterTasks_freeBlocks {kernel : Kernel} (kernelHeap : kernel.heap.IsKernelHeap) (procs : List Word)
    (enough : 1027 * procs.length ≤ kernel.heap.freeBlocks) :
    (afterTasks kernel procs).heap.IsKernelHeap ∧
      (afterTasks kernel procs).heap.freeBlocks = kernel.heap.freeBlocks - 1027 * procs.length := by
  induction procs generalizing kernel with
  | nil => exact ⟨kernelHeap, rfl⟩
  | cons proc procs inductionHypothesis =>
      rw [List.length_cons] at enough ⊢
      have placed := kernelHeap.wellPlaced
      rcases makeNewTask_enough placed proc (by omega) with ⟨made, left⟩
      rcases makeNewTask_spec placed proc made with ⟨task, blocks, ready, complete, result⟩
      have later : (makeNewTask kernel proc).2.heap.IsKernelHeap := by
        rw [result, (appendTask_memory _ _).1]
        exact kernelHeap.samePool complete.keeps.pool
      rcases inductionHypothesis later (by omega) with ⟨heap, rest⟩
      refine ⟨heap, rest.trans ?_⟩
      rw [left]
      omega

/-! ## The condition -/

/-- However the blocks of the kernel heap are taken. -/
theorem allOrNothing_iff {kernel : Kernel} (kernelHeap : kernel.heap.IsKernelHeap) (proc : Word) :
    AllOrNothing kernel proc ↔ kernel.heap.freeBlocks = 0 ∨ 1027 ≤ kernel.heap.freeBlocks := by
  have placed := kernelHeap.wellPlaced
  have stores := taskStores_null placed
  constructor
  · intro holds
    by_contra between
    exact holds.stores (stores.mpr (by omega))
  · rintro (none | enough)
    · refine ⟨fun null => (stores.mp null).1 none, Or.inr ?_⟩
      rw [makeNewTask_none placed proc none]
      exact ⟨isErr_errPtr_enomem, rfl, rfl, fun address _ => Store.SameAt.refl _ address⟩
    · have made := (makeNewTask_enough placed proc enough).1
      rcases makeNewTask_spec placed proc made with ⟨task, blocks, ready, complete, result⟩
      refine ⟨fun null => absurd (stores.mp null).2 (by omega), Or.inl ⟨made, ?_⟩⟩
      rw [result]
      exact complete.created

theorem allOrNothing_iff_empty :
    AllOrNothing (kheapInit (Kernel.loaded Store.blank (fun _ _ => 0#8) fun _ => 0#8) fun _ => 0#8) 0#32 := by
  refine (allOrNothing_iff (kheapInit_isKernelHeap _ _) 0#32).mpr (Or.inr ?_)
  rw [kheapInit_freeBlocks]
  decide

/-- The heap has room for 24 tasks.  In the 25th the tables run out. -/
theorem allOrNothing_fails_full :
    ¬ AllOrNothing (afterTasks (kheapInit (Kernel.loaded Store.blank (fun _ _ => 0#8) fun _ => 0#8) fun _ => 0#8)
      (List.replicate 24 0#32)) 0#32 := by
  intro holds
  have kernelHeap := kheapInit_isKernelHeap (Kernel.loaded Store.blank (fun _ _ => 0#8) fun _ => 0#8) fun _ => 0#8
  have enough : 1027 * (List.replicate 24 0#32).length ≤
      (kheapInit (Kernel.loaded Store.blank (fun _ _ => 0#8) fun _ => 0#8) fun _ => 0#8).heap.freeBlocks := by
    rw [kheapInit_freeBlocks]
    decide
  rcases afterTasks_freeBlocks kernelHeap (List.replicate 24 0#32) enough with ⟨heap, left⟩
  rw [kheapInit_freeBlocks, List.length_replicate] at left
  refine holds.stores ((taskStores_null heap.wellPlaced).mpr ?_)
  rw [left]
  decide

end Tasks
end LarvaOS
