import LarvaOS.Memory.PagingSpec
import LarvaOS.Task.Task

namespace LarvaOS
namespace Tasks

open Library Memory

/-!
# Creation and release of a task

A task that `make_new_task` returns owns one block for itself and the 1026
blocks of its address space.  The state before it is linked into the list
keeps everything that was allocated before; the link changes one field of the
old tail and one of the new task.
-/

@[simp] theorem modifyTask_heap (kernel : Kernel) (task : Word) (change : Task -> Task) :
    (modifyTask kernel task change).heap = kernel.heap := rfl

@[simp] theorem modifyTask_words (kernel : Kernel) (task : Word) (change : Task -> Task) :
    (modifyTask kernel task change).words = kernel.words := rfl

@[simp] theorem modifyTask_globals (kernel : Kernel) (task : Word) (change : Task -> Task) :
    (modifyTask kernel task change).toGlobals = kernel.toGlobals := rfl

theorem modifyTask_refused (kernel : Kernel) (task : Word) (change : Task -> Task) :
    (modifyTask kernel task change).refused = kernel.refused := rfl

@[simp] theorem modifyTask_tasks (kernel : Kernel) (task : Word) (change : Task -> Task) :
    (modifyTask kernel task change).tasks = Function.update kernel.tasks task (change (kernel.tasks task)) := rfl

/-- A change of some fields keeps the others. -/
theorem modifyTask_field {Field : Type} (field : Task -> Field) (change : Task -> Task) (kernel : Kernel)
    (task : Word) (keep : forall record, field (change record) = field record) (other : Word) :
    field ((modifyTask kernel task change).tasks other) = field (kernel.tasks other) := by
  rw [modifyTask_tasks]
  by_cases here : other = task
  · rw [here, Function.update_self, keep]
  · rw [Function.update_of_ne here]

theorem modifyTask_sameAt {kernel : Kernel} {task other : Word} {change : Task -> Task} (different : other ≠ task) :
    kernel.toStore.SameAt (modifyTask kernel task change).toStore other :=
  ⟨rfl, rfl, Function.update_of_ne different _ _, rfl, rfl, rfl, rfl, rfl, rfl, rfl⟩

theorem keeps_modifyTask {guard : Extent -> Prop} {first before : Kernel} (keeps : Keeps guard first before)
    {task : Word} (fresh : Fresh guard first task) (change : Task -> Task) :
    Keeps guard first (modifyTask before task change) :=
  keeps.withStore fun _ notFresh => modifyTask_sameAt fun same => notFresh (same ▸ fresh)

theorem keeps_fillZero {guard : Extent -> Prop} {first before : Kernel} (keeps : Keeps guard first before)
    {pointer size : Word} (fresh : FreshRange guard first pointer size.toNat) :
    Keeps guard first (before.withStore (before.toStore.fillZero pointer size)) :=
  keeps.withStore fun address notFresh =>
    Store.fillZero_sameAt _ fun inside => notFresh (fresh address inside)

theorem isErr_errPtr_enomem : isErr (errPtr (-ENOMEM)) = true := isErr_errPtr (by decide) (by decide)

theorem isErr_errPtr_eio : isErr (errPtr (- EIO)) = true := isErr_errPtr (by decide) (by decide)

/-- The state in which a new task is complete but not yet linked. -/
structure TaskReady (first kernel : Kernel) (task : Nat) (blocks : SpaceBlocks) (proc : Word) : Prop where
  keeps : Keeps (fun _ => True) first kernel
  globals : kernel.toGlobals = first.toGlobals
  taskFresh : FreshExtent (fun _ => True) first (Extent.single task)
  spaceFresh : forall block, blocks.Has block ->
    FreshExtent (fun _ => True) first (Extent.single block) ∧ block ≠ task
  taskOwned : kernel.heap.Owns (Extent.single task)
  space : SpaceAt kernel (kernel.heap.addressOf blocks.chunk) 0b101#32 blocks
  identity : IdentityMapped kernel 0b101#32 blocks
  record : kernel.tasks (first.heap.addressOf task) =
    { pageDirectory := first.heap.addressOf blocks.chunk
      registers := initialRegisters
      next := 0
      prev := 0
      proc := proc }

/-- A cleared task that received an address space. -/
theorem taskReady_of_space {first zeroed : Kernel} (placed : first.heap.WellPlaced)
    (keeps : Keeps (fun _ => True) first zeroed) (globals : zeroed.toGlobals = first.toGlobals) {task : Nat}
    (fresh : FreshExtent (fun _ => True) first (Extent.single task))
    (owned : zeroed.heap.Owns (Extent.single task))
    (cleared : zeroed.tasks (first.heap.addressOf task) = Task.zero) (proc : Word) {page : Word} {after : Kernel}
    (afterGlobals : after.toGlobals = zeroed.toGlobals) (kept : Keeps (fun _ => True) zeroed after)
    {blocks : SpaceBlocks} (space : SpaceAt after page 0b101#32 blocks)
    (identity : IdentityMapped after 0b101#32 blocks)
    (spaceFresh : forall block, blocks.Has block -> FreshExtent (fun _ => True) zeroed (Extent.single block)) :
    TaskReady first
      (modifyTask (modifyTask after (first.heap.addressOf task) ({ · with pageDirectory := page }))
        (first.heap.addressOf task) ({ · with registers := initialRegisters, proc := proc })) task blocks proc := by
  have zeroedPlaced := keeps.pool.wellPlaced placed
  have inside : task < first.heap.table.total.toNat := by
    have within := owned.address_inside
    rwa [keeps.pool.total] at within
  have base : Fresh (fun _ => True) first (first.heap.addressOf task) :=
    (fresh.freshRange placed inside).base (by decide : 0 < heapBlockSizeBytes * 1)
  have address : page = first.heap.addressOf blocks.chunk := by
    rw [space.pageAddress, kept.pool.addressOf, keeps.pool.addressOf]
  have inTask : zeroed.heap.InExtent (Extent.single task) (first.heap.addressOf task) := by
    have here := inExtent_wordAt zeroedPlaced owned (show 0 < 1024 by decide)
    rwa [keeps.pool.addressOf, wordAt, BitVec.add_zero] at here
  have record := (kept.same _ trivial owned _ inTask).tasks
  rw [cleared] at record
  exact
    { keeps := keeps_modifyTask (keeps_modifyTask (keeps.trans kept) base _) base _
      globals := by
        rw [modifyTask_globals, modifyTask_globals]
        exact afterGlobals.trans globals
      taskFresh := fresh
      spaceFresh := by
        intro block has
        refine ⟨fun old _ oldOwned => ?_, ?_⟩
        · exact spaceFresh block has old trivial (keeps.owns old trivial oldOwned)
        · rintro rfl
          exact Extent.not_apart_self _ (spaceFresh block has _ trivial owned)
      taskOwned := by
        rw [modifyTask_heap, modifyTask_heap]
        exact kept.owns _ trivial owned
      space := by
        rw [modifyTask_heap, modifyTask_heap, ← space.pageAddress]
        exact space.congr rfl rfl
      identity := identity.congr rfl rfl
      record := by
        rw [modifyTask_tasks, Function.update_self, modifyTask_tasks, Function.update_self, record, address]
        rfl }

/-- `task_init` on a block of its own. -/
theorem taskInit_spec {first kernel : Kernel} (placed : first.heap.WellPlaced)
    (keeps : Keeps (fun _ => True) first kernel) (globals : kernel.toGlobals = first.toGlobals) {task : Nat}
    (fresh : FreshExtent (fun _ => True) first (Extent.single task))
    (owned : kernel.heap.Owns (Extent.single task)) (proc : Word) :
    (exists blocks, (taskInit kernel (first.heap.addressOf task) proc).1 = 0 ∧
      TaskReady first (taskInit kernel (first.heap.addressOf task) proc).2 task blocks proc) ∨
    (taskInit kernel (first.heap.addressOf task) proc).1 = - EIO := by
  have inside : task < first.heap.table.total.toNat := by
    have within := owned.address_inside
    rwa [keeps.pool.total] at within
  have taskFresh := (fresh.freshRange placed inside).mono (show sizeofTask.toNat ≤ heapBlockSizeBytes * 1 by decide)
  have zeroed := keeps_fillZero keeps taskFresh
  have here : (first.heap.addressOf task - first.heap.addressOf task).toNat < sizeofTask.toNat := by
    rw [BitVec.sub_self]
    decide
  have zeroedPlaced := zeroed.pool.wellPlaced placed
  have kept := ((Keeps.refl (fun _ => True) _).spaceMade zeroedPlaced 0b00000101#8).1
  have madeGlobals := makeNew4GB_globals
    (kernel.withStore (kernel.toStore.fillZero (first.heap.addressOf task) sizeofTask)) 0b00000101#8
  rw [taskInit]
  by_cases failed : (makeNew4GBVirtualMemoryAddressSpace
      (kernel.withStore (kernel.toStore.fillZero (first.heap.addressOf task) sizeofTask)) 0b00000101#8).1 = 0#32
  · right
    simp only [failed, if_true]
  · left
    rcases makeNew4GB_spec zeroedPlaced 0b00000101#8 failed with ⟨blocks, space, identity, spaceFresh⟩
    refine ⟨blocks, ?_⟩
    simp only [if_neg failed]
    exact ⟨trivial, taskReady_of_space placed zeroed globals fresh owned (if_pos here) proc madeGlobals kept space
      identity spaceFresh⟩

/-- A heap with 1026 free blocks at its end has room for the address space. -/
theorem taskInit_freeFrom {kernel : Kernel} (placed : kernel.heap.WellPlaced) (task proc : Word) {first : Nat}
    (free : kernel.heap.FreeFrom first) (room : first + 1026 ≤ kernel.heap.table.total.toNat) :
    (taskInit kernel task proc).1 = 0 ∧ (taskInit kernel task proc).2.heap.FreeFrom (first + 1026) := by
  have made := @makeNew4GB_freeFrom (kernel.withStore (kernel.toStore.fillZero task sizeofTask)) placed
    0b00000101#8 first free room
  rw [taskInit]
  simp only [if_neg made.1]
  rw [modifyTask_heap, modifyTask_heap]
  exact ⟨trivial, made.2⟩

/-- None of the requests is refused then. -/
theorem taskInit_unrefused {kernel : Kernel} (placed : kernel.heap.WellPlaced) (task proc : Word) {first : Nat}
    (free : kernel.heap.FreeFrom first) (room : first + 1026 ≤ kernel.heap.table.total.toNat) :
    (taskInit kernel task proc).2.refused = kernel.refused := by
  have made := @makeNew4GB_freeFrom (kernel.withStore (kernel.toStore.fillZero task sizeofTask)) placed
    0b00000101#8 first free room
  have served := @makeNew4GB_unrefused (kernel.withStore (kernel.toStore.fillZero task sizeofTask)) placed
    first free 0b00000101#8 room
  rw [taskInit]
  simp only [if_neg made.1]
  rw [modifyTask_refused, modifyTask_refused]
  exact served

/-- `make_new_task` without an error. -/
theorem makeNewTask_spec {kernel : Kernel} (placed : kernel.heap.WellPlaced) (proc : Word)
    (made : isErr (makeNewTask kernel proc).1 = false) :
    exists task blocks ready, TaskReady kernel ready task blocks proc ∧
      makeNewTask kernel proc = (kernel.heap.addressOf task, appendTask ready (kernel.heap.addressOf task)) := by
  have allocated := keeps_kzalloc (fun _ => True) placed sizeofTask
  have globals := kzalloc_globals kernel sizeofTask
  rcases kzalloc_page placed (show blocksFor sizeofTask = 1 by decide) with ⟨task, hands, result⟩ | ⟨_, result⟩
  · have notNull : kernel.heap.addressOf task ≠ 0#32 := placed.addressOf_ne_null hands.inside
    have owned : (Kernel.served kernel sizeofTask (Extent.single task)).heap.Owns (Extent.single task) :=
      Heap.owns_marked hands.within
    rw [result] at allocated globals
    have spec := taskInit_spec placed allocated globals hands.freshExtent owned proc
    unfold makeNewTask at made ⊢
    simp only [result, if_neg notNull] at made ⊢
    generalize taskInit (Kernel.served kernel sizeofTask (Extent.single task)) (kernel.heap.addressOf task) proc =
      initialized at spec made ⊢
    rcases spec with ⟨blocks, succeeded, ready⟩ | failed
    · refine ⟨task, blocks, initialized.2, ready, ?_⟩
      rw [succeeded, if_neg (by decide)]
    · rw [failed, if_pos (by decide)] at made
      exact absurd (isErr_errPtr_eio.symm.trans made) (by decide)
  · unfold makeNewTask at made
    simp only [result, if_true] at made
    exact absurd (isErr_errPtr_enomem.symm.trans made) (by decide)

/-! ## The link at the tail -/

section Append

variable (kernel : Kernel) (task : Word)

theorem appendTask_memory : (appendTask kernel task).heap = kernel.heap ∧
    (appendTask kernel task).words = kernel.words ∧
    forall other, ((appendTask kernel task).tasks other).pageDirectory = (kernel.tasks other).pageDirectory := by
  unfold appendTask
  by_cases first : kernel.headTask = 0#32
  · rw [if_pos first]
    exact ⟨rfl, rfl, fun _ => rfl⟩
  · rw [if_neg first]
    refine ⟨rfl, rfl, fun other => ?_⟩
    have tail := modifyTask_field Task.pageDirectory ({ · with next := task }) kernel kernel.tailTask (fun _ => rfl) other
    rw [← tail]
    exact modifyTask_field Task.pageDirectory ({ · with prev := kernel.tailTask }) _ task (fun _ => rfl) other

variable {kernel task}

/-- A heap with 1027 free blocks at its end has room for a task. -/
theorem makeNewTask_freeFrom (placed : kernel.heap.WellPlaced) (proc : Word) {first : Nat}
    (free : kernel.heap.FreeFrom first) (room : first + 1027 ≤ kernel.heap.table.total.toNat) :
    isErr (makeNewTask kernel proc).1 = false ∧ (makeNewTask kernel proc).2.heap.FreeFrom (first + 1027) := by
  have one : blocksFor sizeofTask = 1 := by decide
  have allocated := kzalloc_freeFrom placed sizeofTask (by decide) free (by rw [one]; omega)
  rw [one] at allocated
  have pool := (keeps_kzalloc (fun _ => False) placed sizeofTask).pool
  have initialized := taskInit_freeFrom (pool.wellPlaced placed) (kzalloc kernel sizeofTask).1 proc allocated.2
    (by rw [pool.total]; omega)
  have pointer : isErr (kzalloc kernel sizeofTask).1 = false := by
    rcases kzalloc_cases placed sizeofTask with ⟨extent, hands, result⟩ | ⟨_, result⟩
    · rw [result]
      exact isErr_addressOf placed hands.inside
    · rw [result] at allocated
      exact absurd rfl allocated.1
  rw [makeNewTask]
  simp only [if_neg allocated.1, initialized.1]
  rw [if_neg (by decide), (appendTask_memory _ _).1]
  exact ⟨pointer, initialized.2⟩

theorem appendTask_refused : (appendTask kernel task).refused = kernel.refused := by
  unfold appendTask
  split <;> rfl

theorem makeNewTask_unrefused (placed : kernel.heap.WellPlaced) (proc : Word) {first : Nat}
    (free : kernel.heap.FreeFrom first) (room : first + 1027 ≤ kernel.heap.table.total.toNat) :
    (makeNewTask kernel proc).2.refused = kernel.refused := by
  have one : blocksFor sizeofTask = 1 := by decide
  have allocated := kzalloc_freeFrom placed sizeofTask (by decide) free (by rw [one]; omega)
  have served := kzalloc_unrefused placed free (show sizeofTask ≠ 0#32 by decide) (by rw [one]; omega)
  rw [one] at allocated
  have pool := (keeps_kzalloc (fun _ => False) placed sizeofTask).pool
  have room' : first + 1 + 1026 ≤ (kzalloc kernel sizeofTask).2.heap.table.total.toNat := by
    rw [pool.total]
    omega
  have initialized := taskInit_freeFrom (pool.wellPlaced placed) (kzalloc kernel sizeofTask).1 proc allocated.2 room'
  have initServed := taskInit_unrefused (pool.wellPlaced placed) (kzalloc kernel sizeofTask).1 proc allocated.2 room'
  rw [makeNewTask]
  simp only [if_neg allocated.1, initialized.1]
  rw [if_neg (by decide), appendTask_refused, initServed, served]

theorem appendTask_first (none : kernel.headTask = 0#32) :
    appendTask kernel task = { kernel with headTask := task, tailTask := task, currentTask := task } :=
  if_pos none

theorem appendTask_later (some : kernel.headTask ≠ 0#32) (different : kernel.tailTask ≠ task) :
    (forall other, ((appendTask kernel task).tasks other).next =
        if other = kernel.tailTask then task else (kernel.tasks other).next) ∧
      (forall other, ((appendTask kernel task).tasks other).prev =
        if other = task then kernel.tailTask else (kernel.tasks other).prev) ∧
      (appendTask kernel task).headTask = kernel.headTask ∧ (appendTask kernel task).tailTask = task ∧
      (appendTask kernel task).currentTask = kernel.currentTask := by
  unfold appendTask
  rw [if_neg some]
  refine ⟨fun other => ?_, fun other => ?_, rfl, rfl, rfl⟩
  · simp only [modifyTask_tasks]
    by_cases isTask : other = task
    · subst isTask
      rw [Function.update_self, Function.update_of_ne (Ne.symm different), if_neg (Ne.symm different)]
    · rw [Function.update_of_ne isTask]
      by_cases isTail : other = kernel.tailTask
      · rw [isTail, Function.update_self, if_pos rfl]
      · rw [Function.update_of_ne isTail, if_neg isTail]
  · simp only [modifyTask_tasks]
    by_cases isTask : other = task
    · rw [isTask, Function.update_self, if_pos rfl]
      rfl
    · rw [Function.update_of_ne isTask, if_neg isTask]
      by_cases isTail : other = kernel.tailTask
      · rw [isTail, Function.update_self]
      · rw [Function.update_of_ne isTail]

end Append

/-! ## Release -/

/-- The blocks of a task. -/
structure TaskBlocks where
  task : Nat
  space : SpaceBlocks

def TaskBlocks.Has (blocks : TaskBlocks) (block : Nat) : Prop := block = blocks.task ∨ blocks.space.Has block

/-- A task in memory. -/
structure TaskAt (kernel : Kernel) (pointer : Word) (blocks : TaskBlocks) : Prop where
  address : pointer = kernel.heap.addressOf blocks.task
  taskOwned : kernel.heap.Owns (Extent.single blocks.task)
  space : SpaceAt kernel (kernel.tasks pointer).pageDirectory 0b101#32 blocks.space
  apart : ¬ blocks.space.Has blocks.task

theorem TaskAt.owned {kernel : Kernel} {pointer : Word} {blocks : TaskBlocks} (at_ : TaskAt kernel pointer blocks)
    {block : Nat} (has : blocks.Has block) : kernel.heap.Owns (Extent.single block) := by
  rcases has with same | has
  · exact same ▸ at_.taskOwned
  · exact at_.space.owned block has

theorem TaskAt.ne_null {kernel : Kernel} {pointer : Word} {blocks : TaskBlocks} (at_ : TaskAt kernel pointer blocks)
    (placed : kernel.heap.WellPlaced) : pointer ≠ 0#32 :=
  at_.address ▸ placed.addressOf_ne_null at_.taskOwned.address_inside

/-- A task is in the entries of its blocks, in its own record and in the words
of its pages. -/
theorem TaskAt.transport {kernel kernel' : Kernel} {pointer : Word} {blocks : TaskBlocks}
    (at_ : TaskAt kernel pointer blocks) (pool : kernel.heap.SamePool kernel'.heap)
    (owned : forall block, blocks.Has block -> kernel'.heap.Owns (Extent.single block))
    (words : forall block, blocks.space.Has block -> forall index, index < 1024 ->
      kernel'.words (wordAt (kernel.heap.addressOf block) index) =
        kernel.words (wordAt (kernel.heap.addressOf block) index))
    (record : (kernel'.tasks pointer).pageDirectory = (kernel.tasks pointer).pageDirectory) :
    TaskAt kernel' pointer blocks where
  address := by
    rw [pool.addressOf]
    exact at_.address
  taskOwned := owned _ (Or.inl rfl)
  space := by
    rw [record]
    exact at_.space.transport pool (fun block has => owned block (Or.inr has)) words
  apart := at_.apart

/-- A task of the state that is compared with is still there in the state in
which a new task is complete. -/
theorem TaskReady.old {first ready : Kernel} {task : Nat} {blocks : SpaceBlocks} {proc : Word}
    (made : TaskReady first ready task blocks proc) (placed : first.heap.WellPlaced) {pointer : Word}
    {old : TaskBlocks} (at_ : TaskAt first pointer old) :
    TaskAt ready pointer old ∧ ready.tasks pointer = first.tasks pointer := by
  have inside := inExtent_wordAt placed at_.taskOwned (show 0 < 1024 by decide)
  rw [wordAt, BitVec.add_zero, ← at_.address] at inside
  have record := (made.keeps.same _ trivial at_.taskOwned _ inside).tasks
  refine ⟨at_.transport made.keeps.pool (fun block has => made.keeps.owns _ trivial (at_.owned has)) ?_
    (congrArg Task.pageDirectory record), record⟩
  intro block has index bound
  exact (made.keeps.same _ trivial (at_.space.owned block has) _
    (inExtent_wordAt placed (at_.space.owned block has) bound)).words

/-- The new task. -/
theorem TaskReady.new {first ready : Kernel} {task : Nat} {blocks : SpaceBlocks} {proc : Word}
    (made : TaskReady first ready task blocks proc) :
    TaskAt ready (first.heap.addressOf task) ⟨task, blocks⟩ where
  address := (made.keeps.pool.addressOf task).symm
  taskOwned := made.taskOwned
  space := by
    rw [made.record, ← made.keeps.pool.addressOf]
    exact made.space
  apart := fun has => (made.spaceFresh task has).2 rfl

section Removal

variable (kernel : Kernel) (task : Word)

theorem unlinkFromPrev_withHeap (heap : Heap) :
    unlinkFromPrev (kernel.withHeap heap) task = (unlinkFromPrev kernel task).withHeap heap := by
  rw [unlinkFromPrev, unlinkFromPrev, apply_ite (Kernel.withHeap · heap)]
  rfl

theorem replaceHead_withHeap (heap : Heap) :
    replaceHead (kernel.withHeap heap) task = (replaceHead kernel task).withHeap heap := by
  rw [replaceHead, replaceHead, apply_ite (Kernel.withHeap · heap)]
  rfl

theorem replaceTail_withHeap (heap : Heap) :
    replaceTail (kernel.withHeap heap) task = (replaceTail kernel task).withHeap heap := by
  rw [replaceTail, replaceTail, apply_ite (Kernel.withHeap · heap)]
  rfl

theorem replaceCurrent_withHeap (heap : Heap) :
    replaceCurrent (kernel.withHeap heap) task = (replaceCurrent kernel task).withHeap heap := by
  rw [replaceCurrent, replaceCurrent, apply_ite (Kernel.withHeap · heap)]
  rfl

/-- The list operation does not look at the heap. -/
theorem removeTask_withHeap (heap : Heap) :
    removeTaskFromLinkedList (kernel.withHeap heap) task = (removeTaskFromLinkedList kernel task).withHeap heap := by
  unfold removeTaskFromLinkedList
  by_cases null : task = 0#32
  · rw [if_pos null, if_pos null]
  · rw [if_neg null, if_neg null, unlinkFromPrev_withHeap, replaceHead_withHeap, replaceTail_withHeap,
      replaceCurrent_withHeap]

/-- Memory changes only in the link of the task before the removed one. -/
theorem removeTask_store (notNull : task ≠ 0#32) :
    (removeTaskFromLinkedList kernel task).toStore = (unlinkFromPrev kernel task).toStore := by
  have head (kernel : Kernel) : (replaceHead kernel task).toStore = kernel.toStore := by
    unfold replaceHead
    split <;> rfl
  have tail (kernel : Kernel) : (replaceTail kernel task).toStore = kernel.toStore := by
    unfold replaceTail
    split <;> rfl
  have current (kernel : Kernel) : (replaceCurrent kernel task).toStore = kernel.toStore := by
    unfold replaceCurrent
    split <;> rfl
  rw [removeTaskFromLinkedList, if_neg notNull, current, tail, head]

theorem removeTask_words : (removeTaskFromLinkedList kernel task).words = kernel.words := by
  by_cases null : task = 0#32
  · rw [removeTaskFromLinkedList, if_pos null]
  · rw [removeTask_store kernel task null]
    unfold unlinkFromPrev
    split <;> rfl

/-- The links forward after the removal. -/
theorem removeTask_next (notNull : task ≠ 0#32) (other : Word) :
    ((removeTaskFromLinkedList kernel task).tasks other).next =
      if other = (kernel.tasks task).prev ∧ other ≠ 0#32 then (kernel.tasks task).next
      else (kernel.tasks other).next := by
  rw [removeTask_store kernel task notNull]
  unfold unlinkFromPrev
  by_cases prev : (kernel.tasks task).prev ≠ 0#32
  · rw [if_pos prev, modifyTask_tasks]
    by_cases here : other = (kernel.tasks task).prev
    · rw [here, Function.update_self, if_pos ⟨rfl, prev⟩]
    · rw [Function.update_of_ne here, if_neg fun both => here both.1]
  · rw [if_neg prev, if_neg]
    rintro ⟨rfl, notZero⟩
    exact prev notZero

/-- Nothing else of a task changes. -/
theorem removeTask_task (notNull : task ≠ 0#32) (other : Word) :
    ((removeTaskFromLinkedList kernel task).tasks other).prev = (kernel.tasks other).prev ∧
      ((removeTaskFromLinkedList kernel task).tasks other).pageDirectory = (kernel.tasks other).pageDirectory := by
  rw [removeTask_store kernel task notNull]
  unfold unlinkFromPrev
  by_cases prev : (kernel.tasks task).prev ≠ 0#32
  · rw [if_pos prev, modifyTask_tasks]
    by_cases here : other = (kernel.tasks task).prev
    · rw [here, Function.update_self]
      exact ⟨rfl, rfl⟩
    · rw [Function.update_of_ne here]
      exact ⟨rfl, rfl⟩
  · rw [if_neg prev]
    exact ⟨rfl, rfl⟩

/-- The removed task still has its own links. -/
theorem unlinkFromPrev_self :
    ((unlinkFromPrev kernel task).tasks task).next = (kernel.tasks task).next ∧
      ((unlinkFromPrev kernel task).tasks task).prev = (kernel.tasks task).prev ∧
      (unlinkFromPrev kernel task).toGlobals = kernel.toGlobals := by
  unfold unlinkFromPrev
  by_cases prev : (kernel.tasks task).prev ≠ 0#32
  · rw [if_pos prev, modifyTask_tasks, modifyTask_globals]
    by_cases here : task = (kernel.tasks task).prev
    · rw [← here, Function.update_self]
      exact ⟨rfl, here.symm, rfl⟩
    · rw [Function.update_of_ne here]
      exact ⟨rfl, rfl, rfl⟩
  · rw [if_neg prev]
    exact ⟨rfl, rfl, rfl⟩

theorem replaceHead_spec :
    (replaceHead kernel task).headTask =
        (if task = kernel.headTask then (kernel.tasks task).next else kernel.headTask) ∧
      (replaceHead kernel task).tailTask = kernel.tailTask ∧
      (replaceHead kernel task).currentTask = kernel.currentTask ∧
      (replaceHead kernel task).tasks = kernel.tasks := by
  unfold replaceHead
  split <;> exact ⟨rfl, rfl, rfl, rfl⟩

theorem replaceTail_spec :
    (replaceTail kernel task).headTask = kernel.headTask ∧
      (replaceTail kernel task).tailTask =
        (if task = kernel.tailTask then (kernel.tasks task).prev else kernel.tailTask) ∧
      (replaceTail kernel task).currentTask = kernel.currentTask ∧
      (replaceTail kernel task).tasks = kernel.tasks := by
  unfold replaceTail
  split <;> exact ⟨rfl, rfl, rfl, rfl⟩

theorem replaceCurrent_spec :
    (replaceCurrent kernel task).headTask = kernel.headTask ∧
      (replaceCurrent kernel task).tailTask = kernel.tailTask ∧
      (replaceCurrent kernel task).currentTask =
        (if task = kernel.currentTask then
          if (kernel.tasks task).next = 0#32 then kernel.headTask else (kernel.tasks task).next
        else kernel.currentTask) := by
  unfold replaceCurrent getNextTask
  by_cases here : task = kernel.currentTask
  · rw [if_pos here, if_pos here, here]
    exact ⟨rfl, rfl, rfl⟩
  · rw [if_neg here, if_neg here]
    exact ⟨rfl, rfl, rfl⟩

/-- The global pointers after the removal. -/
theorem removeTask_pointers (notNull : task ≠ 0#32) :
    (removeTaskFromLinkedList kernel task).headTask =
        (if task = kernel.headTask then (kernel.tasks task).next else kernel.headTask) ∧
      (removeTaskFromLinkedList kernel task).tailTask =
        (if task = kernel.tailTask then (kernel.tasks task).prev else kernel.tailTask) ∧
      (removeTaskFromLinkedList kernel task).currentTask =
        (if task = kernel.currentTask then
          if (kernel.tasks task).next = 0#32 then (removeTaskFromLinkedList kernel task).headTask
          else (kernel.tasks task).next
        else kernel.currentTask) := by
  rcases unlinkFromPrev_self kernel task with ⟨next, prev, globals⟩
  rw [removeTaskFromLinkedList, if_neg notNull]
  generalize unlinkFromPrev kernel task = unlinked at next prev globals ⊢
  have headTask : unlinked.headTask = kernel.headTask := congrArg Globals.headTask globals
  have tailTask : unlinked.tailTask = kernel.tailTask := congrArg Globals.tailTask globals
  have currentTask : unlinked.currentTask = kernel.currentTask := congrArg Globals.currentTask globals
  rcases replaceHead_spec unlinked task with ⟨headHead, headTail, headCurrent, headTasks⟩
  generalize replaceHead unlinked task = headReplaced at *
  rcases replaceTail_spec headReplaced task with ⟨tailHead, tailTail, tailCurrent, tailTasks⟩
  generalize replaceTail headReplaced task = tailReplaced at *
  rcases replaceCurrent_spec tailReplaced task with ⟨currentHead, currentTail, current⟩
  rw [currentHead, currentTail, current, tailHead, tailTail, tailCurrent, tailTasks, headHead, headTail,
    headCurrent, headTasks, headTask, tailTask, currentTask, next, prev]
  exact ⟨rfl, rfl, rfl⟩

end Removal

/-- The release of a task frees its blocks and unlinks it. -/
theorem releaseTask_spec {kernel : Kernel} {pointer : Word} {blocks : TaskBlocks} (kernelHeap : kernel.heap.IsKernelHeap)
    (at_ : TaskAt kernel pointer blocks) :
    exists entries', releaseTask kernel pointer =
        (removeTaskFromLinkedList kernel pointer).withHeap (kernel.heap.withEntries entries') ∧
      Cleared blocks.Has kernel.heap.table.entries entries' := by
  have placed := kernelHeap.wellPlaced
  have low (block : Nat) (has : blocks.Has block) : heapBlockSizeBytes * block < 2 ^ 31 :=
    kernelHeap.low (at_.owned has).address_inside
  rcases release4GB_spec at_.space placed (by decide) fun block has => low block (Or.inr has) with
    ⟨spaceEntries, released, cleared⟩
  rcases cleared.insert placed at_.taskOwned (low _ (Or.inl rfl)) at_.apart with ⟨entries', freed, cleared'⟩
  refine ⟨entries', ?_, ?_, ?_⟩
  · rw [releaseTask, if_neg (at_.ne_null placed)]
    simp only [released, removeTask_withHeap]
    rw [← at_.address] at freed
    exact congrArg (Kernel.withHeap (removeTaskFromLinkedList kernel pointer)) (congrArg Kernel.heap freed)
  · rintro block (same | has)
    · exact cleared'.free block (Or.inr same)
    · exact cleared'.free block (Or.inl has)
  · intro j away
    refine cleared'.kept j fun block isGone => away block ?_
    rcases isGone with has | same
    · exact Or.inr has
    · exact Or.inl same

end Tasks
end LarvaOS
