import LarvaOS.Syscall.Syscall
import LarvaOS.Task.AddressMap
import LarvaOS.Task.Switch

namespace LarvaOS
namespace Syscall

open Fs Library Memory Tasks

/-!
# The system call handler

The handler switches to the address space of the kernel, saves the registers of the
current task, and goes back to the address space of the task for the five words on top
of its stack.  It calls what is registered under the number and leaves with the address
space of the task.

What a registered handler does is a parameter.  It is to leave page structures, records
and the current task alone.
-/

/-- What the handler works on.  All data segment registers are loaded together. -/
structure Entered where
  kernel : Kernel
  segments : BitVec 16
  table : Syscalls

def KERNEL_DATA_SELECTOR : BitVec 16 := 0x10#16
def USER_DATA_SEGMENT : BitVec 16 := 0x23#16

/-- `task_switch`. -/
def taskSwitch (kernel : Kernel) (task : Word) : Kernel :=
  switchToPage { kernel with currentTask := task } (kernel.tasks task).pageDirectory

namespace Entered

variable (entered : Entered)

/-- `proc::load_kernel_page`. -/
def loadKernelPage : Entered :=
  { entered with segments := KERNEL_DATA_SELECTOR, kernel := switchToKernelPage entered.kernel }

/-- `load_user_task_page`. -/
def loadUserPage : Entered :=
  { entered with segments := USER_DATA_SEGMENT, kernel := taskSwitch entered.kernel entered.kernel.currentTask }

end Entered

/-- A word under the active directory. -/
def loadWord (kernel : Kernel) (address : Word) : Option Word := do
  let first <- loadByte kernel address
  let second <- loadByte kernel (address + 1#32)
  let third <- loadByte kernel (address + 2#32)
  let fourth <- loadByte kernel (address + 3#32)
  return fourth ++ third ++ second ++ first

/-- `sys_args::__set_param`. -/
def setParam (ret ret1 ret2 ret3 ret4 : Word) : SysArgs where
  retReg := fun n =>
    match n.val with
    | 0 => ret
    | 1 => ret1
    | 2 => ret2
    | 3 => ret3
    | _ => ret4

/-- The five reads of `load_args`. -/
def readParams (kernel : Kernel) (esp : Word) : Option SysArgs := do
  let ret <- loadWord kernel esp
  let ret1 <- loadWord kernel (esp + 4#32)
  let ret2 <- loadWord kernel (esp + 8#32)
  let ret3 <- loadWord kernel (esp + 12#32)
  let ret4 <- loadWord kernel (esp + 16#32)
  return setParam ret ret1 ret2 ret3 ret4

/-- `sys_args::load_args`. -/
def loadArgs (entered : Entered) (frame : InterruptFrame) : Option (SysArgs × Entered) :=
  (readParams entered.loadUserPage.kernel frame.esp).map fun args => (args, entered.loadUserPage.loadKernelPage)

/-- How the handler ends.  A panic loops forever, and a fault has no handler. -/
inductive Handling where
  | panic (msg : String)
  | fault
  | returned (res : Word) (entered : Entered)

/-- What a registered handler does. -/
abbrev Invoke := Word -> SysArgs -> Kernel -> Word × Kernel

/-- `syscall_handler`, from the call on. -/
def answer (invoke : Invoke) (num : Int) (args : SysArgs) (entered : Entered) : Word × Entered :=
  let called := entered.table.call num args
  match called.1 with
  | .nullptr => (0#32, { entered with table := called.2 })
  | .invoked handler args =>
      let done := invoke handler args entered.kernel
      (done.1, { entered with kernel := done.2, table := called.2 })

/-- `syscall_handler`. -/
def syscallHandler (invoke : Invoke) (num : Int) (frame : InterruptFrame) (entered : Entered) : Handling :=
  let entered := entered.loadKernelPage
  let task := entered.kernel.currentTask
  if task = 0#32 then .panic "No current task to save."
  else
    match loadArgs { entered with kernel := taskSaveState entered.kernel task frame } frame with
    | none => .fault
    | some (args, entered) =>
        let done := answer invoke num args entered
        .returned done.1 done.2.loadUserPage

/-! ## The kernel under a program -/

/-- The program in a slot runs: its task is the current one and its address space is
active, with all processes isolated. -/
structure Runs (kernel : Kernel) (slot : Nat) (kernelBlocks : SpaceBlocks) (blocks : Nat -> ProcessBlocks) : Prop where
  isolated : Isolated (switchToKernelPage kernel) kernelBlocks blocks
  occupied : Occupied kernel slot
  current : kernel.currentTask = (slotProcess kernel slot).task
  active : kernel.currentDirectory = kernel.words (slotPage kernel slot)

/-- What a registered handler is to keep. -/
structure HandlerKeeps (before after : Kernel) : Prop where
  spaces : KeepsSpaces (fun _ => False) before after
  processes : after.processes = before.processes
  currentTask : after.currentTask = before.currentTask

/-- A kernel with the same memory and the same processes. -/
theorem keepsSpaces_of_same {before after : Kernel} (store : after.toStore = before.toStore) (heap : after.heap = before.heap)
    (kernelDirectory : after.kernelDirectory = before.kernelDirectory)
    (currentDirectory : after.currentDirectory = before.currentDirectory) :
    KeepsSpaces (fun _ => False) before after where
  pool := heap ▸ ⟨rfl, rfl⟩
  owns := fun extent owned => heap ▸ owned
  records := fun extent _ address _ => by rw [store]; exact ⟨rfl, rfl⟩
  words := fun block _ _ index _ => by rw [store]
  encoded := fun encoded => heap ▸ encoded
  kernelDirectory := kernelDirectory
  currentDirectory := currentDirectory

/-- Saved registers leave the spaces alone. -/
theorem taskSaveState_keepsSpaces (kernel : Kernel) (task : Word) (frame : InterruptFrame) :
    KeepsSpaces (fun _ => False) kernel (taskSaveState kernel task frame) where
  pool := ⟨rfl, rfl⟩
  owns := fun _ owned => owned
  records := by
    intro extent _ address _
    refine ⟨rfl, ?_⟩
    change (Function.update kernel.tasks task _ address).pageDirectory = _
    by_cases same : address = task
    · rw [same, Function.update_self]
    · rw [Function.update_of_ne same]
  words := fun _ _ _ _ _ => rfl
  encoded := fun encoded => encoded
  kernelDirectory := rfl
  currentDirectory := rfl

theorem isolated_keep {before after : Kernel} {kernelBlocks : SpaceBlocks} {blocks : Nat -> ProcessBlocks}
    (isolated : Isolated before kernelBlocks blocks) (keeps : KeepsSpaces (fun _ => False) before after)
    (processes : after.processes = before.processes) : Isolated after kernelBlocks blocks :=
  isolated.keep keeps processes fun _ impossible => impossible.elim

section Switching

variable {kernel : Kernel} {slot : Nat} {kernelBlocks : SpaceBlocks} {blocks : Nat -> ProcessBlocks}

/-- The switch to the task of a process lets its program run. -/
theorem runs_taskSwitch (isolated : Isolated kernel kernelBlocks blocks) (occupied : Occupied kernel slot) :
    Runs (taskSwitch kernel (slotProcess kernel slot).task) slot kernelBlocks blocks where
  isolated := by
    refine isolated_keep isolated (keepsSpaces_of_same rfl rfl rfl ?_) rfl
    exact isolated.active.active.symm
  occupied := occupied
  current := rfl
  active := rfl

end Switching

namespace Runs

variable {kernel : Kernel} {slot : Nat} {kernelBlocks : SpaceBlocks} {blocks : Nat -> ProcessBlocks}
  (runs : Runs kernel slot kernelBlocks blocks)
include runs

/-- The kernel with the registers of the program saved. -/
theorem saved (frame : InterruptFrame) :
    Isolated (taskSaveState (switchToKernelPage kernel) kernel.currentTask frame) kernelBlocks blocks :=
  isolated_keep runs.isolated (taskSaveState_keepsSpaces _ _ frame) rfl

/-- There is a current task. -/
theorem currentTask_ne_zero : kernel.currentTask ≠ 0#32 := by
  have process := runs.isolated.processes slot runs.occupied
  rw [runs.current]
  exact process.task.ne_null process.map.placed

end Runs

/-- A byte of the memory that the program sees. -/
def seenByte (kernel : Kernel) (slot : Nat) (address : Word) : Byte :=
  kernel.bytes (seenPlace (slotProcess kernel slot) address)

def seenWord (kernel : Kernel) (slot : Nat) (address : Word) : Word :=
  seenByte kernel slot (address + 3#32) ++ seenByte kernel slot (address + 2#32) ++
    seenByte kernel slot (address + 1#32) ++ seenByte kernel slot address

/-- The five words on top of the stack of the program. -/
def seenArgs (kernel : Kernel) (slot : Nat) (esp : Word) : SysArgs :=
  setParam (seenWord kernel slot esp) (seenWord kernel slot (esp + 4#32)) (seenWord kernel slot (esp + 8#32))
    (seenWord kernel slot (esp + 12#32)) (seenWord kernel slot (esp + 16#32))

section Seeing

variable {kernel under : Kernel} {slot : Nat} {blocks : ProcessBlocks} (process : ProcessAt kernel slot blocks)
  (same : under.toStore = kernel.toStore) (active : under.currentDirectory = kernel.words (slotPage kernel slot))
include process same active

/-- While its address space is active, the memory is seen as the program sees it. -/
theorem loadByte_seen (address : Word) : loadByte under address = some (seenByte kernel slot address) := by
  have words : under.words = kernel.words := congrArg Store.words same
  have bytes : under.bytes = kernel.bytes := congrArg Store.bytes same
  rw [loadByte, activePlace, active, words, bytes, process.sees]
  rfl

theorem readParams_seen (esp : Word) : readParams under esp = some (seenArgs kernel slot esp) := by
  have word (address : Word) : loadWord under address = some (seenWord kernel slot address) := by
    simp only [loadWord, loadByte_seen process same active]
    rfl
  simp only [readParams, word]
  rfl

end Seeing

/-- The kernel in which a registered handler is called. -/
def savedFor (kernel : Kernel) (frame : InterruptFrame) (table : Syscalls) : Entered :=
  ⟨taskSaveState (switchToKernelPage kernel) kernel.currentTask frame, KERNEL_DATA_SELECTOR, table⟩

/-- The handler with a current task. -/
theorem syscallHandler_eq (invoke : Invoke) (num : Int) (frame : InterruptFrame) (segments : BitVec 16) (table : Syscalls)
    {kernel : Kernel} (task : kernel.currentTask ≠ 0#32) :
    syscallHandler invoke num frame ⟨kernel, segments, table⟩ =
      match loadArgs (savedFor kernel frame table) frame with
      | none => .fault
      | some (args, entered) => .returned (answer invoke num args entered).1 (answer invoke num args entered).2.loadUserPage :=
  if_neg task

theorem HandlerKeeps.refl (kernel : Kernel) : HandlerKeeps kernel kernel :=
  ⟨keepsSpaces_of_same rfl rfl rfl rfl, rfl, rfl⟩

theorem answer_keeps {invoke : Invoke} (keep : forall handler args kernel, HandlerKeeps kernel (invoke handler args kernel).2)
    (num : Int) (args : SysArgs) (entered : Entered) :
    HandlerKeeps entered.kernel (answer invoke num args entered).2.kernel := by
  simp only [answer]
  cases (entered.table.call num args).1 with
  | nullptr => exact HandlerKeeps.refl entered.kernel
  | invoked handler args => exact keep handler args entered.kernel

/-- What the system call comes to. -/
def answerFor (invoke : Invoke) (kernel : Kernel) (slot : Nat) (num : Int) (frame : InterruptFrame) (table : Syscalls) :
    Word × Entered :=
  answer invoke num (seenArgs kernel slot frame.esp) (savedFor kernel frame table)

namespace Runs

variable {kernel : Kernel} {slot : Nat} {kernelBlocks : SpaceBlocks} {blocks : Nat -> ProcessBlocks}
  (runs : Runs kernel slot kernelBlocks blocks)
include runs

/-- The arguments are the words on the stack of the program. -/
theorem loadArgs_seen (frame : InterruptFrame) (table : Syscalls) :
    loadArgs (savedFor kernel frame table) frame =
      some (seenArgs kernel slot frame.esp, savedFor kernel frame table) := by
  have process := (runs.saved frame).processes slot runs.occupied
  have seen := @readParams_seen _ (savedFor kernel frame table).loadUserPage.kernel slot _ process rfl (by
    change _ = kernel.words (slotPage (savedFor kernel frame table).kernel slot)
    unfold slotPage
    rw [show (slotProcess (savedFor kernel frame table).kernel slot).task = kernel.currentTask from runs.current.symm]
    rfl) frame.esp
  rw [loadArgs, seen]
  rfl

/-- The handler returns what the registered handler makes of the arguments, and goes
back to the program. -/
theorem syscallHandler_returns (invoke : Invoke) (num : Int) (frame : InterruptFrame) (segments : BitVec 16)
    (table : Syscalls) :
    syscallHandler invoke num frame ⟨kernel, segments, table⟩ =
      .returned (answerFor invoke kernel slot num frame table).1
        (answerFor invoke kernel slot num frame table).2.loadUserPage := by
  rw [syscallHandler_eq invoke num frame segments table runs.currentTask_ne_zero, runs.loadArgs_seen frame table]
  rfl

/-- The program runs again. -/
theorem answered {invoke : Invoke} (keep : forall handler args kernel, HandlerKeeps kernel (invoke handler args kernel).2)
    (num : Int) (frame : InterruptFrame) (table : Syscalls) :
    Runs (answerFor invoke kernel slot num frame table).2.loadUserPage.kernel slot kernelBlocks blocks := by
  have saved := runs.saved frame
  have keeps := answer_keeps keep num (seenArgs kernel slot frame.esp) (savedFor kernel frame table)
  have isolated := isolated_keep saved keeps.spaces keeps.processes
  have record := keeps.spaces.slotProcess (saved.processes slot runs.occupied) (congrFun keeps.processes slot)
  have task : (slotProcess (answerFor invoke kernel slot num frame table).2.kernel slot).task =
      (answerFor invoke kernel slot num frame table).2.kernel.currentTask :=
    (congrArg Process.task record).trans (runs.current.symm.trans keeps.currentTask.symm)
  have occupied : Occupied (answerFor invoke kernel slot num frame table).2.kernel slot :=
    ⟨runs.occupied.1, fun none => runs.occupied.2 ((congrFun keeps.processes slot).symm.trans none)⟩
  have running : Runs (taskSwitch (answerFor invoke kernel slot num frame table).2.kernel
      (slotProcess (answerFor invoke kernel slot num frame table).2.kernel slot).task) slot kernelBlocks blocks :=
    runs_taskSwitch isolated occupied
  rw [task] at running
  exact running

end Runs

end Syscall
end LarvaOS
