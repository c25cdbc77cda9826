import LarvaOS.Memory.Paging

namespace LarvaOS
namespace Tasks

open Memory

/-!
# Tasks

The tasks form a doubly linked list, with global pointers to its head, its
tail and the current task.  Each task has an address space of its own, which
begins as the identity map without write access.
-/

def PROGRAM_VIRTUAL_ADDRESS : Word := 0x400000#32
def USER_PROGRAM_STACK_SIZE : Word := BitVec.ofNat 32 (1024 * 16)
def PROGRAM_VIRTUAL_STACK_ADDRESS_START : Word := 0x3FF000#32
def PROGRAM_VIRTUAL_STACK_ADDRESS_END : Word := PROGRAM_VIRTUAL_STACK_ADDRESS_START - USER_PROGRAM_STACK_SIZE
def USER_DATA_SEGMENT : Word := 0x23#32
def USER_CODE_SEGMENT : Word := 0x1b#32

/-- `sizeof(struct task)`. -/
def sizeofTask : Word := 64#32

/-- A change of one task. -/
def modifyTask (kernel : Kernel) (task : Word) (change : Task -> Task) : Kernel :=
  kernel.withStore
    { kernel.toStore with tasks := Function.update kernel.tasks task (change (kernel.tasks task)) }

def getNextTask (kernel : Kernel) : Word :=
  if (kernel.tasks kernel.currentTask).next = 0#32 then kernel.headTask
  else (kernel.tasks kernel.currentTask).next

/-! ## The four steps of `remove_task_from_linked_list` -/

/-- The task before the removed one skips it. -/
def unlinkFromPrev (kernel : Kernel) (task : Word) : Kernel :=
  if (kernel.tasks task).prev ≠ 0#32 then
    modifyTask kernel (kernel.tasks task).prev ({ · with next := (kernel.tasks task).next })
  else kernel

def replaceHead (kernel : Kernel) (task : Word) : Kernel :=
  if task = kernel.headTask then { kernel with headTask := (kernel.tasks task).next } else kernel

def replaceTail (kernel : Kernel) (task : Word) : Kernel :=
  if task = kernel.tailTask then { kernel with tailTask := (kernel.tasks task).prev } else kernel

def replaceCurrent (kernel : Kernel) (task : Word) : Kernel :=
  if task = kernel.currentTask then { kernel with currentTask := getNextTask kernel } else kernel

/-- `remove_task_from_linked_list`.  The task after the removed one keeps its
link back to it. -/
def removeTaskFromLinkedList (kernel : Kernel) (task : Word) : Kernel :=
  if task = 0#32 then kernel
  else replaceCurrent (replaceTail (replaceHead (unlinkFromPrev kernel task) task) task) task

def releaseTask (kernel : Kernel) (task : Word) : Kernel :=
  if task = 0#32 then kernel
  else
    let kernel := release4GBVirtualMemoryAddressSpace kernel (kernel.tasks task).pageDirectory
    let kernel := removeTaskFromLinkedList kernel task
    kfree kernel task

/-- The registers with which a new task starts. -/
def initialRegisters : Registers :=
  { Registers.zero with
    ip := PROGRAM_VIRTUAL_ADDRESS
    ss := USER_DATA_SEGMENT
    cs := USER_CODE_SEGMENT
    esp := PROGRAM_VIRTUAL_STACK_ADDRESS_START }

def taskInit (kernel : Kernel) (task proc : Word) : Int × Kernel :=
  let kernel := kernel.withStore (kernel.toStore.fillZero task sizeofTask)
  let flags : Byte := 0b00000101#8
  let space := makeNew4GBVirtualMemoryAddressSpace kernel flags
  let kernel := modifyTask space.2 task ({ · with pageDirectory := space.1 })
  if space.1 = 0#32 then (- EIO, kernel)
  else (0, modifyTask kernel task ({ · with registers := initialRegisters, proc := proc }))

/-- The end of `make_new_task`: the new task is linked at the tail. -/
def appendTask (kernel : Kernel) (task : Word) : Kernel :=
  if kernel.headTask = 0#32 then { kernel with headTask := task, tailTask := task, currentTask := task }
  else
    let kernel := modifyTask kernel kernel.tailTask ({ · with next := task })
    let kernel := modifyTask kernel task ({ · with prev := kernel.tailTask })
    { kernel with tailTask := task }

def makeNewTask (kernel : Kernel) (proc : Word) : Word × Kernel :=
  let task := kzalloc kernel sizeofTask
  if task.1 = 0#32 then (errPtr (-ENOMEM), releaseTask task.2 task.1)
  else
    let initialized := taskInit task.2 task.1 proc
    if initialized.1 < 0 then (errPtr initialized.1, releaseTask initialized.2 task.1)
    else (task.1, appendTask initialized.2 task.1)

end Tasks
end LarvaOS
