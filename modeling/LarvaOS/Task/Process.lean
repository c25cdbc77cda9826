import LarvaOS.Fs.File
import LarvaOS.Libc.Strings
import LarvaOS.Task.Task

namespace LarvaOS
namespace Tasks

open Fs Libc Memory

/-!
# Processes

A process is loaded from a file into an empty slot of the process table.  It
gets a record, its image, a stack and a task, in this order.

One label of the source cleans up after every failure.  It releases the task, if
there is one, and the record.  The image, the stack and the open file are left
behind on every path.
-/

def MAX_PROCESSES : Nat := 20

/-- `sizeof(struct process)`. -/
def sizeofProcess : Word := 4216#32

/-- A change of one process. -/
def modifyProcess (kernel : Kernel) (process : Word) (change : Process -> Process) : Kernel :=
  kernel.withStore
    { kernel.toStore with
      processRecords := Function.update kernel.processRecords process (change (kernel.processRecords process)) }

/-- `process_init`. -/
def processInit (kernel : Kernel) (proc : Word) : Kernel :=
  kernel.withStore (kernel.toStore.fillZero proc sizeofProcess)

/-- `get_process_by_id`. -/
def getProcessById (kernel : Kernel) (id : Int) : Word :=
  if id < 0 ∨ id ≥ MAX_PROCESSES then 0#32 else kernel.processes id.toNat

/-- The field `filesize` of a `struct file_stat`. -/
def statFilesize (kernel : Kernel) (stat : Word) : Word :=
  BitVec.ofNat 32 (littleEndian ((List.range 4).map fun place => kernel.bytes (stat + BitVec.ofNat 32 (28 + place))))

/-- `process_load_binary`.  The local structure of the source lies at `stat`. -/
def processLoadBinary (kernel : Kernel) (stat : Word) (filename : List Byte) (process : Word) : Option (Int × Kernel) :=
  (fopen kernel filename [0x72#8]).bind fun fd =>
    if fd.1 ≤ 0 then some (- EIO, fd.2)
    else
      let res := fstat fd.2 fd.1 stat
      if res.1 < 0 then some res
      else
        let filesize := statFilesize res.2 stat
        let programData := kzalloc res.2 filesize
        if programData.1 = 0#32 then some (- ENOMEM, programData.2)
        else
          (fread programData.2 fd.1 programData.1 filesize 1#32).map fun read =>
            if read.1 < 0 then (- EIO, read.2)
            else (res.1, modifyProcess read.2 process ({ · with physicalPointer := programData.1, size := filesize }))

/-- `process_map_virtual_memory` maps the image, and nothing else. -/
def processMapVirtualMemory (kernel : Kernel) (process : Word) : Int × Kernel :=
  let record := kernel.processRecords process
  pagingMapVirtualMemory kernel (kernel.tasks record.task).pageDirectory PROGRAM_VIRTUAL_ADDRESS record.physicalPointer
    (pagingAlignAddress (record.physicalPointer + record.size))
    (PAGING_IS_PRESENT ||| PAGING_ACCESS_FROM_ALL ||| PAGING_IS_WRITEABLE)

/-- What a load comes to: its result, the pointer that it stores for its caller,
and the kernel. -/
structure Loading where
  res : Int
  process : Option Word
  kernel : Kernel

/-- The label `out` of `process_load_for_slot`, after an error. -/
def abandonProcess (kernel : Kernel) (tmpProcess : Word) (res : Int) : Loading :=
  let task := (kernel.processRecords tmpProcess).task
  let released := if tmpProcess ≠ 0#32 ∧ task ≠ 0#32 then releaseTask kernel task else kernel
  ⟨res, none, kfree released tmpProcess⟩

/-- A change of the process table. -/
def storeProcess (kernel : Kernel) (slot : Nat) (process : Word) : Kernel :=
  { kernel with processes := Function.update kernel.processes slot process }

/-- The end of `process_load_for_slot`, from the new task on. -/
def startProcess (kernel : Kernel) (tmpProcess : Word) (slot : Nat) : Loading :=
  let task := makeNewTask kernel tmpProcess
  if isErr task.1 then abandonProcess task.2 tmpProcess (ptrErr task.1)
  else
    let mapped := processMapVirtualMemory (modifyProcess task.2 tmpProcess ({ · with task := task.1 })) tmpProcess
    if mapped.1 < 0 then abandonProcess mapped.2 tmpProcess mapped.1
    else ⟨mapped.1, some tmpProcess, storeProcess mapped.2 slot tmpProcess⟩

/-- `process_load_for_slot`, from the stack on. -/
def prepareProcess (kernel : Kernel) (filename : List Byte) (tmpProcess : Word) (slot : Nat) : Loading :=
  let programStack := kzalloc kernel USER_PROGRAM_STACK_SIZE
  if programStack.1 = 0#32 then abandonProcess programStack.2 tmpProcess (- ENOMEM)
  else
    startProcess
      (modifyProcess programStack.2 tmpProcess fun record =>
        { record with
          binaryFile := Libc.strncpy record.binaryFile filename FILESYSTEM_MAX_PATH_LENGTH
          stackPointer := programStack.1
          id := BitVec.ofNat 16 slot })
      tmpProcess slot

/-- `process_load_for_slot`. -/
def processLoadForSlot (kernel : Kernel) (stat : Word) (filename : List Byte) (slot : Nat) : Option Loading :=
  if getProcessById kernel slot ≠ 0#32 then some (abandonProcess kernel 0#32 (- ESRCH))
  else
    let tmpProcess := kzalloc kernel sizeofProcess
    if tmpProcess.1 = 0#32 then some (abandonProcess tmpProcess.2 tmpProcess.1 (- ENOMEM))
    else
      (processLoadBinary (processInit tmpProcess.2 tmpProcess.1) stat filename tmpProcess.1).map fun loaded =>
        if loaded.1 < 0 then abandonProcess loaded.2 tmpProcess.1 loaded.1
        else prepareProcess loaded.2 filename tmpProcess.1 slot

/-- `process_get_free_slot`. -/
def processGetFreeSlot (kernel : Kernel) : Option Nat :=
  (List.range MAX_PROCESSES).find? fun slot => kernel.processes slot = 0#32

theorem processGetFreeSlot_spec {kernel : Kernel} {slot : Nat} (free : processGetFreeSlot kernel = some slot) :
    slot < MAX_PROCESSES ∧ kernel.processes slot = 0#32 := by
  have empty := List.find?_some free
  exact ⟨List.mem_range.mp (List.mem_of_find?_eq_some free), of_decide_eq_true empty⟩

/-- The slot that is taken is empty. -/
theorem processGetFreeSlot_empty {kernel : Kernel} {slot : Nat} (free : processGetFreeSlot kernel = some slot) :
    ¬ getProcessById kernel slot ≠ 0#32 := by
  rcases processGetFreeSlot_spec free with ⟨inside, empty⟩
  unfold getProcessById
  rw [if_neg (by omega), Int.toNat_natCast, not_not]
  exact empty

/-- `load_process`. -/
def loadProcess (kernel : Kernel) (stat : Word) (filename : List Byte) : Option Loading :=
  match processGetFreeSlot kernel with
  | none => some ⟨- ENOMEM, none, kernel⟩
  | some slot => processLoadForSlot kernel stat filename slot

end Tasks
end LarvaOS
