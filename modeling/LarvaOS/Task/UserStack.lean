import LarvaOS.Task.LoadFile

namespace LarvaOS
namespace Tasks

open Fs Library Memory

/-!
# The stack of a process

A new task starts with a stack pointer at the end of four pages below the image.
The load allocates four pages for them, and stores where they are in the record
of the process.  Nothing maps them: the pages below the stack pointer stay mapped
to themselves, and may only be read.
-/

/-- The pages of a stack. -/
def stackPages : Nat := USER_PROGRAM_STACK_SIZE.toNat / pagingPageSize

/-- The entry that the address space of a process has for a page of the stack. -/
def stackEntry (kernel : Kernel) (process : Word) (page : Nat) : Word :=
  pagingGetEntryOfAddress kernel (kernel.tasks (kernel.processRecords process).task).pageDirectory
    (pageAfter PROGRAM_VIRTUAL_STACK_ADDRESS_END page)

/-- The process may write to its stack, and finds its own allocation there. -/
structure StackMapped (kernel : Kernel) (process : Word) : Prop where
  esp : (kernel.tasks (kernel.processRecords process).task).registers.esp = PROGRAM_VIRTUAL_STACK_ADDRESS_START
  writable : forall page, page < stackPages -> stackEntry kernel process page &&& 0b111#32 = 0b111#32
  own : forall page, page < stackPages -> stackEntry kernel process page &&& 0xFFFFF000#32 =
    pageAfter (kernel.processRecords process).stackPointer page

/-- The stack lies below the image. -/
theorem imageMap_stack (physicalPointer size : Word) {page : Nat} (inside : page < stackPages) :
    imageMap physicalPointer size (pageAfter PROGRAM_VIRTUAL_STACK_ADDRESS_END page) =
      (pageAfter PROGRAM_VIRTUAL_STACK_ADDRESS_END page ||| 0b101#32) := by
  have below : pageAfter PROGRAM_VIRTUAL_STACK_ADDRESS_END page ≠ PROGRAM_VIRTUAL_ADDRESS := by
    intro same
    have place := congrArg BitVec.toNat same
    have pages : stackPages = 4 := by decide
    have stack : PROGRAM_VIRTUAL_STACK_ADDRESS_END.toNat = 0x3FB000 := by decide
    have program : PROGRAM_VIRTUAL_ADDRESS.toNat = 0x400000 := by decide
    rw [pages] at inside
    rw [toNat_pageAfter inside (by rw [stack]; decide), stack, program] at place
    unfold pagingPageSize at place
    omega
  unfold imageMap
  split
  · rfl
  · exact Function.update_of_ne below _ _

/-- Each page of the stack is mapped to itself, for reading. -/
theorem loadProcess_stackEntry {kernel : Kernel} (kernelHeap : kernel.heap.IsKernelHeap) {stat process : Word}
    {filename : List Byte} {loading : Loading} (loads : loadProcess kernel stat filename = some loading)
    (stored : loading.process = some process) {page : Nat} (inside : page < stackPages) :
    stackEntry loading.kernel process page = (pageAfter PROGRAM_VIRTUAL_STACK_ADDRESS_END page ||| 0b101#32) := by
  rcases loadProcess_started kernelHeap loads stored with ⟨before, slot, task, blocks, _, started⟩
  have aligned : (pageAfter PROGRAM_VIRTUAL_STACK_ADDRESS_END page).toNat % pagingPageSize = 0 :=
    pageAfter_aligned inside (by decide) (by decide)
  have entry := started.space.getEntry (by decide) aligned
  unfold stackEntry
  rw [started.record, entry, imageMap_stack _ _ inside]

/-- No load that succeeds gives the process a stack. -/
theorem loadProcess_neverMapsStack {kernel : Kernel} (kernelHeap : kernel.heap.IsKernelHeap) {stat process : Word}
    {filename : List Byte} {loading : Loading} (loads : loadProcess kernel stat filename = some loading)
    (stored : loading.process = some process) : ¬ StackMapped loading.kernel process := by
  intro mapped
  have lowest : 0 < stackPages := by decide
  have writable := mapped.writable 0 lowest
  rw [loadProcess_stackEntry kernelHeap loads stored lowest] at writable
  exact absurd writable (by decide)

/-- The load of a file of a hundred bytes. -/
theorem loadProcess_neverMapsStack_file : exists booted loading process, boot fileVolume (fun _ => 0#8) = some booted ∧
    loadProcess booted 0x1FF000#32 [forwardSlash, 0x41#8] = some loading ∧ loading.process = some process ∧
      ¬ StackMapped loading.kernel process := by
  rcases @fileVolume_loads 0x1FF000#32 (by decide) with ⟨booted, loading, process, boots, loads, _, stored, _⟩
  exact ⟨booted, loading, process, boots, loads, stored,
    loadProcess_neverMapsStack (boot_booted boots).kernelHeap loads stored⟩

/-- The lowest page of its stack. -/
theorem fileVolume_stack_readOnly : exists booted loading process, boot fileVolume (fun _ => 0#8) = some booted ∧
    loadProcess booted 0x1FF000#32 [forwardSlash, 0x41#8] = some loading ∧ loading.res = 0 ∧
      loading.process = some process ∧ stackEntry loading.kernel process 0 = 0x3FB005#32 ∧
        ¬ StackMapped loading.kernel process := by
  rcases @fileVolume_loads 0x1FF000#32 (by decide) with ⟨booted, loading, process, boots, loads, succeeds, stored, _⟩
  have entry := loadProcess_stackEntry (boot_booted boots).kernelHeap loads stored (show 0 < stackPages by decide)
  refine ⟨booted, loading, process, boots, loads, succeeds, stored, entry.trans (by decide), fun mapped => ?_⟩
  have writable := mapped.writable 0 (by decide)
  rw [entry] at writable
  exact absurd writable (by decide)

end Tasks
end LarvaOS
