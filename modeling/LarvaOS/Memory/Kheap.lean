import LarvaOS.Kernel.State

namespace LarvaOS
namespace Memory

/-!
# The kernel heap

`kheap_init` creates the kernel's only heap, of 100 megabytes at `0x01000000`,
with its entry table at `0x7E00`.
-/

def KERNEL_HEAP_SIZE_BYTES : Word := 0x06400000#32
def KERNEL_HEAP_START_ADDRESS : Word := 0x01000000#32

/-- `kheap_init`.  The argument is the memory around and under the table. -/
def kheapInit (kernel : Kernel) (entries : Int -> Byte) : Kernel :=
  let table : HeapTable :=
    { entries := entries
      total := BitVec.ofNat 32 (KERNEL_HEAP_SIZE_BYTES.toNat / heapBlockSizeBytes) }
  kernel.withHeap (heapCreate kernel.heap KERNEL_HEAP_START_ADDRESS
    (KERNEL_HEAP_START_ADDRESS + KERNEL_HEAP_SIZE_BYTES) table).2

/-- The pool of the kernel heap, whatever its entry table holds. -/
structure Heap.IsKernelHeap (heap : Heap) : Prop where
  start : heap.startAddress = KERNEL_HEAP_START_ADDRESS
  total : heap.table.total = 25600#32

def kmalloc (kernel : Kernel) (size : Word) : Word × Kernel :=
  let result := malloc kernel.heap size
  (result.1,
    { kernel with
      heap := result.2
      refused := if result.1 = 0#32 then kernel.refused + 1 else kernel.refused })

def kzalloc (kernel : Kernel) (size : Word) : Word × Kernel :=
  let (pointer, kernel) := kmalloc kernel size
  if pointer = 0#32 then (pointer, kernel)
  else (pointer, kernel.withStore (kernel.toStore.fillZero pointer size))

def kfree (kernel : Kernel) (pointer : Word) : Kernel :=
  kernel.withHeap (free kernel.heap pointer)

/-- The pointer is the one that the heap hands out. -/
theorem kzalloc_pointer (kernel : Kernel) (size : Word) : (kzalloc kernel size).1 = (malloc kernel.heap size).1 := by
  simp only [kzalloc, kmalloc]
  split <;> rfl

theorem kzalloc_heap (kernel : Kernel) (size : Word) : (kzalloc kernel size).2.heap = (malloc kernel.heap size).2 := by
  simp only [kzalloc, kmalloc]
  split <;> rfl

theorem kzalloc_globals (kernel : Kernel) (size : Word) :
    (kzalloc kernel size).2.toGlobals = kernel.toGlobals := by
  simp only [kzalloc, kmalloc]
  split <;> rfl

/-- The refusals are counted. -/
theorem kzalloc_refused_count (kernel : Kernel) (size : Word) :
    (kzalloc kernel size).2.refused =
      kernel.refused + if (kzalloc kernel size).1 = 0#32 then 1 else 0 := by
  simp only [kzalloc, kmalloc]
  by_cases null : (malloc kernel.heap size).1 = 0#32
  · simp only [null, if_true]
  · simp only [null, if_false]
    rfl

/-- A request clears records, if anything. -/
theorem kzalloc_records (kernel : Kernel) (size address : Word) :
    (kzalloc kernel size).2.processRecords address = kernel.processRecords address ∨
      (kzalloc kernel size).2.processRecords address = Process.zero := by
  simp only [kzalloc, kmalloc]
  by_cases null : (malloc kernel.heap size).1 = 0#32
  · simp only [null, if_true]
    exact Or.inl trivial
  · simp only [null, if_false]
    by_cases inside : (address - (malloc kernel.heap size).1).toNat < size.toNat
    · exact Or.inr (if_pos inside)
    · exact Or.inl (if_neg inside)

/-- The kernel heap is accepted, and its blocks are all free. -/
theorem kheapInit_heap (kernel : Kernel) (entries : Int -> Byte) :
    (kheapInit kernel entries).heap =
      { table := { entries := clearEntries entries 25600, total := 25600#32 }
        startAddress := KERNEL_HEAP_START_ADDRESS } := by
  have accepted : (heapCreate kernel.heap KERNEL_HEAP_START_ADDRESS
      (KERNEL_HEAP_START_ADDRESS + KERNEL_HEAP_SIZE_BYTES) ⟨entries, 25600#32⟩).1 = 0 := rfl
  exact (heapCreate_accepted accepted).2.2.2

end Memory
end LarvaOS
