import LarvaOS.Memory.HeapSpec

namespace LarvaOS

/-!
# The state of the kernel

Memory is seen through one map for each kind of object, indexed by the address
at which the object begins.  Two objects of different kinds never share an
allocation in the source, except through a stale pointer, and `kzalloc` clears
the memory it returns in every view.  Page directories, page tables and the
one-word `struct paging_4GB_chunk` are read through the same map of words,
because the release of an address space follows whatever pointers it finds
there.  Strings, directory entries and program images are raw bytes.

No page of the kernel is unmapped, hence a store through `NULL` is a store at
address 0 and not a fault.

Console output is left out, and so is `memory_allocations` of `struct process`,
which no function reads.  The kernel has a single disk and a single file
system, so a pointer to either is not stored with each object that has one.
-/

/-- `struct registers`. -/
structure Registers where
  edi : Word
  esi : Word
  ebp : Word
  ebx : Word
  edx : Word
  ecx : Word
  eax : Word
  ip : Word
  cs : Word
  flags : Word
  esp : Word
  ss : Word
deriving DecidableEq

def Registers.zero : Registers := ⟨0, 0, 0, 0, 0, 0, 0, 0, 0, 0, 0, 0⟩

/-- `struct task`. -/
structure Task where
  pageDirectory : Word
  registers : Registers
  next : Word
  prev : Word
  proc : Word
deriving DecidableEq

def Task.zero : Task := ⟨0, Registers.zero, 0, 0, 0⟩

/-- `struct process`. -/
structure Process where
  id : BitVec 16
  binaryFile : Nat -> Byte
  task : Word
  physicalPointer : Word
  size : Word
  stackPointer : Word

def Process.zero : Process := ⟨0, fun _ => 0, 0, 0, 0, 0⟩

/-- `struct file_descriptor`. -/
structure FileDescriptor where
  index : Int
  p : Word
deriving DecidableEq

def FileDescriptor.zero : FileDescriptor := ⟨0, 0⟩

/-- `struct fat_file_descriptor`. -/
structure FatFileDescriptor where
  item : Word
  pos : Word
deriving DecidableEq

def FatFileDescriptor.zero : FatFileDescriptor := ⟨0, 0⟩

/-- `struct fat_item`.  The union is one pointer, to a directory entry or to a
directory. -/
structure FatItem where
  pointer : Word
  type : Word
deriving DecidableEq

def FatItem.zero : FatItem := ⟨0, 0⟩

/-- `struct fat_directory`. -/
structure FatDirectory where
  item : Word
  total : Int
  sectorPos : Int
  endingSectorPos : Int
deriving DecidableEq

def FatDirectory.zero : FatDirectory := ⟨0, 0, 0, 0⟩

/-- `struct fat_private_data`.  The packed header is kept as its bytes. -/
structure FatPrivateData where
  header : Nat -> Byte
  rootDir : FatDirectory
  clusterReadStream : Word
  fatReadStream : Word
  directoryStream : Word

def FatPrivateData.zero : FatPrivateData := ⟨fun _ => 0, FatDirectory.zero, 0, 0, 0⟩

/-- The objects in memory. -/
structure Store where
  words : Word -> Word
  bytes : Word -> Byte
  tasks : Word -> Task
  processRecords : Word -> Process
  fileDescriptorRecords : Word -> FileDescriptor
  fatFileDescriptors : Word -> FatFileDescriptor
  fatItems : Word -> FatItem
  fatDirectories : Word -> FatDirectory
  fatPrivates : Word -> FatPrivateData
  streamPositions : Word -> Int

/-- A memory of zeros. -/
def Store.blank : Store where
  words := fun _ => 0
  bytes := fun _ => 0
  tasks := fun _ => Task.zero
  processRecords := fun _ => Process.zero
  fileDescriptorRecords := fun _ => FileDescriptor.zero
  fatFileDescriptors := fun _ => FatFileDescriptor.zero
  fatItems := fun _ => FatItem.zero
  fatDirectories := fun _ => FatDirectory.zero
  fatPrivates := fun _ => FatPrivateData.zero
  streamPositions := fun _ => 0

/-- The two stores hold the same objects at this address. -/
structure Store.SameAt (store store' : Store) (address : Word) : Prop where
  words : store'.words address = store.words address
  bytes : store'.bytes address = store.bytes address
  tasks : store'.tasks address = store.tasks address
  processRecords : store'.processRecords address = store.processRecords address
  fileDescriptorRecords : store'.fileDescriptorRecords address = store.fileDescriptorRecords address
  fatFileDescriptors : store'.fatFileDescriptors address = store.fatFileDescriptors address
  fatItems : store'.fatItems address = store.fatItems address
  fatDirectories : store'.fatDirectories address = store.fatDirectories address
  fatPrivates : store'.fatPrivates address = store.fatPrivates address
  streamPositions : store'.streamPositions address = store.streamPositions address

namespace Store.SameAt

variable {store store' store'' : Store} {address : Word}

theorem refl (store : Store) (address : Word) : store.SameAt store address :=
  ⟨rfl, rfl, rfl, rfl, rfl, rfl, rfl, rfl, rfl, rfl⟩

theorem trans (first : store.SameAt store' address) (second : store'.SameAt store'' address) :
    store.SameAt store'' address where
  words := second.words.trans first.words
  bytes := second.bytes.trans first.bytes
  tasks := second.tasks.trans first.tasks
  processRecords := second.processRecords.trans first.processRecords
  fileDescriptorRecords := second.fileDescriptorRecords.trans first.fileDescriptorRecords
  fatFileDescriptors := second.fatFileDescriptors.trans first.fatFileDescriptors
  fatItems := second.fatItems.trans first.fatItems
  fatDirectories := second.fatDirectories.trans first.fatDirectories
  fatPrivates := second.fatPrivates.trans first.fatPrivates
  streamPositions := second.streamPositions.trans first.streamPositions

end Store.SameAt

/-- The two stores hold the same objects at this address, wherever the streams
of the disk stand. -/
structure Store.SameObjects (store store' : Store) (address : Word) : Prop where
  words : store'.words address = store.words address
  bytes : store'.bytes address = store.bytes address
  tasks : store'.tasks address = store.tasks address
  processRecords : store'.processRecords address = store.processRecords address
  fileDescriptorRecords : store'.fileDescriptorRecords address = store.fileDescriptorRecords address
  fatFileDescriptors : store'.fatFileDescriptors address = store.fatFileDescriptors address
  fatItems : store'.fatItems address = store.fatItems address
  fatDirectories : store'.fatDirectories address = store.fatDirectories address
  fatPrivates : store'.fatPrivates address = store.fatPrivates address

namespace Store.SameObjects

variable {store store' store'' : Store} {address : Word}

theorem refl (store : Store) (address : Word) : store.SameObjects store address :=
  ⟨rfl, rfl, rfl, rfl, rfl, rfl, rfl, rfl, rfl⟩

theorem trans (first : store.SameObjects store' address) (second : store'.SameObjects store'' address) :
    store.SameObjects store'' address where
  words := second.words.trans first.words
  bytes := second.bytes.trans first.bytes
  tasks := second.tasks.trans first.tasks
  processRecords := second.processRecords.trans first.processRecords
  fileDescriptorRecords := second.fileDescriptorRecords.trans first.fileDescriptorRecords
  fatFileDescriptors := second.fatFileDescriptors.trans first.fatFileDescriptors
  fatItems := second.fatItems.trans first.fatItems
  fatDirectories := second.fatDirectories.trans first.fatDirectories
  fatPrivates := second.fatPrivates.trans first.fatPrivates

end Store.SameObjects

theorem Store.SameAt.objects {store store' : Store} {address : Word} (same : store.SameAt store' address) :
    store.SameObjects store' address :=
  ⟨same.words, same.bytes, same.tasks, same.processRecords, same.fileDescriptorRecords, same.fatFileDescriptors,
    same.fatItems, same.fatDirectories, same.fatPrivates⟩

/-- The memory between `pointer` and `pointer + size` set to zero in one view. -/
def fillZero {Object : Type} (zero : Object) (pointer size : Word) (objects : Word -> Object) :
    Word -> Object :=
  fun address => if (address - pointer).toNat < size.toNat then zero else objects address

/-- `memset(pointer, 0, size)`. -/
def Store.fillZero (store : Store) (pointer size : Word) : Store where
  words := LarvaOS.fillZero 0 pointer size store.words
  bytes := LarvaOS.fillZero 0 pointer size store.bytes
  tasks := LarvaOS.fillZero Task.zero pointer size store.tasks
  processRecords := LarvaOS.fillZero Process.zero pointer size store.processRecords
  fileDescriptorRecords := LarvaOS.fillZero FileDescriptor.zero pointer size store.fileDescriptorRecords
  fatFileDescriptors := LarvaOS.fillZero FatFileDescriptor.zero pointer size store.fatFileDescriptors
  fatItems := LarvaOS.fillZero FatItem.zero pointer size store.fatItems
  fatDirectories := LarvaOS.fillZero FatDirectory.zero pointer size store.fatDirectories
  fatPrivates := LarvaOS.fillZero FatPrivateData.zero pointer size store.fatPrivates
  streamPositions := LarvaOS.fillZero 0 pointer size store.streamPositions

/-- Zeroing leaves the memory outside the range as it was. -/
theorem Store.fillZero_sameAt (store : Store) {pointer size address : Word}
    (outside : ¬ (address - pointer).toNat < size.toNat) :
    store.SameAt (store.fillZero pointer size) address := by
  constructor <;> exact if_neg outside

/-- `struct disk`, as far as it changes. -/
structure DiskRecord where
  fs : Bool
  fsPrivateData : Word
deriving DecidableEq

/-- The global variables of the kernel and the contents of its disk.  `stray`
stands for the bytes that lie around a stack buffer. -/
structure Globals where
  fileDescriptors : Nat -> Word
  processes : Nat -> Word
  headTask : Word
  tailTask : Word
  currentTask : Word
  kernelDirectory : Word
  currentDirectory : Word
  disk : DiskRecord
  sectors : Int -> Nat -> Byte
  stray : Int -> Byte

/-- The kernel: its memory, its global variables and its heap.  `refused`
counts the requests that the heap could not serve; no function reads it. -/
structure Kernel extends Store, Globals where
  heap : Memory.Heap
  refused : Nat

namespace Kernel

/-- A kernel with another memory. -/
def withStore (kernel : Kernel) (store : Store) : Kernel := { kernel with toStore := store }

/-- The kernel as it is loaded: its static data is zero, and nothing is known
about the memory, the disk or the stack. -/
def loaded (store : Store) (sectors : Int -> Nat -> Byte) (stray : Int -> Byte) : Kernel where
  toStore := store
  heap := ⟨⟨fun _ => 0, 0⟩, 0⟩
  fileDescriptors := fun _ => 0
  processes := fun _ => 0
  headTask := 0
  tailTask := 0
  currentTask := 0
  kernelDirectory := 0
  currentDirectory := 0
  disk := ⟨false, 0⟩
  sectors := sectors
  stray := stray
  refused := 0

def withHeap (kernel : Kernel) (heap : Memory.Heap) : Kernel := { kernel with heap := heap }

@[simp] theorem withStore_toStore (kernel : Kernel) (store : Store) : (kernel.withStore store).toStore = store := rfl

@[simp] theorem withStore_toGlobals (kernel : Kernel) (store : Store) :
    (kernel.withStore store).toGlobals = kernel.toGlobals := rfl

@[simp] theorem withStore_heap (kernel : Kernel) (store : Store) : (kernel.withStore store).heap = kernel.heap := rfl

@[simp] theorem withHeap_toStore (kernel : Kernel) (heap : Memory.Heap) :
    (kernel.withHeap heap).toStore = kernel.toStore := rfl

@[simp] theorem withHeap_toGlobals (kernel : Kernel) (heap : Memory.Heap) :
    (kernel.withHeap heap).toGlobals = kernel.toGlobals := rfl

@[simp] theorem withHeap_heap (kernel : Kernel) (heap : Memory.Heap) : (kernel.withHeap heap).heap = heap := rfl

end Kernel

end LarvaOS
