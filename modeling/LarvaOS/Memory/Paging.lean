import LarvaOS.Memory.Kheap

namespace LarvaOS
namespace Memory

/-!
# Paging

An address space is a page directory of 1024 words, each of which refers to a
page table of 1024 words.  All of them are pages of the kernel heap, and a
one-word chunk holds the pointer to the directory.

Nothing here tests the result of an allocation.  When the heap refuses a
table, the loops below write it to address 0, as the source does.
-/

def PAGING_IS_PRESENT : Word := 0b00000001#32
def PAGING_IS_WRITEABLE : Word := 0b00000010#32
def PAGING_ACCESS_FROM_ALL : Word := 0b00000100#32
def pagingTotalEntriesPerTable : Nat := 1024
def pagingPageSize : Nat := 4096

/-- The address of `array[index]` in an array of 32-bit words. -/
def wordAt (array : Word) (index : Nat) : Word := array + BitVec.ofNat 32 (4 * index)

/-- A store to one word. -/
def storeWord (kernel : Kernel) (address value : Word) : Kernel :=
  kernel.withStore { kernel.toStore with words := Function.update kernel.words address value }

def pagingCheckAddressIsAligned (address : Word) : Bool := address.toNat % pagingPageSize == 0

/-! ## Construction and release -/

/-- The first `count` iterations of the inner loop, which maps the table's
pages to themselves. -/
def fillTable (entry offset flags : Word) (kernel : Kernel) : Nat -> Kernel
  | 0 => kernel
  | j + 1 =>
      storeWord (fillTable entry offset flags kernel j) (wordAt entry j)
        ((offset + BitVec.ofNat 32 (j * pagingPageSize)) ||| flags)

/-- The size of a directory or of a table. -/
def tableSize : Word := BitVec.ofNat 32 (4 * pagingTotalEntriesPerTable)

/-- One iteration of the outer loop: a new table in entry `i` of the
directory.  The loop carries the kernel and the offset. -/
def makeTable (directory flags : Word) (i : Nat) (state : Kernel × Word) : Kernel × Word :=
  let entry := kzalloc state.1 tableSize
  let filled := fillTable entry.1 state.2 flags entry.2 pagingTotalEntriesPerTable
  (storeWord filled (wordAt directory i) (entry.1 ||| flags ||| PAGING_IS_WRITEABLE),
    state.2 + BitVec.ofNat 32 (pagingTotalEntriesPerTable * pagingPageSize))

/-- The first `count` iterations of the outer loop. -/
def makeTables (directory flags : Word) (kernel : Kernel) : Nat -> Kernel × Word
  | 0 => (kernel, 0#32)
  | i + 1 => makeTable directory flags i (makeTables directory flags kernel i)

/-- The object that the constructor returns, which refers to the directory. -/
def makeChunk (directory : Word) (kernel : Kernel) : Word × Kernel :=
  let chunk4GB := kzalloc kernel 4#32
  (chunk4GB.1, storeWord chunk4GB.2 chunk4GB.1 directory)

/-- `make_new_4GB_virtual_memory_address_space`. -/
def makeNew4GBVirtualMemoryAddressSpace (kernel : Kernel) (flags : Byte) : Word × Kernel :=
  let directory := kzalloc kernel tableSize
  makeChunk directory.1
    (makeTables directory.1 (flags.setWidth 32) directory.2 pagingTotalEntriesPerTable).1

/-- The first `count` tables of a directory given back to the heap. -/
def releaseTables (page : Word) (kernel : Kernel) : Nat -> Kernel
  | 0 => kernel
  | i + 1 =>
      let kernel := releaseTables page kernel i
      let entry := kernel.words (wordAt (kernel.words page) i)
      kfree kernel (entry &&& 0xFFFFF000#32)

/-- `release_4GB_virtual_memory_address_space`. -/
def release4GBVirtualMemoryAddressSpace (kernel : Kernel) (page : Word) : Kernel :=
  let kernel := releaseTables page kernel 1024
  let kernel := kfree kernel (kernel.words page)
  kfree kernel page

/-! ## Entries -/

/-- `paging_get_indexes`: the result, the directory index and the table index.
The indexes of an unaligned address are the callers' initial zeros. -/
def pagingGetIndexes (virtualAddress : Word) : Int × Nat × Nat :=
  if !pagingCheckAddressIsAligned virtualAddress then (-EINVAL, 0, 0)
  else
    (0, virtualAddress.toNat / (pagingTotalEntriesPerTable * pagingPageSize),
      virtualAddress.toNat % (pagingTotalEntriesPerTable * pagingPageSize) / pagingPageSize)

def pagingSetEntryForVirtualAddress (kernel : Kernel) (page virtualAddress val : Word) : Int × Kernel :=
  if !pagingCheckAddressIsAligned virtualAddress then (-EINVAL, kernel)
  else
    let (res, directoryIndex, tableIndex) := pagingGetIndexes virtualAddress
    if res < 0 then (res, kernel)
    else
      let entry := kernel.words (wordAt (kernel.words page) directoryIndex)
      let table := entry &&& 0xfffff000#32
      (0, storeWord kernel (wordAt table tableIndex) val)

def pagingGetEntryOfAddress (kernel : Kernel) (page virt : Word) : Word :=
  let (_, dirIndex, tableIndex) := pagingGetIndexes virt
  let entry := kernel.words (wordAt (kernel.words page) dirIndex)
  let table := entry &&& 0xFFFFF000#32
  kernel.words (wordAt table tableIndex)

/-! ## Mapping -/

def pagingMapPage (kernel : Kernel) (page virt phys flags : Word) : Int × Kernel :=
  if virt.toNat % pagingPageSize ≠ 0 ∨ phys.toNat % pagingPageSize ≠ 0 then (-EINVAL, kernel)
  else pagingSetEntryForVirtualAddress kernel page virt (phys ||| flags)

/-- `paging_map_memory_by_range`.  The loop is left after the first page that
is mapped without an error. -/
def pagingMapMemoryByRange (page flags : Word) : Nat -> Kernel -> Word -> Word -> Int -> Int × Kernel
  | 0, kernel, _, _, res => (res, kernel)
  | remaining + 1, kernel, virt, phys, _ =>
      let (res, kernel) := pagingMapPage kernel page virt phys flags
      if res = 0 then (res, kernel)
      else
        pagingMapMemoryByRange page flags remaining kernel (virt + BitVec.ofNat 32 pagingPageSize)
          (phys + BitVec.ofNat 32 pagingPageSize) res

def pagingMapVirtualMemory (kernel : Kernel) (page virt phys physEnd flags : Word) : Int × Kernel :=
  if virt.toNat % pagingPageSize ≠ 0 then (-EINVAL, kernel)
  else if phys.toNat % pagingPageSize ≠ 0 then (-EINVAL, kernel)
  else if physEnd.toNat % pagingPageSize ≠ 0 then (-EINVAL, kernel)
  else if physEnd.toNat < phys.toNat then (-EINVAL, kernel)
  else
    let totalBytes := physEnd - phys
    let totalPages := totalBytes.toNat / pagingPageSize
    pagingMapMemoryByRange page flags totalPages kernel virt phys 0

def pagingAlignAddress (pointer : Word) : Word :=
  let unalignedAddressesSize := pointer.toNat % pagingPageSize
  if unalignedAddressesSize > 0 then
    pointer + BitVec.ofNat 32 pagingPageSize - BitVec.ofNat 32 unalignedAddressesSize
  else pointer

/-! ## The active directory -/

/-- `switch_to_page`. -/
def switchToPage (kernel : Kernel) (directory : Word) : Kernel :=
  { kernel with currentDirectory := kernel.words directory }

def switchToKernelPage (kernel : Kernel) : Kernel := switchToPage kernel kernel.kernelDirectory

/-- `paging_install_kernel_page`: only the first page is installed. -/
def pagingInstallKernelPage (kernel : Kernel) (kernelPage : Word) : Kernel :=
  if kernel.kernelDirectory = 0#32 then { kernel with kernelDirectory := kernelPage } else kernel

end Memory
end LarvaOS
