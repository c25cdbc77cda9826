import Mathlib.Logic.Function.Basic
import LarvaOS.Machine.Word

namespace LarvaOS
namespace Memory

/-!
# The block heap

The heap hands out a pool of 4096-byte blocks.  One byte of the entry table
describes one block: the low nibble says whether the block is taken, and two
high bits say whether it begins an allocation and whether the next block
belongs to the same allocation.

`entries` is a C pointer, so the model indexes it by an arbitrary integer.
Indices outside `0 .. total - 1` are the bytes that happen to lie around the
table in memory.  No function stores to them, but `free` reads one when it is
given an address outside the pool, and what it then does depends on that byte.

No table that `heap_create` accepts has 2^20 entries or more, hence `int`
arithmetic on block numbers is exact and stays unbounded here.
-/

def heapBlockTableEntryFree : Byte := 0x00#8
def heapBlockTableEntryTaken : Byte := 0x01#8
def heapBlockHasNext : Byte := 0b10000000#8
def heapBlockIsFirst : Byte := 0b01000000#8
def heapBlockSizeBytes : Nat := 0x00001000

/-- `struct heap_table`. -/
structure HeapTable where
  entries : Int -> Byte
  total : Word

/-- `struct heap`. -/
structure Heap where
  table : HeapTable
  startAddress : Word

/-- The heap after a store to its entry table. -/
def Heap.withEntries (heap : Heap) (entries : Int -> Byte) : Heap :=
  { heap with table := { heap.table with entries := entries } }

@[simp] theorem Heap.withEntries_entries (heap : Heap) (entries : Int -> Byte) :
    (heap.withEntries entries).table.entries = entries := rfl

@[simp] theorem Heap.withEntries_total (heap : Heap) (entries : Int -> Byte) :
    (heap.withEntries entries).table.total = heap.table.total := rfl

@[simp] theorem Heap.withEntries_startAddress (heap : Heap) (entries : Int -> Byte) :
    (heap.withEntries entries).startAddress = heap.startAddress := rfl

/-! ## Creation -/

def heapValidateAlignment (pointer : Word) : Bool :=
  pointer.toNat % heapBlockSizeBytes == 0

/-- The difference of the two pointers is taken in 32 bits. -/
def heapValidateTable (start stop : Word) (table : HeapTable) : Int :=
  let tableSize := stop - start
  let totalBlock := tableSize.toNat / heapBlockSizeBytes
  if table.total.toNat ≠ totalBlock then -EINVAL else 0

/-- The value `(value + 4095) / 4096 * 4096` as the source computes it: the
last addition wraps for sizes within 4095 bytes of 2^32. -/
def alignValueToUpper (value : Word) : Word :=
  let remainder := value.toNat % heapBlockSizeBytes
  if remainder = 0 then value
  else value - BitVec.ofNat 32 remainder + BitVec.ofNat 32 heapBlockSizeBytes

def heapGetEntryType (entry : Byte) : Byte := entry &&& 0x0F#8

def blockEntryIsFree (entry : Byte) : Bool :=
  heapGetEntryType entry == heapBlockTableEntryFree

def blockHasNextBlock (entry : Byte) : Bool := entry &&& heapBlockHasNext != 0#8

/-- `memset` over the entry table. -/
def clearEntries (entries : Int -> Byte) (total : Nat) : Int -> Byte :=
  fun i => if 0 ≤ i ∧ i < total then heapBlockTableEntryFree else entries i

/-- `heap_create`.  The heap record is filled in before the table is
validated, and a misaligned pool leaves it untouched. -/
def heapCreate (heap : Heap) (start stop : Word) (table : HeapTable) : Int × Heap :=
  if !heapValidateAlignment start || !heapValidateAlignment stop then (-EINVAL, heap)
  else
    let heap : Heap := { table := table, startAddress := start }
    let result := heapValidateTable start stop table
    if result < 0 then (result, heap)
    else (result, heap.withEntries (clearEntries table.entries table.total.toNat))

/-! ## Blocks and addresses -/

def getPhysicalAddressFromBlockNumber (heap : Heap) (num : Int) : Word :=
  if num < 0 ∨ (intToWord num).toNat > (heap.table.total - 1#32).toNat then 0#32
  else heap.startAddress + intToWord (num * heapBlockSizeBytes)

/-- The difference is cast to `int` before it is divided, so the block number
of an address 2^31 bytes or more above the start of the pool is negative. -/
def getBlockNumberFromPhysicalAddress (heap : Heap) (address : Word) : Int :=
  (wordToInt (address - heap.startAddress)).tdiv heapBlockSizeBytes

/-! ## Marking -/

/-- The body of `mark_blocks_taken` after its first entry. -/
def markBlocksTakenLoop (endBlock : Int) : Nat -> Int -> (Int -> Byte) -> Int -> Byte
  | 0, _, entries => entries
  | remaining + 1, i, entries =>
      let entries := Function.update entries i heapBlockTableEntryTaken
      let entries :=
        if i ≠ endBlock then Function.update entries i (entries i ||| heapBlockHasNext)
        else entries
      markBlocksTakenLoop endBlock remaining (i + 1) entries

def markBlocksTaken (heap : Heap) (startBlock size : Int) : Int × Heap :=
  let last := (heap.table.total - 1#32).toNat
  if (intToWord startBlock).toNat > last then (-EINVAL, heap)
  else
    let endBlock := startBlock + size - 1
    let endBlock : Int := if (intToWord endBlock).toNat > last then last else endBlock
    let entries := Function.update heap.table.entries startBlock
      (heapBlockTableEntryTaken ||| heapBlockIsFirst)
    let entries :=
      if size > 1 then
        Function.update entries startBlock (entries startBlock ||| heapBlockHasNext)
      else entries
    let entries := markBlocksTakenLoop endBlock (endBlock - startBlock).toNat (startBlock + 1) entries
    (0, heap.withEntries entries)

/-- The backward search of `mark_blocks_free`.  Its counter is an `int` that
is only decremented and compared with zero, and is given here by its bit
pattern.  The entry tested is that of the block to be freed, never that of the
counter. -/
def findFirstBlock (entries : Int -> Byte) (num : Int) : Nat -> Nat
  | 0 => 0
  | counter + 1 =>
      if entries num &&& heapBlockIsFirst != 0#8 then counter + 1
      else findFirstBlock entries num counter

/-- The forward walk of `mark_blocks_free`: clear entries up to and including
the first without a successor. -/
def markBlocksFreeLoop : Nat -> Int -> (Int -> Byte) -> Int -> Byte
  | 0, _, entries => entries
  | remaining + 1, i, entries =>
      let entry := entries i
      let entries := Function.update entries i heapBlockTableEntryFree
      if !blockHasNextBlock entry then entries
      else markBlocksFreeLoop remaining (i + 1) entries

/-- `mark_blocks_free`.  The loop bound compares the counter with a `size_t`,
so a negative counter ends the walk before its first step. -/
def markBlocksFree (heap : Heap) (num : Int) : Heap :=
  let first := findFirstBlock heap.table.entries num (intToWord num).toNat
  let remaining := heap.table.total.toNat - first
  heap.withEntries (markBlocksFreeLoop remaining first heap.table.entries)

/-! ## Allocation -/

/-- The search loop of `get_free_blocks`, from index `i` on; it returns the
final values of `free_block_count` and `block_number`. -/
def getFreeBlocksLoop (entries : Int -> Byte) (size : Nat) : Nat -> Nat -> Nat -> Int -> Nat × Int
  | 0, _, count, blockNumber => (count, blockNumber)
  | remaining + 1, i, count, blockNumber =>
      if blockEntryIsFree (entries i) then
        let blockNumber := if blockNumber = -ENOMEM then (i : Int) else blockNumber
        let count := count + 1
        if count = size then (count, blockNumber)
        else getFreeBlocksLoop entries size remaining (i + 1) count blockNumber
      else getFreeBlocksLoop entries size remaining (i + 1) 0 (-ENOMEM)

def getFreeBlocks (heap : Heap) (size : Nat) : Int :=
  let result := getFreeBlocksLoop heap.table.entries size heap.table.total.toNat 0 0 (-ENOMEM)
  if result.1 ≠ size then -ENOMEM else result.2

def mallocBlocks (heap : Heap) (size : Nat) : Word × Heap :=
  let startBlock := getFreeBlocks heap size
  if startBlock < 0 then (0#32, heap)
  else (getPhysicalAddressFromBlockNumber heap startBlock, (markBlocksTaken heap startBlock size).2)

def malloc (heap : Heap) (size : Word) : Word × Heap :=
  let alignedSize := alignValueToUpper size
  let totalBlocks := alignedSize.toNat / heapBlockSizeBytes
  mallocBlocks heap totalBlocks

def free (heap : Heap) (pointer : Word) : Heap :=
  markBlocksFree heap (getBlockNumberFromPhysicalAddress heap pointer)

end Memory
end LarvaOS
