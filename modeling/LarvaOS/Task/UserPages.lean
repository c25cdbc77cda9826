import LarvaOS.Task.CopyRestores
import LarvaOS.Task.ProcessTable

namespace LarvaOS
namespace Tasks

open Fs Library Memory PageWalk

/-!
# The pages that programs can store to

The address space of a process maps every page to itself, without write access in
ring 3, and the first page of the program to its image.  The image is an allocation
of its own.  Hence no program can store to a page of another program, to a page
table, or to any other allocation of the kernel heap.

`Isolated` names the allocations of every process.  It holds after the boot, and both
a load and a copy from a task keep it.
-/

/-! ## User pages -/

/-- The slot holds a process. -/
def Occupied (kernel : Kernel) (slot : Nat) : Prop := slot < MAX_PROCESSES ∧ kernel.processes slot ≠ 0#32

/-- The record of the process in the slot. -/
def slotProcess (kernel : Kernel) (slot : Nat) : Process := kernel.processRecords (kernel.processes slot)

/-- The address space of the process in the slot. -/
def slotPage (kernel : Kernel) (slot : Nat) : Word := (kernel.tasks (slotProcess kernel slot).task).pageDirectory

/-- A place that the process in the slot can store to in ring 3. -/
def UserPlace (kernel : Kernel) (slot : Nat) (place : Word) : Prop :=
  exists virt, userWritable kernel.words (kernel.words (slotPage kernel slot)) virt = true ∧
    translate kernel.words (kernel.words (slotPage kernel slot)) virt = some place

/-- A place in the image of a process, rounded up to pages. -/
def InImage (process : Process) (place : Word) : Prop :=
  process.physicalPointer.toNat ≤ place.toNat ∧
    place.toNat < (pagingAlignAddress (process.physicalPointer + process.size)).toNat

/-- A place in the pages that hold the chunk, the directory and the tables. -/
def InPageStructures (kernel : Kernel) (page place : Word) : Prop :=
  (place - page).toNat < pagingPageSize ∨ (place - kernel.words page).toNat < pagingPageSize ∨
    exists i, i < 1024 ∧
      (place - (kernel.words (wordAt (kernel.words page) i) &&& 0xfffff000#32)).toNat < pagingPageSize

/-- What programs can store to is theirs alone. -/
structure UserPagesOwn (kernel : Kernel) : Prop where
  image : forall slot virt, Occupied kernel slot ->
    userWritable kernel.words (kernel.words (slotPage kernel slot)) virt = true ->
      exists place, translate kernel.words (kernel.words (slotPage kernel slot)) virt = some place ∧
        InImage (slotProcess kernel slot) place
  distinct : forall left right place, Occupied kernel left -> Occupied kernel right -> UserPlace kernel left place ->
    UserPlace kernel right place -> left = right
  alone : forall slot place, Occupied kernel slot -> UserPlace kernel slot place -> forall extent,
    kernel.heap.Owns extent -> kernel.heap.InExtent extent place ->
      (slotProcess kernel slot).physicalPointer = kernel.heap.addressOf extent.first
  records : forall slot other place, Occupied kernel slot -> Occupied kernel other -> UserPlace kernel slot place ->
    forall extent, kernel.heap.Owns extent -> (kernel.heap.addressOf extent.first = kernel.processes other ∨
      kernel.heap.addressOf extent.first = (slotProcess kernel other).task) -> ¬ kernel.heap.InExtent extent place
  pages : forall slot other place, Occupied kernel slot -> Occupied kernel other -> UserPlace kernel slot place ->
    ¬ InPageStructures kernel (slotPage kernel other) place
  kernelPages : forall slot place, Occupied kernel slot -> UserPlace kernel slot place ->
    ¬ InPageStructures kernel kernel.kernelDirectory place

/-! ## Pages of an address space -/

/-- A place of the page that begins at the address of an owned block. -/
theorem inExtent_single_iff {heap : Heap} (placed : heap.WellPlaced) {block : Nat}
    (owned : heap.Owns (Extent.single block)) (place : Word) :
    (place - heap.addressOf block).toNat < pagingPageSize ↔ heap.InExtent (Extent.single block) place := by
  constructor
  · intro inside
    apply placed.inExtent_of_page owned
    change _ < 4096 * 1
    rw [Nat.mul_one]
    exact inside
  · rintro ⟨lower, upper⟩
    have base := placed.toNat_addressOf owned.address_inside
    change _ < heap.startAddress.toNat + heapBlockSizeBytes * (block + 1) at upper
    change heap.startAddress.toNat + heapBlockSizeBytes * block ≤ _ at lower
    change (heap.addressOf block).toNat = heap.startAddress.toNat + heapBlockSizeBytes * block at base
    rw [BitVec.toNat_sub_of_le (show (heap.addressOf block).toNat ≤ place.toNat by omega), base]
    unfold heapBlockSizeBytes pagingPageSize at *
    omega

theorem inPageStructures_iff {kernel : Kernel} {page flags : Word} {blocks : SpaceBlocks}
    (space : SpaceAt kernel page flags blocks) (placed : kernel.heap.WellPlaced) (low : flags.toNat < 256) (place : Word) :
    InPageStructures kernel page place ↔ InSpace kernel.heap blocks place := by
  have chunk := inExtent_single_iff placed space.chunkOwned place
  have directory := inExtent_single_iff placed space.directoryOwned place
  rw [← space.pageAddress] at chunk
  rw [← space.chunkWord] at directory
  have table (i : Nat) (inside : i < 1024) := inExtent_single_iff placed (space.tableOwned inside) place
  constructor
  · rintro (inChunk | inDirectory | ⟨i, inside, inTable⟩)
    · exact ⟨_, Or.inl rfl, chunk.mp inChunk⟩
    · exact ⟨_, Or.inr (Or.inl rfl), directory.mp inDirectory⟩
    · rw [space.tablePointer placed low inside] at inTable
      exact ⟨_, Or.inr (Or.inr ⟨i, inside, rfl⟩), (table i inside).mp inTable⟩
  · rintro ⟨block, rfl | rfl | ⟨i, inside, rfl⟩, inBlock⟩
    · exact Or.inl (chunk.mpr inBlock)
    · exact Or.inr (Or.inl (directory.mpr inBlock))
    · refine Or.inr (Or.inr ⟨i, inside, ?_⟩)
      rw [space.tablePointer placed low inside]
      exact (table i inside).mpr inBlock

/-- A store in ring 3 needs the flags of the entry for its page. -/
theorem userEntry_space {kernel : Kernel} {page flags : Word} {blocks : SpaceBlocks}
    (space : SpaceAt kernel page flags blocks) (placed : kernel.heap.WellPlaced) (low : flags.toNat < 256) {virt : Word}
    (writable : userWritable kernel.words (kernel.words page) virt = true) :
    userEntry (kernel.words (blocks.entryAddress kernel.heap virt)) = true := by
  have inside := Memory.directoryIndex_lt virt
  have entry := space.directoryWord _ inside
  rw [BitVec.or_assoc, ← space.chunkWord] at entry
  have flagsLow : (flags ||| PAGING_IS_WRITEABLE).toNat < 4096 := by
    rw [BitVec.toNat_or]
    exact Nat.lt_trans (@Nat.or_lt_two_pow _ _ 8 low (by decide)) (by decide)
  exact userEntry_of_userWritable entry (placed.addressOf_aligned (space.tableOwned inside).address_inside) flagsLow writable

/-! ## The processes and their allocations -/

/-- The allocations of a process. -/
structure ProcessBlocks where
  record : Extent
  task : TaskBlocks
  image : Extent

/-- An allocation of the process that is not its image. -/
def ProcessBlocks.Holds (blocks : ProcessBlocks) (extent : Extent) : Prop :=
  extent = blocks.record ∨ exists block, blocks.task.Has block ∧ extent = Extent.single block

/-- The process in a slot, in memory. -/
structure ProcessAt (kernel : Kernel) (slot : Nat) (blocks : ProcessBlocks) : Prop where
  recordOwned : kernel.heap.Owns blocks.record
  recordAddress : kernel.processes slot = kernel.heap.addressOf blocks.record.first
  task : TaskAt kernel (slotProcess kernel slot).task blocks.task
  map : Represents kernel (slotPage kernel slot) 0b101#32 blocks.task.space
    (imageMap (slotProcess kernel slot).physicalPointer (slotProcess kernel slot).size)
  imageOwned : kernel.heap.Owns blocks.image
  imageAddress : (slotProcess kernel slot).physicalPointer = kernel.heap.addressOf blocks.image.first

namespace ProcessAt

variable {kernel : Kernel} {slot : Nat} {blocks : ProcessBlocks} (process : ProcessAt kernel slot blocks)
include process

theorem owned {extent : Extent} (holds : blocks.Holds extent) : kernel.heap.Owns extent := by
  rcases holds with rfl | ⟨block, has, rfl⟩
  · exact process.recordOwned
  · exact process.task.owned has

/-- The one page of a process that it can store to is the first one of its image. -/
theorem userWritable_image {virt : Word}
    (writable : userWritable kernel.words (kernel.words (slotPage kernel slot)) virt = true) :
    exists place, translate kernel.words (kernel.words (slotPage kernel slot)) virt = some place ∧
      InImage (slotProcess kernel slot) place ∧ kernel.heap.InExtent blocks.image place := by
  have placed := process.map.placed
  have space := process.map.space
  have aligned : (slotProcess kernel slot).physicalPointer.toNat % 4096 = 0 := by
    rw [process.imageAddress]
    exact placed.addressOf_aligned process.imageOwned.address_inside
  have bound := virt.isLt
  have base : (BitVec.ofNat 32 (virt.toNat / 4096 * 4096)).toNat = virt.toNat / 4096 * 4096 := by
    rw [BitVec.toNat_ofNat]
    omega
  have baseAligned : (BitVec.ofNat 32 (virt.toNat / 4096 * 4096)).toNat % 4096 = 0 := by
    rw [base]
    omega
  have entry := process.map.entries _ baseAligned
  rw [entryAddress_page kernel.heap blocks.task.space (show _ = virt.toNat / 4096 by rw [base]; omega)] at entry
  have allowed := userEntry_space space placed (by decide) writable
  rw [translate_space space placed (by decide) (by decide)]
  rw [entry] at allowed ⊢
  generalize BitVec.ofNat 32 (virt.toNat / 4096 * 4096) = page at *
  have readOnly : userEntry (page ||| 0b101#32) = false := userEntry_page baseAligned (by decide)
  unfold imageMap at allowed ⊢
  by_cases empty : rangePages (slotProcess kernel slot).physicalPointer
      (pagingAlignAddress ((slotProcess kernel slot).physicalPointer + (slotProcess kernel slot).size)) = 0
  · rw [if_pos empty, readOnly] at allowed
    exact absurd allowed Bool.false_ne_true
  · rw [if_neg empty] at allowed ⊢
    by_cases program : page = PROGRAM_VIRTUAL_ADDRESS
    · rw [program, Function.update_self, place_page virt aligned (by decide) (by decide)]
      refine ⟨_, rfl, ?_⟩
      unfold InImage
      generalize pagingAlignAddress ((slotProcess kernel slot).physicalPointer + (slotProcess kernel slot).size) = stop at *
      have offset : ((slotProcess kernel slot).physicalPointer + BitVec.ofNat 32 (virt.toNat % 4096)).toNat =
          (slotProcess kernel slot).physicalPointer.toNat + virt.toNat % 4096 := by
        have pointer := (slotProcess kernel slot).physicalPointer.isLt
        rw [BitVec.toNat_add, BitVec.toNat_ofNat]
        omega
      unfold rangePages pagingPageSize at empty
      refine ⟨⟨?_, ?_⟩, ?_⟩
      · rw [offset]
        omega
      · rw [offset]
        omega
      · have positive := blocks.image.nonempty
        apply placed.inExtent_of_page process.imageOwned
        rw [← process.imageAddress, BitVec.toNat_sub_of_le (by rw [BitVec.le_def, offset]; omega), offset]
        unfold heapBlockSizeBytes
        omega
    · rw [Function.update_of_ne program, readOnly] at allowed
      exact absurd allowed Bool.false_ne_true

theorem userPlace_image {place : Word} (isUser : UserPlace kernel slot place) :
    kernel.heap.InExtent blocks.image place := by
  rcases isUser with ⟨virt, writable, translated⟩
  rcases process.userWritable_image writable with ⟨other, same, _, inside⟩
  rw [Option.some.inj (translated.symm.trans same)]
  exact inside

end ProcessAt

/-- Every image is an allocation of its own. -/
structure Isolated (kernel : Kernel) (kernelBlocks : SpaceBlocks) (blocks : Nat -> ProcessBlocks) : Prop where
  active : KernelActive kernel kernelBlocks
  processes : forall slot, Occupied kernel slot -> ProcessAt kernel slot (blocks slot)
  images : forall left right, Occupied kernel left -> Occupied kernel right -> (blocks left).image = (blocks right).image ->
    left = right
  objects : forall slot other extent, Occupied kernel slot -> Occupied kernel other -> (blocks other).Holds extent ->
    (blocks slot).image ≠ extent
  kernelPages : forall slot block, Occupied kernel slot -> kernelBlocks.Has block ->
    (blocks slot).image ≠ Extent.single block
  apart : forall slot block, Occupied kernel slot -> (blocks slot).task.space.Has block -> ¬ kernelBlocks.Has block

namespace Isolated

variable {kernel : Kernel} {kernelBlocks : SpaceBlocks} {blocks : Nat -> ProcessBlocks}
  (isolated : Isolated kernel kernelBlocks blocks)
include isolated

/-- An allocation with a place that a program can store to is the image of the program. -/
theorem image_of_userPlace {slot : Nat} (occupied : Occupied kernel slot) {place : Word}
    (isUser : UserPlace kernel slot place) {extent : Extent} (owned : kernel.heap.Owns extent)
    (inside : kernel.heap.InExtent extent place) : extent = (blocks slot).image := by
  have process := isolated.processes slot occupied
  rcases owned.eq_or_apart process.imageOwned with same | apart
  · exact same
  · exact absurd (process.userPlace_image isUser) (Heap.not_inExtent_of_apart apart inside)

theorem userPagesOwn : UserPagesOwn kernel where
  image := by
    intro slot virt occupied writable
    rcases (isolated.processes slot occupied).userWritable_image writable with ⟨place, translated, inImage, _⟩
    exact ⟨place, translated, inImage⟩
  distinct := by
    intro left right place leftTaken rightTaken leftUser rightUser
    have process := isolated.processes left leftTaken
    exact isolated.images left right leftTaken rightTaken
      (isolated.image_of_userPlace rightTaken rightUser process.imageOwned (process.userPlace_image leftUser))
  alone := by
    intro slot place occupied isUser extent owned inside
    rw [isolated.image_of_userPlace occupied isUser owned inside]
    exact (isolated.processes slot occupied).imageAddress
  records := by
    rintro slot other place occupied otherTaken isUser extent owned address inside
    have process := isolated.processes other otherTaken
    have image := isolated.image_of_userPlace occupied isUser owned inside
    refine isolated.objects slot other extent occupied otherTaken ?_ image.symm
    rcases address with record | task
    · rw [process.recordAddress] at record
      exact Or.inl (owned.eq_of_first process.recordOwned
        (isolated.active.kernelHeap.wellPlaced.addressOf_injective owned.address_inside process.recordOwned.address_inside record))
    · rw [process.task.address] at task
      exact Or.inr ⟨_, Or.inl rfl, owned.eq_of_first process.task.taskOwned
        (isolated.active.kernelHeap.wellPlaced.addressOf_injective owned.address_inside process.task.taskOwned.address_inside task)⟩
  pages := by
    intro slot other place occupied otherTaken isUser inPages
    have process := isolated.processes other otherTaken
    rcases (inPageStructures_iff process.map.space process.map.placed (by decide) place).mp inPages with ⟨block, has, inside⟩
    have owned := process.map.space.owned block has
    exact isolated.objects slot other _ occupied otherTaken (Or.inr ⟨block, Or.inr has, rfl⟩)
      (isolated.image_of_userPlace occupied isUser owned inside).symm
  kernelPages := by
    intro slot place occupied isUser inPages
    have space := isolated.active.space
    rcases (inPageStructures_iff space isolated.active.kernelHeap.wellPlaced (by decide) place).mp inPages with
      ⟨block, has, inside⟩
    exact isolated.kernelPages slot block occupied has
      (isolated.image_of_userPlace occupied isUser (space.owned block has) inside).symm

end Isolated

end Tasks
end LarvaOS
