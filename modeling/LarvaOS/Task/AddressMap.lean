import LarvaOS.Task.IsolatedRuns

namespace LarvaOS
namespace Tasks

open Fs Library Memory PageWalk

/-!
# What a program sees

In every state that loads and copies reach, the address space of a process is the
memory of the machine with the first page of its image in the place of one page.
The program can read all of it and store to that page alone.  The address space of
the kernel is the memory itself, so whatever does not lie on the page of the program
is seen alike by both.
-/

/-- The address lies on the page that the image is mapped to. -/
def OnProgramPage (process : Process) (virt : Word) : Prop :=
  rangePages process.physicalPointer (pagingAlignAddress (process.physicalPointer + process.size)) ≠ 0 ∧
    virt.toNat / 4096 = PROGRAM_VIRTUAL_ADDRESS.toNat / 4096

instance (process : Process) (virt : Word) : Decidable (OnProgramPage process virt) := inferInstanceAs (Decidable (_ ∧ _))

/-- The place of an address in the memory of the machine. -/
def seenPlace (process : Process) (virt : Word) : Word :=
  if OnProgramPage process virt then process.physicalPointer + BitVec.ofNat 32 (virt.toNat % 4096) else virt

/-- The address spaces of the kernel and of the processes. -/
structure MemoryMap (kernel : Kernel) : Prop where
  active : kernel.currentDirectory = kernel.words kernel.kernelDirectory
  kernelSees : forall virt, translate kernel.words kernel.currentDirectory virt = some virt
  sees : forall slot virt, Occupied kernel slot ->
    translate kernel.words (kernel.words (slotPage kernel slot)) virt = some (seenPlace (slotProcess kernel slot) virt)
  reads : forall slot virt, Occupied kernel slot ->
    userReadable kernel.words (kernel.words (slotPage kernel slot)) virt = true
  stores : forall slot virt, Occupied kernel slot ->
    userWritable kernel.words (kernel.words (slotPage kernel slot)) virt =
      decide (OnProgramPage (slotProcess kernel slot) virt)

/-! ## A space and its map -/

/-- The page of an address. -/
def pageOf (virt : Word) : Word := BitVec.ofNat 32 (virt.toNat / 4096 * 4096)

theorem toNat_pageOf (virt : Word) : (pageOf virt).toNat = virt.toNat / 4096 * 4096 := by
  have bound := virt.isLt
  rw [pageOf, BitVec.toNat_ofNat]
  omega

theorem pageOf_aligned (virt : Word) : (pageOf virt).toNat % 4096 = 0 := by
  rw [toNat_pageOf]
  omega

section Space

variable {kernel : Kernel} {page : Word} {blocks : SpaceBlocks} {map : FlatMap}
  (represents : Represents kernel page 0b101#32 blocks map) (virt : Word)
include represents

theorem spaceEntry : kernel.words (blocks.entryAddress kernel.heap virt) = map (pageOf virt) := by
  have entry := represents.entries _ (pageOf_aligned virt)
  rwa [entryAddress_page kernel.heap blocks (show _ = virt.toNat / 4096 by rw [toNat_pageOf]; omega)] at entry

/-- The directory entry of an address, which refers to a table. -/
theorem directoryEntry :
    kernel.words (element (kernel.words page) (directoryIndex virt)) =
      (kernel.heap.addressOf (blocks.table (directoryIndex virt)) ||| 0b111#32) ∧
    (kernel.heap.addressOf (blocks.table (directoryIndex virt))).toNat % 4096 = 0 := by
  have space := represents.space
  have inside := Memory.directoryIndex_lt virt
  have entry := space.directoryWord _ inside
  rw [BitVec.or_assoc, ← space.chunkWord] at entry
  exact ⟨entry, represents.placed.addressOf_aligned (space.tableOwned inside).address_inside⟩

theorem translate_map : translate kernel.words (kernel.words page) virt = place (map (pageOf virt)) virt := by
  rw [translate_space represents.space represents.placed (by decide) (by decide), spaceEntry represents]

theorem userWritable_map : userWritable kernel.words (kernel.words page) virt = userEntry (map (pageOf virt)) := by
  rcases directoryEntry represents virt with ⟨entry, aligned⟩
  rw [userWritable_table entry aligned (by decide), ← spaceEntry represents]
  rfl

theorem userReadable_map : userReadable kernel.words (kernel.words page) virt = userReads (map (pageOf virt)) := by
  rcases directoryEntry represents virt with ⟨entry, aligned⟩
  rw [userReadable_table entry aligned (by decide), ← spaceEntry represents]
  rfl

end Space

/-! ## The map of a process -/

/-- The entry for an address on the page of the program, and for any other. -/
theorem imageMap_page (process : Process) (virt : Word) :
    imageMap process.physicalPointer process.size (pageOf virt) =
      if OnProgramPage process virt then process.physicalPointer ||| 0b111#32 else pageOf virt ||| 0b101#32 := by
  have program : PROGRAM_VIRTUAL_ADDRESS.toNat = 0x400000 := rfl
  have here : pageOf virt = PROGRAM_VIRTUAL_ADDRESS ↔ virt.toNat / 4096 = PROGRAM_VIRTUAL_ADDRESS.toNat / 4096 := by
    constructor
    · intro same
      rw [← same, toNat_pageOf]
      omega
    · intro same
      apply BitVec.eq_of_toNat_eq
      rw [toNat_pageOf, same, program]
  unfold imageMap
  by_cases empty : rangePages process.physicalPointer (pagingAlignAddress (process.physicalPointer + process.size)) = 0
  · have none : ¬ OnProgramPage process virt := fun both => both.1 empty
    rw [if_pos empty, if_neg none]
  · rw [if_neg empty]
    by_cases same : pageOf virt = PROGRAM_VIRTUAL_ADDRESS
    · have program : OnProgramPage process virt := ⟨empty, here.mp same⟩
      rw [if_pos program, same, Function.update_self]
    · have other : ¬ OnProgramPage process virt := fun both => same (here.mpr both.2)
      rw [if_neg other, Function.update_of_ne same]

namespace ProcessAt

variable {kernel : Kernel} {slot : Nat} {blocks : ProcessBlocks} (process : ProcessAt kernel slot blocks) (virt : Word)
include process

theorem pointer_aligned : (slotProcess kernel slot).physicalPointer.toNat % 4096 = 0 := by
  rw [process.imageAddress]
  exact process.map.placed.addressOf_aligned process.imageOwned.address_inside

theorem sees : translate kernel.words (kernel.words (slotPage kernel slot)) virt =
    some (seenPlace (slotProcess kernel slot) virt) := by
  rw [translate_map process.map, imageMap_page, seenPlace]
  by_cases program : OnProgramPage (slotProcess kernel slot) virt
  · rw [if_pos program, if_pos program, place_page virt process.pointer_aligned (by decide) (by decide)]
  · rw [if_neg program, if_neg program]
    exact place_self (by decide) (by decide)

theorem reads : userReadable kernel.words (kernel.words (slotPage kernel slot)) virt = true := by
  rw [userReadable_map process.map, imageMap_page]
  by_cases program : OnProgramPage (slotProcess kernel slot) virt
  · rw [if_pos program, userReads_page process.pointer_aligned (by decide)]
    rfl
  · rw [if_neg program, userReads_page (pageOf_aligned virt) (by decide)]
    rfl

theorem stores : userWritable kernel.words (kernel.words (slotPage kernel slot)) virt =
    decide (OnProgramPage (slotProcess kernel slot) virt) := by
  rw [userWritable_map process.map, imageMap_page]
  by_cases program : OnProgramPage (slotProcess kernel slot) virt
  · rw [if_pos program, userEntry_page process.pointer_aligned (by decide), decide_eq_true program]
    rfl
  · rw [if_neg program, userEntry_page (pageOf_aligned virt) (by decide), decide_eq_false program]
    rfl

end ProcessAt

/-- The directory of the kernel maps the memory to itself. -/
theorem KernelActive.sees {kernel : Kernel} {blocks : SpaceBlocks} (active : KernelActive kernel blocks) (virt : Word) :
    translate kernel.words kernel.currentDirectory virt = some virt := by
  rw [active.active, translate_space active.space active.kernelHeap.wellPlaced (by decide) (by decide),
    identity_entry active.identity]
  exact place_self (by decide) (by decide)

theorem Isolated.memoryMap {kernel : Kernel} {kernelBlocks : SpaceBlocks} {blocks : Nat -> ProcessBlocks}
    (isolated : Isolated kernel kernelBlocks blocks) : MemoryMap kernel where
  active := isolated.active.active
  kernelSees := isolated.active.sees
  sees := fun slot virt occupied => (isolated.processes slot occupied).sees virt
  reads := fun slot virt occupied => (isolated.processes slot occupied).reads virt
  stores := fun slot virt occupied => (isolated.processes slot occupied).stores virt

/-! ## Every run -/

/-- In every run from the boot, the kernel sees the memory as it is, and a program
sees it with its first page in one place, reads all of it and stores to that page
alone. -/
theorem memoryMap_everywhere {store : Store} {sectors : Int -> Nat -> Byte} {stray : Int -> Byte} {entries : Int -> Byte}
    {booted : Kernel} (boots : boot (Kernel.loaded store sectors stray) entries = some booted)
    (mapped : booted.kernelDirectory ≠ 0#32) (calls : List MemoryCall)
    (served : Run.Everywhere MemoryCall.step CallServed (some booted) calls) :
    Run.Throughout MemoryCall.step (fun state => forall kernel, state = some kernel -> MemoryMap kernel)
      (some booted) calls := by
  refine Run.throughout_of_invariant (fun state isolates kernel here => ?_)
    (fun _ _ isolates legal => isolates.step legal) _ calls (boot_isolatedState boots mapped) served
  rcases isolates kernel here with ⟨kernelBlocks, blocks, isolated⟩
  exact isolated.memoryMap

/-- A load, and a copy from the new task. -/
theorem memoryMap_everywhere_copied : exists booted task, boot fileVolume (fun _ => 0#8) = some booted ∧
    Run.Throughout MemoryCall.step (fun state => forall kernel, state = some kernel -> MemoryMap kernel) (some booted)
      [loadFile, .copyFromUser task 0x100000#32 0x200000#32 16] := by
  rcases exists_fileLoaded with ⟨booted, kernel, kernelBlocks, blocks, file⟩
  exact ⟨booted, (slotProcess kernel 0).task, file.boots,
    memoryMap_everywhere file.boots file.mapped _ ⟨file.served, file.copyServed, trivial⟩⟩

end Tasks
end LarvaOS
