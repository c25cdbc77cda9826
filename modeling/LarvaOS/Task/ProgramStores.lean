import LarvaOS.Task.AddressMap

namespace LarvaOS
namespace Tasks

open Disk Fs Library Memory PageWalk

/-!
# Stores of the programs

Between loads and copies the loaded programs run in ring 3 and store to memory.  The
processor takes every store through the page tables of the program, which the kernel
has set up, and lets it through where they allow it.

Such a store changes one byte of the program's own image.  Hence the programs cannot
undo the isolation, whatever they store and in whatever order they run.
-/

/-- A store of the program in a slot.  A store that faults is not carried out, and the
program does not go on. -/
def programStore (kernel : Kernel) (slot : Nat) (virt : Word) (byte : Byte) : Option Kernel :=
  if userWritable kernel.words (kernel.words (slotPage kernel slot)) virt then
    (translate kernel.words (kernel.words (slotPage kernel slot)) virt).map fun place => storeByte kernel place byte
  else none

/-- What the machine does next: a call in the kernel, or a store of a program. -/
inductive ProgramEvent where
  | kernelCall (call : MemoryCall)
  | store (slot : Nat) (virt : Word) (byte : Byte)

def ProgramEvent.run (kernel : Kernel) : ProgramEvent -> Option Kernel
  | .kernelCall call => call.run kernel
  | .store slot virt byte => programStore kernel slot virt byte

def ProgramEvent.step (state : Option Kernel) (event : ProgramEvent) : Option Kernel := state.bind (event.run ·)

/-- The calls are served, and the stores are those of loaded programs. -/
def EventServed (state : Option Kernel) : ProgramEvent -> Prop
  | .kernelCall call => CallServed state call
  | .store slot _ _ => forall kernel, state = some kernel -> Occupied kernel slot

/-! ## One store -/

/-- One byte of the image has changed, and nothing else: neither another byte, nor an
allocation, a record or a global variable, nor what an address means to the kernel or to
any program. -/
structure StoredToImage (kernel after : Kernel) (slot : Nat) (byte : Byte) : Prop where
  bytes : exists place, InImage (slotProcess kernel slot) place ∧ after.bytes = Function.update kernel.bytes place byte
  table : SameEntries kernel after
  records : after.toStore = { kernel.toStore with bytes := after.bytes, words := after.words }
  toGlobals : after.toGlobals = kernel.toGlobals
  kernelMap : forall virt, translate after.words (after.words after.kernelDirectory) virt =
    translate kernel.words (kernel.words kernel.kernelDirectory) virt
  programMaps : forall other virt, Occupied kernel other ->
    translate after.words (after.words (slotPage after other)) virt =
      translate kernel.words (kernel.words (slotPage kernel other)) virt

/-- A store that goes through is one of these. -/
def StoresToImage (state : Option Kernel) (event : ProgramEvent) : Prop :=
  forall kernel slot virt byte after, state = some kernel -> event = .store slot virt byte ->
    programStore kernel slot virt byte = some after -> StoredToImage kernel after slot byte

/-- Stores outside the entry table keep what is owned, and the page structures that they
do not lie in. -/
theorem StoresOnly.keepsSpaces {places : Word -> Prop} {before after : Kernel} (only : StoresOnly places before after)
    (placed : before.heap.WellPlaced) (outside : forall place, places place -> OutsideTable before.heap place)
    (same : SameEntries before after) : KeepsSpaces places before after where
  pool := only.pool
  owns := fun _ owned => only.owns outside owned
  records := by
    intro extent owned address inside
    rcases only.records with ⟨records, tasks⟩
    exact ⟨congrFun records address, congrArg Task.pageDirectory (congrFun tasks address)⟩
  words := fun block owned away index bound =>
    only.words _ fun place near isPlace => away place isPlace (inExtent_wordByte placed owned bound near)
  encoded := encoded_of_sameEntries same only.pool
  kernelDirectory := congrArg Globals.kernelDirectory only.toGlobals
  currentDirectory := congrArg Globals.currentDirectory only.toGlobals

namespace Isolated

variable {kernel : Kernel} {kernelBlocks : SpaceBlocks} {blocks : Nat -> ProcessBlocks}
  (isolated : Isolated kernel kernelBlocks blocks) {slot : Nat} (occupied : Occupied kernel slot)
include isolated occupied

/-- The place of a store that goes through. -/
theorem programStore_place {virt : Word} {byte : Byte} {after : Kernel}
    (stores : programStore kernel slot virt byte = some after) : exists place,
      InImage (slotProcess kernel slot) place ∧ kernel.heap.InExtent (blocks slot).image place ∧
        after = storeByte kernel place byte := by
  unfold programStore at stores
  split at stores
  · rename_i writable
    rcases Option.map_eq_some_iff.mp stores with ⟨place, translated, rfl⟩
    rcases (isolated.processes slot occupied).userWritable_image writable with ⟨other, same, inImage, inside⟩
    obtain rfl := Option.some.inj (translated.symm.trans same)
    exact ⟨place, inImage, inside, rfl⟩
  · exact absurd stores nofun

section Store

variable {place : Word} (inside : kernel.heap.InExtent (blocks slot).image place) (byte : Byte)
include inside

/-- A byte of an image lies outside all page structures. -/
theorem image_apartFromSpaces : ApartFromSpaces kernel kernelBlocks blocks (· = place) := by
  have imageOwned := (isolated.processes slot occupied).imageOwned
  rintro other rfl
  refine ⟨fun inSpace => ?_, fun process taken inSpace => ?_⟩
  · rcases inSpace with ⟨block, has, inBlock⟩
    rcases (isolated.active.space.owned block has).eq_or_apart imageOwned with same | apart
    · exact isolated.kernelPages slot block occupied has same.symm
    · exact Heap.not_inExtent_of_apart apart inBlock inside
  · rcases inSpace with ⟨block, has, inBlock⟩
    rcases ((isolated.processes process taken).map.space.owned block has).eq_or_apart imageOwned with same | apart
    · exact isolated.objects slot process _ occupied taken (Or.inr ⟨block, Or.inr has, rfl⟩) same.symm
    · exact Heap.not_inExtent_of_apart apart inBlock inside

omit occupied in
theorem storeByte_sameEntries : SameEntries kernel (storeByte kernel place byte) := by
  intro block below
  have outside := outsideTable_of_inExtent isolated.active.kernelHeap inside block below
  refine Function.update_of_ne (fun same => outside ?_) _ _
  omega

/-- A store to a byte of an image keeps the programs isolated. -/
theorem stored : Isolated (storeByte kernel place byte) kernelBlocks blocks := by
  have kernelHeap := isolated.active.kernelHeap
  have only := (StoresOnly.refl (· = place) kernel).storeByte rfl byte
  have keeps := only.keepsSpaces kernelHeap.wellPlaced
    (fun other (same : other = place) => same ▸ outsideTable_of_inExtent kernelHeap inside)
    (isolated.storeByte_sameEntries inside byte)
  exact isolated.keep keeps rfl (isolated.image_apartFromSpaces occupied inside)

end Store

end Isolated

/-- A store that goes through changes one byte of the own image. -/
theorem Isolated.storedToImage {kernel : Kernel} {kernelBlocks : SpaceBlocks} {blocks : Nat -> ProcessBlocks}
    (isolated : Isolated kernel kernelBlocks blocks) {slot : Nat} (occupied : Occupied kernel slot) {virt : Word}
    {byte : Byte} {after : Kernel} (stores : programStore kernel slot virt byte = some after) :
    StoredToImage kernel after slot byte := by
  rcases isolated.programStore_place occupied stores with ⟨place, inImage, inside, rfl⟩
  have later := isolated.stored occupied inside byte
  have before := isolated.memoryMap
  exact
    { bytes := ⟨place, inImage, rfl⟩
      table := isolated.storeByte_sameEntries inside byte
      records := ((StoresOnly.refl (· = place) kernel).storeByte rfl byte).views
      toGlobals := rfl
      kernelMap := fun virt => by
        have active := before.kernelSees virt
        rw [before.active] at active
        have activeLater := later.memoryMap.kernelSees virt
        rw [later.memoryMap.active] at activeLater
        exact activeLater.trans active.symm
      programMaps := fun other virt taken =>
        (later.memoryMap.sees other virt taken).trans (before.sees other virt taken).symm }

/-! ## Every run -/

theorem IsolatedState.event {state : Option Kernel} {event : ProgramEvent} (isolates : IsolatedState state)
    (served : EventServed state event) : IsolatedState (ProgramEvent.step state event) := by
  cases event with
  | kernelCall call => exact isolates.step served
  | store slot virt byte =>
      intro after reached
      rcases Option.bind_eq_some_iff.mp reached with ⟨kernel, rfl, stores⟩
      rcases isolates kernel rfl with ⟨kernelBlocks, blocks, isolated⟩
      have occupied := served kernel rfl
      rcases isolated.programStore_place occupied stores with ⟨place, _, inside, rfl⟩
      exact ⟨kernelBlocks, blocks, isolated.stored occupied inside byte⟩

/-- In every run in which the programs go on between the calls, what a program can store
to is its own, and each of its stores changes its own image alone. -/
theorem programs_stayIsolated {store : Store} {sectors : Int -> Nat -> Byte} {stray : Int -> Byte} {entries : Int -> Byte}
    {booted : Kernel} (boots : boot (Kernel.loaded store sectors stray) entries = some booted)
    (mapped : booted.kernelDirectory ≠ 0#32) (events : List ProgramEvent)
    (served : Run.Everywhere ProgramEvent.step EventServed (some booted) events) :
    Run.Throughout ProgramEvent.step (fun state => forall kernel, state = some kernel -> UserPagesOwn kernel)
        (some booted) events ∧
      Run.Everywhere ProgramEvent.step StoresToImage (some booted) events := by
  have start := boot_isolatedState boots mapped
  have step : forall state event, IsolatedState state -> EventServed state event ->
      IsolatedState (ProgramEvent.step state event) := fun _ _ isolates legal => isolates.event legal
  constructor
  · refine Run.throughout_of_invariant (fun state isolates kernel here => ?_) step _ events start served
    rcases isolates kernel here with ⟨kernelBlocks, blocks, isolated⟩
    exact isolated.userPagesOwn
  · refine Run.everywhere_of_invariant (fun state event isolates legal => ?_) step _ events start served
    rintro kernel slot virt byte after here rfl stores
    rcases isolates kernel here with ⟨kernelBlocks, blocks, isolated⟩
    exact isolated.storedToImage (legal kernel here) stores

/-- A load, a store of the program to its first page, and a copy from its task. -/
theorem programs_stayIsolated_stored : exists booted kernel after, boot fileVolume (fun _ => 0#8) = some booted ∧
    ProgramEvent.step (some booted) (.kernelCall loadFile) = some kernel ∧
    programStore kernel 0 PROGRAM_VIRTUAL_ADDRESS 0x41#8 = some after ∧
    let events := [.kernelCall loadFile, .store 0 PROGRAM_VIRTUAL_ADDRESS 0x41#8,
      .kernelCall (.copyFromUser (slotProcess kernel 0).task 0x100000#32 0x200000#32 16)]
    Run.Throughout ProgramEvent.step (fun state => forall kernel, state = some kernel -> UserPagesOwn kernel)
        (some booted) events ∧
      Run.Everywhere ProgramEvent.step StoresToImage (some booted) events := by
  rcases exists_fileLoaded with ⟨booted, kernel, kernelBlocks, blocks, file⟩
  have process := file.isolated.processes 0 file.occupied
  have program : OnProgramPage (slotProcess kernel 0) PROGRAM_VIRTUAL_ADDRESS := ⟨file.hasPage, rfl⟩
  have writable := (process.stores PROGRAM_VIRTUAL_ADDRESS).trans (decide_eq_true program)
  have stores : programStore kernel 0 PROGRAM_VIRTUAL_ADDRESS 0x41#8 =
      some (storeByte kernel (seenPlace (slotProcess kernel 0) PROGRAM_VIRTUAL_ADDRESS) 0x41#8) := by
    rw [programStore, if_pos writable, process.sees]
    rfl
  rcases file.isolated.programStore_place file.occupied stores with ⟨place, _, inside, same⟩
  have later := file.isolated.stored file.occupied inside 0x41#8
  rw [← same] at later
  refine ⟨booted, kernel, _, file.boots, file.step, stores, programs_stayIsolated file.boots file.mapped _ ⟨file.served, ?_, ?_, trivial⟩⟩
  · intro other here
    obtain rfl := Option.some.inj (here.symm.trans file.step)
    exact file.occupied
  · have reached : ProgramEvent.step (ProgramEvent.step (some booted) (.kernelCall loadFile))
        (.store 0 PROGRAM_VIRTUAL_ADDRESS 0x41#8) = _ := (congrArg (ProgramEvent.step · _) file.step).trans stores
    rw [reached]
    exact later.copyServed file.occupied

end Tasks
end LarvaOS
