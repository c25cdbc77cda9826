import Mathlib.Data.List.TakeWhile
import LarvaOS.Fs.Fat16Frame
import LarvaOS.Fs.FatTable

namespace LarvaOS
namespace Fs

open Library Disk Libc Memory

/-!
# The search of a directory

The search goes through the first slots of the buffer, as many as the count
says, and makes a new item for every slot with the name.  What it returns was
made from the last of them.  Deleted slots are not counted, but they are in the
buffer like the others: behind a deleted slot the last slots in use are out of
reach.
-/

/-! ## What a directory holds -/

/-- The bytes of a field without the blanks at its end. -/
def unpadded (field : List Byte) : List Byte := (field.reverse.dropWhile (· = 0x20#8)).reverse

/-- The 8.3 name of a slot. -/
def shortName (slot : Slot) : List Byte :=
  unpadded slot.filename ++ if unpadded slot.ext = [] then [] else 0x2E#8 :: unpadded slot.ext

/-- A directory as it is stored: its slots, and how many there are. -/
structure StoredDirectory where
  slots : Nat -> Slot
  size : Nat

/-- The slot is one of those before the first that begins with `0x00`. -/
def StoredDirectory.Lists (stored : StoredDirectory) (index : Nat) : Prop :=
  index < stored.size ∧ forall earlier, earlier ≤ index -> stored.slots earlier 0 ≠ 0x00#8

/-- The slot is in use and has this 8.3 name. -/
def StoredDirectory.Holds (stored : StoredDirectory) (name : List Byte) (index : Nat) : Prop :=
  stored.Lists index ∧ stored.slots index 0 ≠ slotDeleted ∧ SameIgnoringCase (shortName (stored.slots index)) name

/-- The two slots have the same bytes. -/
def SameSlot (slot slot' : Slot) : Prop := forall place, place < slotSize -> slot place = slot' place

theorem SameSlot.symm {slot slot' : Slot} (same : SameSlot slot slot') : SameSlot slot' slot :=
  fun place within => (same place within).symm

theorem SameSlot.isSubdirectory {slot slot' : Slot} (same : SameSlot slot slot') :
    slot.isSubdirectory = slot'.isSubdirectory := by
  unfold Slot.isSubdirectory Slot.attributeByte
  rw [same 11 (by decide)]

theorem SameSlot.firstCluster {slot slot' : Slot} (same : SameSlot slot slot') :
    fat16GetFirstCluster slot = fat16GetFirstCluster slot' := by
  unfold fat16GetFirstCluster Slot.high16BitsFirstCluster Slot.low16BitsFirstCluster halfWordAt
  rw [same 20 (by decide), same 21 (by decide), same 26 (by decide), same 27 (by decide)]

theorem SameSlot.filesize {slot slot' : Slot} (same : SameSlot slot slot') : slot.filesize = slot'.filesize := by
  unfold Slot.filesize
  rw [same 28 (by decide), same 29 (by decide), same 30 (by decide), same 31 (by decide)]

theorem SameSlot.trans {slot slot' slot'' : Slot} (first : SameSlot slot slot') (second : SameSlot slot' slot'') :
    SameSlot slot slot'' := fun place within => (first place within).trans (second place within)

theorem SameSlot.name {slot slot' : Slot} (same : SameSlot slot slot') :
    fat16GetFullRelativeFilename slot = fat16GetFullRelativeFilename slot' := by
  have filename : slot.filename = slot'.filename := List.map_congr_left fun place member =>
    same place (by rw [List.mem_range] at member; unfold slotSize; omega)
  have ext : slot.ext = slot'.ext := List.map_congr_left fun place member =>
    same (8 + place) (by rw [List.mem_range] at member; unfold slotSize; omega)
  unfold fat16GetFullRelativeFilename
  rw [filename, ext, same 8 (by decide)]

/-! ## The search -/

/-- The slot that is found by its index in a directory in memory. -/
def memorySlot (kernel : Kernel) (directory : FatDirectory) (index : Nat) : Slot :=
  slotAt kernel (slotAddress directory index)

/-- The search takes this slot for one with the name. -/
def TakenFor (name : List Byte) (slot : Slot) : Prop := strcasecmp (fat16GetFullRelativeFilename slot) name = 0

instance (name : List Byte) (slot : Slot) : Decidable (TakenFor name slot) := inferInstanceAs (Decidable (_ = _))

/-- The name of a slot has 8 bytes, a dot and 3 bytes at most. -/
theorem fat16GetFullRelativeFilename_length (slot : Slot) : (fat16GetFullRelativeFilename slot).length ≤ 12 := by
  have string (field : List Byte) : (fat16ToProperString field).length ≤ field.length :=
    (List.takeWhile_prefix _).length_le
  have base : (fat16ToProperString slot.filename).length ≤ 8 := string slot.filename
  have ext : (fat16ToProperString slot.ext).length ≤ 3 := string slot.ext
  unfold fat16GetFullRelativeFilename
  rw [List.length_append]
  split
  · rw [List.length_cons]
    omega
  · rw [List.length_nil]
    omega

theorem fat16GetFullRelativeFilename_isString (slot : Slot) : IsString (fat16GetFullRelativeFilename slot) := by
  have string (field : List Byte) : 0x00#8 ∉ fat16ToProperString field := by
    intro member
    have kept := List.mem_takeWhile_imp member
    exact absurd kept (by decide)
  unfold fat16GetFullRelativeFilename
  intro member
  rcases List.mem_append.mp member with base | rest
  · exact string slot.filename base
  · split at rest
    · rcases List.mem_cons.mp rest with dot | ext
      · exact absurd dot (by decide)
      · exact string slot.ext ext
    · exact absurd rest List.not_mem_nil

/-- No longer name is that of a slot. -/
theorem TakenFor.short {name : List Byte} {slot : Slot} (taken : TakenFor name slot) (string : IsString name) :
    name.length ≤ 12 := by
  have same := congrArg List.length ((strcasecmp_eq_zero_iff (fat16GetFullRelativeFilename_isString slot) string).mp taken)
  rw [List.length_map, List.length_map] at same
  exact same ▸ fat16GetFullRelativeFilename_length slot

/-- An item that a search comes to was made for a slot with the name. -/
theorem searchSlots_taken {directory : FatDirectory} {name : List Byte} (indexes : List Nat) {kernel : Kernel} {item : Word}
    {found : Word × Kernel} (search : searchSlots directory name indexes kernel item = some found) :
    found.1 = item ∨ exists slot, TakenFor name slot := by
  induction indexes generalizing kernel item with
  | nil =>
      cases search
      exact Or.inl rfl
  | cons index rest inductionHypothesis =>
      rw [searchSlots] at search
      by_cases taken : TakenFor name (slotAt kernel (slotAddress directory index))
      · exact Or.inr ⟨_, taken⟩
      · simp only [if_neg (show ¬ strcasecmp _ name = 0 from taken)] at search
        exact inductionHypothesis search

/-- Where a search has come to: the index of the slot that the item was made
from, the item, and the kernel. -/
structure Search where
  origin : Option Nat
  item : Word
  kernel : Kernel

/-- The beginning of a search. -/
def Search.start (kernel : Kernel) : Search := ⟨none, 0#32, kernel⟩

/-- The loop of `fat16_find_item_in_directory`, which also says from which slot
the item was made. -/
def searchFrom (directory : FatDirectory) (name : List Byte) : List Nat -> Search -> Option Search
  | [], search => some search
  | index :: rest, search =>
      if TakenFor name (memorySlot search.kernel directory index) then
        (fat16MakeNewFatItemForDirectoryItem search.kernel (memorySlot search.kernel directory index)).bind
          fun made => searchFrom directory name rest ⟨some index, made.1, made.2⟩
      else searchFrom directory name rest search

/-- It is the loop of the source. -/
theorem searchFrom_eq_searchSlots (directory : FatDirectory) (name : List Byte) (indexes : List Nat) (search : Search) :
    (searchFrom directory name indexes search).map (fun found => (found.item, found.kernel)) =
      searchSlots directory name indexes search.kernel search.item := by
  induction indexes generalizing search with
  | nil => rfl
  | cons index rest inductionHypothesis =>
      rw [searchFrom, searchSlots]
      by_cases taken : TakenFor name (memorySlot search.kernel directory index)
      · have matched : strcasecmp (fat16GetFullRelativeFilename (slotAt search.kernel (slotAddress directory index)))
            name = 0 := taken
        rw [if_pos taken]
        simp only [matched, if_true]
        change _ = (fat16MakeNewFatItemForDirectoryItem search.kernel (memorySlot search.kernel directory index)).bind _
        cases fat16MakeNewFatItemForDirectoryItem search.kernel (memorySlot search.kernel directory index) with
        | none => rfl
        | some made => exact inductionHypothesis ⟨some index, made.1, made.2⟩
      · have unmatched : ¬ strcasecmp (fat16GetFullRelativeFilename
            (slotAt search.kernel (slotAddress directory index))) name = 0 := taken
        rw [if_neg taken]
        simp only [unmatched, if_false]
        exact inductionHypothesis search

theorem searchFrom_append (directory : FatDirectory) (name : List Byte) (indexes rest : List Nat) (search : Search) :
    searchFrom directory name (indexes ++ rest) search =
      (searchFrom directory name indexes search).bind (searchFrom directory name rest) := by
  induction indexes generalizing search with
  | nil => rfl
  | cons index later inductionHypothesis =>
      rw [List.cons_append, searchFrom, searchFrom]
      by_cases taken : TakenFor name (memorySlot search.kernel directory index)
      · rw [if_pos taken, if_pos taken]
        cases fat16MakeNewFatItemForDirectoryItem search.kernel (memorySlot search.kernel directory index) with
        | none => rfl
        | some made => exact inductionHypothesis ⟨some index, made.1, made.2⟩
      · rw [if_neg taken, if_neg taken]
        exact inductionHypothesis search

/-- Slots without the name leave the search as it was. -/
theorem searchFrom_untaken {directory : FatDirectory} {name : List Byte} {indexes : List Nat} {search : Search}
    (untaken : forall index, index ∈ indexes -> ¬ TakenFor name (memorySlot search.kernel directory index)) :
    searchFrom directory name indexes search = some search := by
  induction indexes with
  | nil => rfl
  | cons index rest inductionHypothesis =>
      rw [searchFrom, if_neg (untaken index List.mem_cons_self)]
      exact inductionHypothesis fun other member => untaken other (List.mem_cons_of_mem index member)

/-! ## The buffer -/

/-- The slots of a directory lie in memory that the guard selects. -/
def SlotsOwned (guard : Extent -> Prop) (kernel : Kernel) (directory : FatDirectory) : Prop :=
  forall index, index < directory.total.toNat -> forall place, place < slotSize ->
    exists extent, guard extent ∧ kernel.heap.Owns extent ∧
      kernel.heap.InExtent extent (slotAddress directory index + BitVec.ofNat 32 place)

/-- What is kept of the memory, is kept of the slots. -/
theorem SlotsOwned.same {guard : Extent -> Prop} {kernel after : Kernel} {directory : FatDirectory}
    (owned : SlotsOwned guard kernel directory) (keeps : KeepsObjects guard kernel after) {index : Nat}
    (inside : index < directory.total.toNat) :
    SameSlot (memorySlot after directory index) (memorySlot kernel directory index) := by
  intro place within
  rcases owned index inside place within with ⟨extent, guarded, extentOwned, inExtent⟩
  exact (keeps.same extent guarded extentOwned _ inExtent).bytes

theorem TakenFor.congr {name : List Byte} {slot slot' : Slot} (same : SameSlot slot slot') :
    TakenFor name slot ↔ TakenFor name slot' := by
  unfold TakenFor
  rw [same.name]

/-- The search makes its way through a directory without touching its slots. -/
theorem searchFrom_keeps {guard : Extent -> Prop} {first : Kernel} (kernelHeap : first.heap.IsKernelHeap)
    {directory : FatDirectory} {name : List Byte} {indexes : List Nat} {search found : Search}
    (keeps : KeepsObjects guard first search.kernel)
    (same : searchFrom directory name indexes search = some found) : KeepsObjects guard first found.kernel := by
  induction indexes generalizing search with
  | nil =>
      obtain rfl := Option.some.inj same
      exact keeps
  | cons index rest inductionHypothesis =>
      rw [searchFrom] at same
      by_cases taken : TakenFor name (memorySlot search.kernel directory index)
      · rw [if_pos taken] at same
        rcases Option.bind_eq_some_iff.mp same with ⟨made, make, later⟩
        exact @inductionHypothesis ⟨some index, made.1, made.2⟩
          (fat16MakeNewFatItemForDirectoryItem_keeps kernelHeap keeps make).1 later
      · rw [if_neg taken] at same
        exact inductionHypothesis keeps same

/-! ## The last slot -/

/-- The last of the counted slots that are taken for the name. -/
def LastTaken (slots : Nat -> Slot) (directory : FatDirectory) (name : List Byte) (last : Nat) : Prop :=
  LastBelow (fun index => TakenFor name (slots index)) directory.total.toNat last

theorem range_split {last total : Nat} (below : last < total) :
    List.range total = List.range last ++ last :: List.range' (last + 1) (total - last - 1) := by
  have whole : total = last + (total - last - 1 + 1) := by omega
  have joined := @List.range'_append_1 0 last (total - last - 1 + 1)
  rw [← whole, Nat.zero_add, List.range'_succ, ← List.range_eq_range', ← List.range_eq_range'] at joined
  exact joined.symm

section Searching

variable {guard : Extent -> Prop} {kernel : Kernel} (kernelHeap : kernel.heap.IsKernelHeap)
  {directory : FatDirectory} (owned : SlotsOwned guard kernel directory) {name : List Byte}
include kernelHeap owned

/-- The search is decided at the last slot that is taken for the name. -/
theorem searchFrom_last {last : Nat} (lastTaken : LastTaken (memorySlot kernel directory) directory name last) :
    searchFrom directory name (visitedSlots directory) (Search.start kernel) =
      (searchFrom directory name (List.range last) (Search.start kernel)).bind fun reached =>
        (fat16MakeNewFatItemForDirectoryItem reached.kernel (memorySlot reached.kernel directory last)).map
          fun made => ⟨some last, made.1, made.2⟩ := by
  rw [visitedSlots, range_split lastTaken.below, searchFrom_append]
  cases reach : searchFrom directory name (List.range last) (Search.start kernel) with
  | none => rfl
  | some reached =>
      have keeps := searchFrom_keeps kernelHeap (KeepsObjects.refl guard kernel) reach
      have here : TakenFor name (memorySlot reached.kernel directory last) :=
        (TakenFor.congr (owned.same keeps lastTaken.below)).mpr lastTaken.here
      rw [Option.bind_some, Option.bind_some, searchFrom, if_pos here]
      cases make : fat16MakeNewFatItemForDirectoryItem reached.kernel (memorySlot reached.kernel directory last) with
      | none => rfl
      | some made =>
          have madeKeeps := (fat16MakeNewFatItemForDirectoryItem_keeps kernelHeap keeps make).1
          rw [Option.bind_some, Option.map_some]
          refine searchFrom_untaken fun index member => ?_
          have bounds := List.mem_range'_1.mp member
          have below := lastTaken.below
          rw [TakenFor.congr (owned.same madeKeeps (by omega))]
          exact lastTaken.behind index (by omega) (by omega)

end Searching

/-- Without such a slot it returns nothing. -/
theorem searchFrom_none {kernel : Kernel} {directory : FatDirectory} {name : List Byte}
    (untaken : forall index, index < directory.total.toNat -> ¬ TakenFor name (memorySlot kernel directory index)) :
    searchFrom directory name (visitedSlots directory) (Search.start kernel) = some (Search.start kernel) :=
  searchFrom_untaken fun index member => untaken index (List.mem_range.mp member)

/-! ## The root directory -/

/-- The root directory as it is stored on the disk. -/
def storedRoot (drive : Drive) (header : Nat -> Byte) : StoredDirectory where
  slots := fun index place => drive.byteAt (rootDirStart header + (slotSize * index + place : Nat))
  size := (FatHeader.rootDirEntries header).toNat

theorem fat16SectorToAbsolute_rootDir {header : Nat -> Byte} (bound : rootDirStart header < 2 ^ 31) :
    fat16SectorToAbsolute (rootDirSectorPos header) = rootDirStart header ∧ 0 ≤ rootDirStart header ∧
      rootDirStart header % 512 = 0 := by
  have nonnegative : 0 ≤ rootDirSectorPos header := by
    unfold rootDirSectorPos FatHeader.fatCopies FatHeader.sectorsPerFat FatHeader.reservedSectors halfWordAt
    exact Int.add_nonneg (Int.mul_nonneg (Int.natCast_nonneg _) (Int.natCast_nonneg _)) (Int.natCast_nonneg _)
  unfold rootDirStart DISK_SECTOR_SIZE at *
  refine ⟨wrapInt_of_small ?_ ?_, by omega, by omega⟩
  · unfold DISK_SECTOR_SIZE
    omega
  · exact bound

section Buffer

variable {kernel : Kernel} {fatPrivate : Word} (totalItems : Int)
  (served : (kzalloc kernel (intToWord (rootDirSize (kernel.fatPrivates fatPrivate).header))).1 ≠ 0#32)
include served

theorem loadRootDirectory_bytes (address : Word) :
    (loadRootDirectory kernel fatPrivate totalItems).2.bytes address =
      ((streamTransfer (driveOf kernel) (fat16SectorToAbsolute (rootDirSectorPos (kernel.fatPrivates fatPrivate).header))
        (rootDirSize (kernel.fatPrivates fatPrivate).header)).bytes[(address -
          (kzalloc kernel (intToWord (rootDirSize (kernel.fatPrivates fatPrivate).header))).1).toNat]?).getD
        ((kzalloc kernel (intToWord (rootDirSize (kernel.fatPrivates fatPrivate).header))).2.bytes address) := by
  unfold loadRootDirectory
  simp only [served, ne_eq, not_true_eq_false, if_false, modifyPrivate_bytes, storeBytes_bytes,
    diskStreamRead_bytes, diskStreamSeek_bytes, diskStreamRead_sought, driveOf_kzalloc, streamTransfer_result]

/-- The buffer of the root directory holds the slots of the disk. -/
theorem loadRootDirectory_buffer (placed : kernel.heap.WellPlaced)
    (bound : rootDirStart (kernel.fatPrivates fatPrivate).header +
      rootDirSize (kernel.fatPrivates fatPrivate).header < 2 ^ 31) :
    exists extent, (loadRootDirectory kernel fatPrivate totalItems).2.heap.Owns extent ∧
      (forall other, kernel.heap.Owns other -> other.Apart extent) ∧
      forall place : Nat, (place : Int) < rootDirSize (kernel.fatPrivates fatPrivate).header ->
        (loadRootDirectory kernel fatPrivate totalItems).2.heap.InExtent extent
          ((kzalloc kernel (intToWord (rootDirSize (kernel.fatPrivates fatPrivate).header))).1 + BitVec.ofNat 32 place) ∧
        (loadRootDirectory kernel fatPrivate totalItems).2.bytes
          ((kzalloc kernel (intToWord (rootDirSize (kernel.fatPrivates fatPrivate).header))).1 + BitVec.ofNat 32 place) =
            (driveOf kernel).byteAt (rootDirStart (kernel.fatPrivates fatPrivate).header + place) := by
  have heap := loadRootDirectory_heap kernel fatPrivate totalItems
  have bytes := loadRootDirectory_bytes totalItems served
  have size := rootDirSize_bound (kernel.fatPrivates fatPrivate).header
  rcases @fat16SectorToAbsolute_rootDir (kernel.fatPrivates fatPrivate).header (by omega) with
    ⟨absolute, nonnegative, aligned⟩
  have delivered := (streamTransfer_aligned (driveOf kernel) nonnegative size.1 bound aligned).bytes
  rw [absolute, delivered] at bytes
  rw [heap]
  generalize (kernel.fatPrivates fatPrivate).header = header at *
  rcases kzalloc_cases placed (intToWord (rootDirSize header)) with ⟨extent, hands, result⟩ | ⟨_, result⟩
  · rw [result] at bytes ⊢
    refine ⟨extent, Heap.owns_marked hands.within, fun other owned => hands.apart owned, fun place inside => ?_⟩
    have number : (intToWord (rootDirSize header)).toNat = (rootDirSize header).toNat := by
      rw [intToWord, BitVec.toNat_ofInt]
      omega
    have offset : (kernel.heap.addressOf extent.first + BitVec.ofNat 32 place - kernel.heap.addressOf extent.first).toNat =
        place := by
      have small : place < 2 ^ 32 := by omega
      rw [BitVec.add_comm, BitVec.add_sub_cancel, BitVec.toNat_ofNat, Nat.mod_eq_of_lt small]
    constructor
    · exact placed.inExtent_of_lt hands (by rw [offset, number]; omega)
    · rw [bytes, offset, slice_getElem? _ _ (by omega : place < (rootDirSize header).toNat)]
      rfl
  · rw [result] at served
    exact absurd rfl served

end Buffer

theorem storedRoot_size (drive : Drive) (header : Nat -> Byte) :
    rootDirSize header = (slotSize * (storedRoot drive header).size : Nat) := by
  have entries : FatHeader.rootDirEntries header = ((storedRoot drive header).size : Int) := by
    change halfWordAt header 17 = ((halfWordAt header 17).toNat : Int)
    unfold halfWordAt
    rw [Int.toNat_natCast]
  rw [rootDirSize, entries, Int.natCast_mul, Int.mul_comm]

/-- The scan reads the first byte of each stored slot. -/
theorem scannedByte_root {drive : Drive} {header : Nat -> Byte} {index : Nat}
    (bound : rootDirStart header + (slotSize * index : Nat) < 2 ^ 31) :
    scannedByte drive (rootDirStart header) index = (storedRoot drive header).slots index 0 := by
  rcases @fat16SectorToAbsolute_rootDir header (by omega) with ⟨_, nonnegative, aligned⟩
  have position : scanPosition (rootDirStart header) index = rootDirStart header + (slotSize * index : Nat) := by
    unfold scanPosition
    rw [← Int.natCast_mul]
    exact wrapInt_of_small (by omega) bound
  have byte := @tmpBuf_byteAt drive (rootDirStart header + (slotSize * index : Nat)) 0 (by omega) (Int.le_refl 0)
    (by omega)
  rw [Int.add_zero, Int.add_zero] at byte
  unfold scannedByte
  rw [position, byte]
  rfl

/-- The slots that are counted and searched in the root directory. -/
structure RootEnds (drive : Drive) (header : Nat -> Byte) (mark : Nat) : Prop where
  first : FirstMark endsDirectory (fun index => (storedRoot drive header).slots index 0) mark
  inside : mark ≤ (storedRoot drive header).size
  bound : rootDirStart header + rootDirSize header + slotSize ≤ 2 ^ 31

theorem RootEnds.scanned {drive : Drive} {header : Nat -> Byte} {mark : Nat} (ends : RootEnds drive header mark)
    {index : Nat} (below : index ≤ mark) :
    (storedRoot drive header).slots index 0 = scannedByte drive (rootDirStart header) index := by
  have inside := ends.inside
  have bound := ends.bound
  have size := storedRoot_size drive header
  have reached : rootDirStart header + (slotSize * index : Nat) < 2 ^ 31 := by
    unfold slotSize at *
    omega
  exact (scannedByte_root reached).symm

theorem RootEnds.directoryEnds {drive : Drive} {header : Nat -> Byte} {mark : Nat}
    (ends : RootEnds drive header mark) : DirectoryEnds drive (rootDirStart header) mark :=
  ends.first.congr fun _ below => ends.scanned below

theorem RootEnds.slotsInUse {drive : Drive} {header : Nat -> Byte} {mark : Nat} (ends : RootEnds drive header mark) :
    Fs.slotsInUse drive (rootDirStart header) mark =
      countedBefore notDeleted (fun index => (storedRoot drive header).slots index 0) mark :=
  countedBefore_congr fun _ below => (ends.scanned (Nat.le_of_lt below)).symm

theorem rootScanned_heap (kernel : Kernel) (header : Nat -> Byte) (mark : Nat) :
    (rootScanned kernel header mark).heap = kernel.heap := rfl

theorem rootScanned_drive (kernel : Kernel) (header : Nat -> Byte) (mark : Nat) :
    driveOf (rootScanned kernel header mark) = driveOf kernel := rfl

/-- What the root directory is in memory: as many slots as are in use, each as
it is stored, in a buffer that is owned. -/
structure RootLoaded (stored : StoredDirectory) (mark : Nat) (loaded : Kernel) (directory : FatDirectory) : Prop where
  total : directory.total = (countedBefore notDeleted (fun index => stored.slots index 0) mark : Int)
  owned : exists guard, SlotsOwned guard loaded directory
  same : forall index, index < directory.total.toNat -> SameSlot (memorySlot loaded directory index) (stored.slots index)

theorem slotAddress_place (directory : FatDirectory) (index place : Nat) :
    slotAddress directory index + BitVec.ofNat 32 place =
      directory.item + BitVec.ofNat 32 (slotSize * index + place) := by
  rw [slotAddress, BitVec.add_assoc, BitVec.ofNat_add]

/-- The root directory that was loaded has the number of slots in use, and the
slots lie in an allocation apart from those that were there before. -/
structure RootBuffer (kernel : Kernel) (fatPrivate : Word) (mark : Nat) (loaded : Kernel) (extent : Extent) : Prop where
  total : (loaded.fatPrivates fatPrivate).rootDir.total = (countedBefore notDeleted
    (fun index => (storedRoot (driveOf kernel) (kernel.fatPrivates fatPrivate).header).slots index 0) mark : Int)
  apart : forall other, kernel.heap.Owns other -> other.Apart extent
  owned : SlotsOwned (fun other => other = extent) loaded (loaded.fatPrivates fatPrivate).rootDir
  same : forall index, index < (loaded.fatPrivates fatPrivate).rootDir.total.toNat ->
    SameSlot (memorySlot loaded (loaded.fatPrivates fatPrivate).rootDir index)
      ((storedRoot (driveOf kernel) (kernel.fatPrivates fatPrivate).header).slots index)

theorem fat16GetRootDirectory_rootBuffer {kernel loaded : Kernel} {fatPrivate : Word} {mark : Nat}
    (placed : kernel.heap.WellPlaced) (root : fat16GetRootDirectory kernel fatPrivate = some (0, loaded))
    (ends : RootEnds (driveOf kernel) (kernel.fatPrivates fatPrivate).header mark) :
    exists extent, RootBuffer kernel fatPrivate mark loaded extent := by
  have value := fat16GetRootDirectory_ends kernel fatPrivate ends.directoryEnds
  rw [ends.slotsInUse] at value
  have counted : countedBefore notDeleted
      (fun index => (storedRoot (driveOf kernel) (kernel.fatPrivates fatPrivate).header).slots index 0) mark ≤ mark :=
    countedBefore_le mark
  generalize number : countedBefore notDeleted
    (fun index => (storedRoot (driveOf kernel) (kernel.fatPrivates fatPrivate).header).slots index 0) mark = total at *
  have same := Option.some.inj (root.symm.trans value)
  have loadedSame : loaded = (loadRootDirectory (rootScanned kernel (kernel.fatPrivates fatPrivate).header mark)
      fatPrivate total).2 := congrArg Prod.snd same
  have res : (0 : Int) = (loadRootDirectory (rootScanned kernel (kernel.fatPrivates fatPrivate).header mark)
      fatPrivate total).1 := congrArg Prod.fst same
  have size := storedRoot_size (driveOf kernel) (kernel.fatPrivates fatPrivate).header
  have inside := ends.inside
  have bound := ends.bound
  have header : ((rootScanned kernel (kernel.fatPrivates fatPrivate).header mark).fatPrivates fatPrivate).header =
      (kernel.fatPrivates fatPrivate).header := rfl
  have drive := rootScanned_drive kernel (kernel.fatPrivates fatPrivate).header mark
  have heap := rootScanned_heap kernel (kernel.fatPrivates fatPrivate).header mark
  have scannedPlaced : (rootScanned kernel (kernel.fatPrivates fatPrivate).header mark).heap.WellPlaced := placed
  generalize rootScanned kernel (kernel.fatPrivates fatPrivate).header mark = scanned at *
  have served : (kzalloc scanned (intToWord (rootDirSize (scanned.fatPrivates fatPrivate).header))).1 ≠ 0#32 := by
    intro refused
    rw [loadRootDirectory_res, if_pos refused] at res
    exact absurd res (by decide)
  have rootDir := loadRootDirectory_rootDir (total : Int) served
  have buffer := loadRootDirectory_buffer (total : Int) served scannedPlaced (by
    rw [header]
    unfold slotSize at bound
    omega)
  rw [← loadedSame, header] at rootDir buffer
  rcases buffer with ⟨extent, owned, apart, bytes⟩
  have reach : forall index, index < ((loaded.fatPrivates fatPrivate).rootDir.total).toNat -> forall place,
      place < slotSize -> ((slotSize * index + place : Nat) : Int) < rootDirSize (kernel.fatPrivates fatPrivate).header := by
    intro index below place within
    rw [rootDir] at below
    change index < ((total : Nat) : Int).toNat at below
    rw [Int.toNat_natCast] at below
    unfold slotSize at *
    omega
  refine ⟨extent, (congrArg FatDirectory.total rootDir).trans (congrArg Int.ofNat number.symm), ?_, ?_, ?_⟩
  · intro other before
    exact apart other (heap ▸ before)
  · intro index below place within
    refine ⟨extent, rfl, owned, ?_⟩
    rw [slotAddress_place, rootDir]
    exact (bytes _ (reach index below place within)).1
  · intro index below place within
    have byte := (bytes _ (reach index below place within)).2
    rw [memorySlot, slotAt, slotAddress_place, rootDir]
    refine byte.trans ?_
    rw [drive]
    rfl

/-! ## Subdirectories -/

/-- A subdirectory as it is stored in a chain of clusters. -/
def StoredChain.directory {drive : Drive} {header : Nat -> Byte} (chain : StoredChain drive header) :
    StoredDirectory where
  slots := fun index place => storedByte drive header chain.first (slotSize * index + place : Nat)
  size := chain.length * (clusterBytes header).toNat / slotSize

theorem loadRootDirectory_pool {kernel : Kernel} (placed : kernel.heap.WellPlaced) (fatPrivate : Word)
    (totalItems : Int) : kernel.heap.SamePool (loadRootDirectory kernel fatPrivate totalItems).2.heap := by
  rw [loadRootDirectory_heap]
  exact (keeps_kzalloc (fun _ => True) placed
    (intToWord (rootDirSize (kernel.fatPrivates fatPrivate).header))).pool

theorem fat16GetRootDirectory_pool {kernel : Kernel} (placed : kernel.heap.WellPlaced) {fatPrivate : Word}
    {loaded : Int × Kernel} (root : fat16GetRootDirectory kernel fatPrivate = some loaded) :
    kernel.heap.SamePool loaded.2.heap := by
  rcases fat16GetRootDirectory_some root with ⟨mark, _, rfl⟩
  have scanned : (rootScanned kernel (kernel.fatPrivates fatPrivate).header mark).heap.WellPlaced := placed
  exact loadRootDirectory_pool scanned fatPrivate _

end Fs
end LarvaOS
