import Mathlib.Data.List.TakeWhile
import LarvaOS.Fs.FileTable
import LarvaOS.Fs.OpenClose
import LarvaOS.Kernel.Boot

namespace LarvaOS
namespace Fs

open Library Disk Memory

/-!
# Opening a file of the root directory

A heap with six free blocks at its end serves the open of a file in the root
directory: two for the path, one for each of the two descriptors, and two for
the item and its copy of the directory entry.  The file is then open at position
0, and its item holds the entry that is stored on the disk.
-/

/-! ## Requests that are served -/

/-- The kernel has changed by requests, and its blocks from this one on are
still free. -/
structure Ready (kernel current : Kernel) (first : Nat) : Prop where
  later : Later kernel current
  room : RoomFrom current first

/-- None of the requests was refused. -/
structure AllServed (kernel current : Kernel) (first : Nat) : Prop extends Ready kernel current first where
  refused : current.refused = kernel.refused

namespace AllServed

variable {kernel current : Kernel} {first mark : Nat}

theorem refl (room : RoomFrom kernel first) : AllServed kernel kernel first := ⟨⟨Later.refl kernel, room⟩, rfl⟩

theorem kzalloc (mounted : MountedRoot kernel mark) (ready : AllServed kernel current first) {size : Word}
    (one : blocksFor size = 1) (fits : first + 1 ≤ 25600) :
    (Memory.kzalloc current size).1 ≠ 0#32 ∧ AllServed kernel (Memory.kzalloc current size).2 (first + 1) := by
  have nonzero : size ≠ 0#32 := by
    rintro rfl
    exact absurd one (by decide)
  rcases ready.room.kzalloc size nonzero (by omega) with ⟨served, room⟩
  have counted := kzalloc_refused_count current size
  rw [if_neg served, Nat.add_zero] at counted
  rw [one] at room
  exact ⟨served, ⟨ready.later.kzalloc mounted.held size, room⟩, counted.trans ready.refused⟩

/-- A change of memory that leaves the allocations of the first kernel alone. -/
theorem withStore (ready : AllServed kernel current first) {store : Store}
    (keeps : KeepsObjects (fun _ => True) kernel (current.withStore store))
    (same : store.processRecords = current.processRecords) : AllServed kernel (current.withStore store) first :=
  ⟨⟨⟨keeps, ready.later.requests.withStore store same⟩, ready.room.of_heap rfl⟩, ready.refused⟩

end AllServed

/-! ## The item of a file -/

/-- A place of an object that begins an allocation. -/
theorem inExtent_place {heap : Heap} (placed : heap.WellPlaced) {extent : Extent} (owned : heap.Owns extent)
    {place : Nat} (inside : place < heapBlockSizeBytes) :
    heap.InExtent extent (heap.addressOf extent.first + BitVec.ofNat 32 place) := by
  refine placed.inExtent_of_page owned ?_
  have positive := extent.nonempty
  unfold heapBlockSizeBytes at *
  rw [BitVec.add_comm, BitVec.add_sub_cancel, BitVec.toNat_ofNat]
  omega

/-- The item lies in an allocation, and so does its copy of the entry of a
file. -/
structure FileItem (kernel : Kernel) (item : Word) (slot : Slot) : Prop where
  owned : exists extent, kernel.heap.Owns extent ∧ kernel.heap.InExtent extent item
  file : (kernel.fatItems item).type = FAT_ITEM_TYPE_FILE
  copied : exists extent, kernel.heap.Owns extent ∧ forall place, place < slotSize ->
    kernel.heap.InExtent extent ((kernel.fatItems item).pointer + BitVec.ofNat 32 place)
  same : SameSlot (slotAt kernel (kernel.fatItems item).pointer) slot

/-- The item stays as it is while allocations are kept. -/
theorem FileItem.keep {kernel after : Kernel} {item : Word} {slot : Slot} (made : FileItem kernel item slot)
    (keeps : KeepsObjects (fun _ => True) kernel after) : FileItem after item slot := by
  rcases made.owned with ⟨extent, owned, inside⟩
  rcases made.copied with ⟨copy, copyOwned, within⟩
  have record := (keeps.same extent trivial owned _ inside).fatItems
  refine ⟨⟨extent, keeps.owns extent trivial owned, keeps.pool.inExtent.mpr inside⟩, ?_, ⟨copy, ?_, ?_⟩, ?_⟩
  · rw [record]
    exact made.file
  · exact keeps.owns copy trivial copyOwned
  · intro place below
    rw [record]
    exact keeps.pool.inExtent.mpr (within place below)
  · intro place below
    rw [record]
    exact (keeps.same copy trivial copyOwned _ (within place below)).bytes.trans (made.same place below)

/-- The kernel with an item and its copy of the entry of a file. -/
def storeFileItem (kernel : Kernel) (item copy : Word) (slot : Slot) : Kernel :=
  storeItem (storeBytes kernel copy ((List.range slotSize).map slot)) item ⟨copy, FAT_ITEM_TYPE_FILE⟩

theorem storeFileItem_heap (kernel : Kernel) (item copy : Word) (slot : Slot) :
    (storeFileItem kernel item copy slot).heap = kernel.heap := rfl

theorem storeFileItem_record (kernel : Kernel) (item copy : Word) (slot : Slot) :
    (storeFileItem kernel item copy slot).fatItems item = ⟨copy, FAT_ITEM_TYPE_FILE⟩ := Function.update_self _ _ _

theorem storeFileItem_copy (kernel : Kernel) (item copy : Word) (slot : Slot) :
    SameSlot (slotAt (storeFileItem kernel item copy slot) copy) slot := by
  intro place below
  have offset : (copy + BitVec.ofNat 32 place - copy).toNat = place := by
    unfold slotSize at below
    rw [BitVec.add_comm, BitVec.add_sub_cancel, BitVec.toNat_ofNat]
    omega
  change (storeBytes kernel copy ((List.range slotSize).map slot)).bytes (copy + BitVec.ofNat 32 place) = _
  rw [storeBytes_bytes, offset, List.getElem?_map, List.getElem?_range below]
  rfl

theorem storeFileItem_fileItem {kernel : Kernel} (placed : kernel.heap.WellPlaced) {item copy : Word}
    {extent other : Extent} (itemOwned : kernel.heap.Owns extent) (itemAddress : item = kernel.heap.addressOf extent.first)
    (copyOwned : kernel.heap.Owns other) (copyAddress : copy = kernel.heap.addressOf other.first) (slot : Slot) :
    FileItem (storeFileItem kernel item copy slot) item slot := by
  have record := storeFileItem_record kernel item copy slot
  refine ⟨⟨extent, itemOwned, ?_⟩, ?_, ⟨other, copyOwned, ?_⟩, ?_⟩
  · rw [itemAddress]
    exact inExtent_addressOf placed itemOwned
  · rw [record]
  · intro place below
    rw [record, copyAddress]
    exact inExtent_place placed copyOwned (Nat.lt_trans below (by decide))
  · rw [record]
    exact storeFileItem_copy kernel item copy slot

theorem bindDescriptor_disk (kernel : Kernel) (slot : Nat) (fd p : Word) :
    (bindDescriptor kernel slot fd p).disk = kernel.disk := by
  unfold bindDescriptor storeSlot
  split <;> rfl

theorem bindDescriptor_refused (kernel : Kernel) (slot : Nat) (fd p : Word) :
    (bindDescriptor kernel slot fd p).refused = kernel.refused := by
  unfold bindDescriptor storeSlot
  split <;> rfl

theorem bindDescriptor_sameVolume (kernel : Kernel) (slot : Nat) (fd p : Word) :
    SameVolume kernel (bindDescriptor kernel slot fd p) := by
  unfold bindDescriptor storeSlot
  split <;> exact ⟨rfl, rfl⟩

section Opening

variable {kernel current : Kernel} {first mark : Nat} (mounted : MountedRoot kernel mark)
include mounted

/-- Two blocks serve the item of a file. -/
theorem fat16MakeNewFatItemForDirectoryItem_ready (ready : AllServed kernel current first) (fits : first + 2 ≤ 25600)
    {slot : Slot} (regular : slot.isSubdirectory = false) :
    exists made, fat16MakeNewFatItemForDirectoryItem current slot = some made ∧ made.1 ≠ 0#32 ∧
      AllServed kernel made.2 (first + 2) ∧ FileItem made.2 made.1 slot := by
  rcases ready.kzalloc mounted (by decide : blocksFor 8#32 = 1) (by omega) with ⟨served, later⟩
  rcases later.kzalloc mounted (by decide : blocksFor 32#32 = 1) (by omega) with ⟨copied, last⟩
  have middle := later.room.kernelHeap.wellPlaced
  rcases (KeepsObjects.refl (fun _ => True) current).acquired ready.room.kernelHeap.wellPlaced served with
    ⟨extent, acquired, _, _⟩
  rcases (KeepsObjects.refl (fun _ => True) _).acquired middle copied with ⟨copy, acquiredCopy, _, _⟩
  have itemOwned := acquired.kzalloc middle 32#32
  have result : fat16MakeNewFatItemForDirectoryItem current slot =
      some ((kzalloc current 8#32).1, storeFileItem (kzalloc (kzalloc current 8#32).2 32#32).2
        (kzalloc current 8#32).1 (kzalloc (kzalloc current 8#32).2 32#32).1 slot) := by
    unfold fat16MakeNewFatItemForDirectoryItem fat16CloneDirectoryItem
    simp only [served, copied, regular, Bool.false_eq_true, if_false]
    rfl
  have made := ready.later.make mounted.held result
  generalize (kzalloc current 8#32).1 = item at *
  generalize kzalloc (kzalloc current 8#32).2 32#32 = buffer at *
  exact ⟨_, result, served, ⟨⟨made, last.room.of_heap (storeFileItem_heap _ _ _ _)⟩, last.refused⟩,
    storeFileItem_fileItem last.room.kernelHeap.wellPlaced itemOwned.owned itemOwned.address acquiredCopy.owned
      acquiredCopy.address slot⟩

/-! ## The open -/

/-- Among the slots of the root directory this one alone is taken for the name,
and it is the entry of a file. -/
structure RootFile (kernel : Kernel) (name : List Byte) (index : Nat) : Prop where
  below : index < (privateOf kernel).rootDir.total.toNat
  taken : TakenFor name (memorySlot kernel (privateOf kernel).rootDir index)
  only : forall other, other < (privateOf kernel).rootDir.total.toNat -> other ≠ index ->
    ¬ TakenFor name (memorySlot kernel (privateOf kernel).rootDir other)
  regular : (memorySlot kernel (privateOf kernel).rootDir index).isSubdirectory = false

/-- The search finds the file. -/
theorem fat16FindItemInDirectory_ready (ready : AllServed kernel current first) (fits : first + 2 ≤ 25600)
    {name : List Byte} {index : Nat} (file : RootFile kernel name index) :
    exists made, fat16FindItemInDirectory current (privateOf kernel).rootDir name = some made ∧ made.1 ≠ 0#32 ∧
      AllServed kernel made.2 (first + 2) ∧
      FileItem made.2 made.1 (memorySlot kernel (privateOf kernel).rootDir index) := by
  have here := ready.later.slots mounted file.below
  have regular := here.isSubdirectory.trans file.regular
  rcases fat16MakeNewFatItemForDirectoryItem_ready mounted ready fits regular with ⟨made, make, served, later, item⟩
  have untaken : forall state, Later kernel state -> forall other, other < (privateOf kernel).rootDir.total.toNat ->
      other ≠ index -> ¬ TakenFor name (memorySlot state (privateOf kernel).rootDir other) := by
    intro state reached other inside different taken
    exact file.only other inside different ((TakenFor.congr (reached.slots mounted inside)).mp taken)
  have before : searchFrom (privateOf kernel).rootDir name (List.range index) (Search.start current) =
      some (Search.start current) := by
    refine searchFrom_untaken fun other member => ?_
    have earlier := List.mem_range.mp member
    have below := file.below
    exact untaken current ready.later other (by omega) (by omega)
  have search : searchFrom (privateOf kernel).rootDir name (visitedSlots (privateOf kernel).rootDir)
      (Search.start current) = some ⟨some index, made.1, made.2⟩ := by
    have taken : TakenFor name (memorySlot (Search.start current).kernel (privateOf kernel).rootDir index) :=
      (TakenFor.congr here).mpr file.taken
    have makes : fat16MakeNewFatItemForDirectoryItem (Search.start current).kernel
        (memorySlot (Search.start current).kernel (privateOf kernel).rootDir index) = some made := make
    rw [visitedSlots, range_split file.below, searchFrom_append, before, Option.bind_some, searchFrom, if_pos taken,
      makes, Option.bind_some]
    refine searchFrom_untaken fun other member => ?_
    have bounds := List.mem_range'_1.mp member
    exact untaken made.2 later.later other (by omega) (by omega)
  have found := searchFrom_eq_searchSlots (privateOf kernel).rootDir name (visitedSlots (privateOf kernel).rootDir)
    (Search.start current)
  rw [search] at found
  exact ⟨made, found.symm, served, later, item.owned, item.file, item.copied,
    fun place within => (item.same place within).trans (here place within)⟩

/-- What opening a file leaves of it. -/
structure FileOpened (kernel : Kernel) (p : Word) (slot : Slot) : Prop where
  owned : exists extent, kernel.heap.Owns extent ∧ p = kernel.heap.addressOf extent.first
  item : FileItem kernel (kernel.fatFileDescriptors p).item slot
  pos : (kernel.fatFileDescriptors p).pos = 0#32

omit mounted in
theorem FileOpened.keep {after : Kernel} {p : Word} {slot : Slot} (opened : FileOpened kernel p slot)
    (placed : kernel.heap.WellPlaced) (keeps : KeepsObjects (fun _ => True) kernel after) : FileOpened after p slot := by
  rcases opened.owned with ⟨extent, owned, address⟩
  have inside : kernel.heap.InExtent extent p := by
    rw [address]
    exact inExtent_addressOf placed owned
  have record := (keeps.same extent trivial owned _ inside).fatFileDescriptors
  refine ⟨⟨extent, keeps.owns extent trivial owned, address.trans (keeps.pool.addressOf _).symm⟩, ?_, ?_⟩
  · rw [record]
    exact opened.item.keep keeps
  · rw [record]
    exact opened.pos

omit mounted in
/-- The entry may be known from elsewhere. -/
theorem FileOpened.congr {p : Word} {slot slot' : Slot} (opened : FileOpened kernel p slot) (same : SameSlot slot slot') :
    FileOpened kernel p slot' :=
  ⟨opened.owned, ⟨opened.item.owned, opened.item.file, opened.item.copied, opened.item.same.trans same⟩, opened.pos⟩

/-- Three blocks serve `fat16_open`. -/
theorem fat16Open_ready (ready : AllServed kernel current first) (fits : first + 3 ≤ 25600) {part : PathPart} {index : Nat}
    (file : RootFile kernel part.text index) :
    exists opened, fat16Open current part [] .read = some opened ∧ isErr opened.1 = false ∧
      AllServed kernel opened.2 (first + 3) ∧
      FileOpened opened.2 opened.1 (memorySlot kernel (privateOf kernel).rootDir index) := by
  have placed := mounted.kernelHeap.wellPlaced
  rcases ready.kzalloc mounted (by decide : blocksFor 8#32 = 1) (by omega) with ⟨served, later⟩
  rcases ready.later.keeps.acquired placed served with ⟨extent, acquired, _, _⟩
  rcases fat16FindItemInDirectory_ready mounted later (by omega) file with ⟨made, find, found, last, item⟩
  have sameRoot := congrArg FatPrivateData.rootDir (later.later.fatPrivate mounted.held)
  have searched := find
  rw [← sameRoot] at searched
  have result : fat16Open current part [] .read = some ((kzalloc current 8#32).1,
      storeFatFileDescriptor made.2 (kzalloc current 8#32).1 ⟨made.1, 0#32⟩) := by
    unfold fat16Open fat16GetDirectoryEntry
    simp only [searched, served, found, descend, ne_eq, not_true_eq_false, if_false, Option.bind_some, Option.map_some]
  have keeps := (searchSlots_keeps later.room.kernelHeap (KeepsObjects.refl (fun _ => True) _)
    (fun nonNull => absurd rfl nonNull) find).1
  have fresh := acquired.fresh_pointer placed later.later.keeps.pool
  have owned := keeps.owns extent trivial acquired.owned
  have address := acquired.address.trans (keeps.pool.addressOf extent.first).symm
  generalize (kzalloc current 8#32).1 = p at *
  have stored := storeFatFileDescriptor_keeps last.later.keeps fresh ⟨made.1, 0#32⟩
  have record : (storeFatFileDescriptor made.2 p ⟨made.1, 0#32⟩).fatFileDescriptors p = ⟨made.1, 0#32⟩ :=
    Function.update_self _ _ _
  refine ⟨_, result, ?_, last.withStore stored rfl, ⟨extent, owned, address⟩, ?_, ?_⟩
  · rw [address]
    exact isErr_addressOf last.room.kernelHeap.wellPlaced owned.address_inside
  · rw [record]
    exact ⟨item.owned, item.file, item.copied, item.same⟩
  · rw [record]

/-! ## The path -/

omit mounted in
theorem takeWhile_notSlash {name : List Byte} (plain : forall c, c ∈ name -> c ≠ forwardSlash) :
    nextComponent name = (name, []) := by
  have each : forall c, c ∈ name -> decide (c ≠ forwardSlash) = true := fun c member => decide_eq_true (plain c member)
  unfold nextComponent
  rw [List.takeWhile_eq_self_iff.mpr each, List.dropWhile_eq_nil_iff.mpr each]

omit mounted in
/-- A path of one component begins with that component. -/
theorem fromComponent_single {name : List Byte} (plain : forall c, c ∈ name -> c ≠ forwardSlash) :
    fromComponent (forwardSlash :: name) = name := by
  rw [fromComponent_slash]
  cases name with
  | nil => rfl
  | cons c rest => exact fromComponent_cons (plain c List.mem_cons_self) rest

/-- A copy of a short component is served by one block. -/
theorem copyComponent_ready (ready : AllServed kernel current first) (fits : first + 1 ≤ 25600) {name rest : List Byte}
    (short : name.length < heapBlockSizeBytes) :
    (copyComponent current (name, rest)).path ≠ 0#32 ∧
      AllServed kernel (copyComponent current (name, rest)).kernel (first + 1) := by
  unfold heapBlockSizeBytes at short
  have size : (copySize name).toNat = name.length + 1 := by
    rw [copySize, BitVec.toNat_ofNat]
    omega
  have one : blocksFor (copySize name) = 1 := by
    unfold blocksFor
    rw [size]
    omega
  have below : name.length < entryTableAddress := Nat.lt_trans short (by decide)
  rcases ready.kzalloc mounted one fits with ⟨served, later⟩
  refine ⟨served, ⟨⟨?_, ?_⟩, ?_⟩, ?_⟩
  · exact copyComponent_keeps mounted.kernelHeap ready.later.keeps (Or.inl below)
  · exact copyComponent_requests ready.later.requests (Or.inl below)
  · refine later.room.of_heap ?_
    unfold copyComponent
    simp only [served, if_false]
    rfl
  · exact (copyComponent_refused current (name, rest)).trans later.refused

/-- Two blocks serve a path of one component. -/
theorem pathParse_ready (ready : AllServed kernel current first) (fits : first + 2 ≤ 25600) {name : List Byte}
    (nonempty : name ≠ []) (plain : forall c, c ∈ name -> c ≠ forwardSlash) (short : name.length < heapBlockSizeBytes) :
    exists part parsed, pathParse current (forwardSlash :: name) = ([part], parsed) ∧ part.text = name ∧
      AllServed kernel parsed (first + 2) := by
  have component := takeWhile_notSlash plain
  rcases @copyComponent_ready _ _ _ _ mounted ready (by omega) name [] short with ⟨copied, later⟩
  rcases later.kzalloc mounted (by decide : blocksFor 8#32 = 1) (by omega) with ⟨served, last⟩
  have parsed : parseOnePathPart current (forwardSlash :: name) =
      (some ⟨(kzalloc (copyComponent current (name, [])).kernel 8#32).1, (copyComponent current (name, [])).path,
        name⟩, [], (kzalloc (copyComponent current (name, [])).kernel 8#32).2) := by
    have first' : firstComponent (forwardSlash :: name) = name := by
      rw [firstComponent, fromComponent_single plain, component]
    unfold parseOnePathPart
    rw [getAndRemovePrefixPath_eq, first', if_neg nonempty, fromComponent_single plain, component]
    simp only [copied, served, if_false]
    rfl
  have ends : forall count after, parseParts count after [] = ([], after) := by
    intro count after
    cases count with
    | zero => rfl
    | succ count => rfl
  have valid : pathFormatIsValid (forwardSlash :: name) = true := rfl
  have whole : pathParse current (forwardSlash :: name) =
      ([⟨(kzalloc (copyComponent current (name, [])).kernel 8#32).1, (copyComponent current (name, [])).path, name⟩],
        (kzalloc (copyComponent current (name, [])).kernel 8#32).2) := by
    unfold pathParse
    rw [valid, parseParts, parsed]
    simp only [ends, Bool.not_true, Bool.false_eq_true, if_false]
  exact ⟨_, _, whole, rfl, last⟩

/-! ## The whole open -/

/-- A file that was just opened. -/
structure JustOpened (kernel opened : Kernel) (fd : Int) (slot : Slot) : Prop where
  openFile : OpenFile opened fd
  position : filePosition opened fd = 0
  slot : SameSlot (slotOf opened (fileData opened fd)) slot
  copy : exists extent, opened.heap.Owns extent ∧ forall place, place < slotSize -> opened.heap.InExtent extent
    ((opened.fatItems (opened.fatFileDescriptors (fileData opened fd)).item).pointer + BitVec.ofNat 32 place)
  volume : SameVolume kernel opened

/-- The objects of an open file are allocations. -/
structure HeldFile (kernel : Kernel) (fd : Int) (slot : Slot) : Prop where
  descriptor : exists extent, kernel.heap.Owns extent ∧ getFileDescriptor kernel fd = kernel.heap.addressOf extent.first
  opened : FileOpened kernel (fileData kernel fd) slot

section Keeping

omit mounted

variable {after : Kernel} {fd : Int} {slot : Slot} (held : HeldFile kernel fd slot) (placed : kernel.heap.WellPlaced)
  (keeps : KeepsObjects (fun _ => True) kernel after) (table : after.fileDescriptors = kernel.fileDescriptors)
include held placed keeps table

theorem HeldFile.fileData_keep :
    getFileDescriptor after fd = getFileDescriptor kernel fd ∧ fileData after fd = fileData kernel fd := by
  rcases held.descriptor with ⟨extent, owned, address⟩
  have pointer : getFileDescriptor after fd = getFileDescriptor kernel fd := by
    unfold getFileDescriptor
    rw [table]
  have inside : kernel.heap.InExtent extent (getFileDescriptor kernel fd) := by
    rw [address]
    exact inExtent_addressOf placed owned
  refine ⟨pointer, ?_⟩
  unfold fileData
  rw [pointer, (keeps.same extent trivial owned _ inside).fileDescriptorRecords]

/-- The file stays open while allocations are kept. -/
theorem HeldFile.keep : HeldFile after fd slot := by
  rcases held.fileData_keep placed keeps table with ⟨pointer, data⟩
  rcases held.descriptor with ⟨extent, owned, address⟩
  refine ⟨⟨extent, keeps.owns extent trivial owned, ?_⟩, ?_⟩
  · rw [pointer, address, keeps.pool.addressOf]
  · rw [data]
    exact held.opened.keep placed keeps

end Keeping

omit mounted in
theorem HeldFile.justOpened {booted : Kernel} {fd : Int} {slot : Slot} (held : HeldFile kernel fd slot)
    (placed : kernel.heap.WellPlaced) (volume : SameVolume booted kernel) : JustOpened booted kernel fd slot := by
  rcases held.descriptor with ⟨extent, owned, address⟩
  refine ⟨⟨?_, held.opened.item.file⟩, ?_, held.opened.item.same, held.opened.item.copied, volume⟩
  · rw [address]
    exact placed.addressOf_ne_null owned.address_inside
  · exact congrArg BitVec.toNat held.opened.pos

/-- The file system opens a file in the root directory in a heap with room. -/
theorem fopenAttempt_rootFile (ready : AllServed kernel current first) (fits : first + 5 ≤ 25600)
    (fs : current.disk.fs = true) {name : List Byte} (nonempty : name ≠ [])
    (plain : forall c, c ∈ name -> c ≠ forwardSlash) (short : name.length < heapBlockSizeBytes) {index : Nat}
    (file : RootFile kernel name index) :
    exists p, fopenAttempt current (forwardSlash :: name) [0x72#8] = some p ∧ isErr p.1 = false ∧
      AllServed kernel p.2 (first + 5) ∧ FileOpened p.2 p.1 (memorySlot kernel (privateOf kernel).rootDir index) := by
  rcases pathParse_ready mounted ready (by omega) nonempty plain short with ⟨part, parsed, parses, text, later⟩
  rw [← text] at file
  rcases fat16Open_ready mounted later (by omega) file with ⟨p, opens, noError, last, fileOpened⟩
  refine ⟨p, ?_, noError, last, fileOpened⟩
  have globals := later.later.requests.toGlobals.trans ready.later.requests.toGlobals.symm
  have found : parsed.disk.fs = true := (congrArg (fun globals => globals.disk.fs) globals).trans fs
  have mode : getFileModeByString [0x72#8] = .read := by decide
  unfold fopenAttempt
  rw [parses]
  simp only [found, mode, opens, Bool.not_true, Bool.false_eq_true, reduceCtorEq, if_false]

/-- An open of a file in the root directory succeeds in a heap with room, when
the table of file descriptors has an empty slot before the last. -/
theorem fopen_rootFile (ready : AllServed kernel current first) (fits : first + 6 ≤ 25600) (fs : current.disk.fs = true)
    {name : List Byte} (nonempty : name ≠ []) (plain : forall c, c ∈ name -> c ≠ forwardSlash)
    (short : name.length < heapBlockSizeBytes) {index : Nat} (file : RootFile kernel name index) {slot : Nat}
    (free : freeSlot current.fileDescriptors = some slot) (early : slot + 1 < MAX_FILE_DESCRIPTORS) :
    exists opened, fopen current (forwardSlash :: name) [0x72#8] = some ((slot : Int) + 1, opened) ∧
      JustOpened kernel opened (slot + 1) (memorySlot kernel (privateOf kernel).rootDir index) ∧
      opened.fileDescriptors = Function.update current.fileDescriptors slot (getFileDescriptor opened (slot + 1)) ∧
      RoomFrom opened (first + 6) ∧
      HeldFile opened (slot + 1) (memorySlot kernel (privateOf kernel).rootDir index) ∧
      KeepsObjects (fun _ => True) kernel opened ∧ opened.disk = kernel.disk ∧ opened.refused = kernel.refused := by
  have placed := mounted.kernelHeap.wellPlaced
  rcases fopenAttempt_rootFile mounted ready (by omega) fs nonempty plain short file with
    ⟨p, attempt, noError, last, fileOpened⟩
  rcases last.kzalloc mounted (by decide : blocksFor sizeofFileDescriptor = 1) (by omega) with ⟨served, finished⟩
  have inside := (freeSlot_some free).1
  have globals := last.later.requests.toGlobals.trans ready.later.requests.toGlobals.symm
  have descriptors : p.2.fileDescriptors = current.fileDescriptors := congrArg Globals.fileDescriptors globals
  have result : fopen current (forwardSlash :: name) [0x72#8] = some ((slot : Int) + 1,
      bindDescriptor (kzalloc p.2 sizeofFileDescriptor).2 slot (kzalloc p.2 sizeofFileDescriptor).1 p.1) := by
    rw [← descriptors] at free
    rw [fopen_of_attempt attempt, fopenEnd, noError, if_neg Bool.false_ne_true, openDescriptor_free free]
  have kept := fileOpened.keep last.room.kernelHeap.wellPlaced
    (keeps_kzalloc (fun _ => True) last.room.kernelHeap.wellPlaced sizeofFileDescriptor).objects
  have table : (kzalloc p.2 sizeofFileDescriptor).2.fileDescriptors = current.fileDescriptors :=
    (congrArg Globals.fileDescriptors (kzalloc_globals p.2 sizeofFileDescriptor)).trans descriptors
  have volume : SameVolume kernel (kzalloc p.2 sizeofFileDescriptor).2 :=
    ⟨finished.later.fatPrivate mounted.held, finished.later.drive⟩
  have disk : (kzalloc p.2 sizeofFileDescriptor).2.disk = kernel.disk :=
    congrArg Globals.disk finished.later.requests.toGlobals
  have finishedRoom := finished.room
  rcases last.later.keeps.acquired placed served with ⟨extent, acquired, _, _⟩
  have owned := acquired.owned
  have address := acquired.address
  have fresh := acquired.fresh_pointer placed finished.later.keeps.pool
  have finishedKeeps := finished.later.keeps
  have refused := finished.refused
  clear acquired finished
  generalize (kzalloc p.2 sizeofFileDescriptor).1 = fd at *
  generalize (kzalloc p.2 sizeofFileDescriptor).2 = allocated at *
  have descriptor : getFileDescriptor (bindDescriptor allocated slot fd p.1) (slot + 1) = fd := by
    rw [getFileDescriptor_bind _ inside, if_pos early]
  have data : fileData (bindDescriptor allocated slot fd p.1) (slot + 1) = p.1 := by
    unfold fileData
    rw [descriptor, bindDescriptor_record]
  have store := bindDescriptor_toStore allocated slot fd p.1
  have files := congrArg Store.fatFileDescriptors store
  have items := congrArg Store.fatItems store
  have bytes := congrArg Store.bytes store
  have stillOpen : FileOpened (bindDescriptor allocated slot fd p.1) p.1
      (memorySlot kernel (privateOf kernel).rootDir index) := by
    refine ⟨?_, ⟨?_, ?_, ?_, ?_⟩, ?_⟩
    · rw [bindDescriptor_heap]
      exact kept.owned
    · rw [files, bindDescriptor_heap]
      exact kept.item.owned
    · rw [files, items]
      exact kept.item.file
    · rw [files, items, bindDescriptor_heap]
      exact kept.item.copied
    · unfold slotAt
      rw [files, items, bytes]
      exact kept.item.same
    · rw [files]
      exact kept.pos
  have held : HeldFile (bindDescriptor allocated slot fd p.1) (slot + 1)
      (memorySlot kernel (privateOf kernel).rootDir index) := by
    refine ⟨⟨extent, ?_, ?_⟩, ?_⟩
    · rw [bindDescriptor_heap]
      exact owned
    · rw [descriptor, bindDescriptor_heap]
      exact address
    · rw [data]
      exact stillOpen
  have later := finishedRoom.of_heap (bindDescriptor_heap allocated slot fd p.1)
  refine ⟨_, result, held.justOpened later.kernelHeap.wellPlaced (volume.trans (bindDescriptor_sameVolume _ _ _ _)), ?_,
    later, held, bindDescriptor_keeps finishedKeeps fresh slot p.1, ?_, ?_⟩
  · rw [descriptor, bindDescriptor_fileDescriptors _ _ _ _ inside, table]
  · exact (bindDescriptor_disk allocated slot fd p.1).trans disk
  · exact (bindDescriptor_refused allocated slot fd p.1).trans refused

/-- The file of a name, by the slots that are stored. -/
theorem RootFile.of_stored {name : List Byte} {index : Nat}
    (below : index < countedBefore notDeleted
      (fun slot => (storedRoot (driveOf kernel) (privateOf kernel).header).slots slot 0) mark)
    (taken : TakenFor name ((storedRoot (driveOf kernel) (privateOf kernel).header).slots index))
    (only : forall other, other < countedBefore notDeleted
      (fun slot => (storedRoot (driveOf kernel) (privateOf kernel).header).slots slot 0) mark -> other ≠ index ->
        ¬ TakenFor name ((storedRoot (driveOf kernel) (privateOf kernel).header).slots other))
    (regular : ((storedRoot (driveOf kernel) (privateOf kernel).header).slots index).isSubdirectory = false) :
    RootFile kernel name index := by
  have total := mounted.root.total
  have inside : forall slot, slot < (privateOf kernel).rootDir.total.toNat -> slot < countedBefore notDeleted
      (fun slot => (storedRoot (driveOf kernel) (privateOf kernel).header).slots slot 0) mark := by
    intro slot within
    rw [total] at within
    omega
  have here : index < (privateOf kernel).rootDir.total.toNat := by
    rw [total]
    omega
  refine ⟨here, (TakenFor.congr (mounted.root.same index here)).mpr taken, fun other within different => ?_,
    (mounted.root.same index here).isSubdirectory.trans regular⟩
  rw [TakenFor.congr (mounted.root.same other within)]
  exact only other (inside other within) different

/-- The only file of a volume. -/
theorem RootFile.of_only {name : List Byte} (inUse : countedBefore notDeleted
      (fun slot => (storedRoot (driveOf kernel) (privateOf kernel).header).slots slot 0) mark = 1)
    (taken : TakenFor name ((storedRoot (driveOf kernel) (privateOf kernel).header).slots 0))
    (regular : ((storedRoot (driveOf kernel) (privateOf kernel).header).slots 0).isSubdirectory = false) :
    RootFile kernel name 0 := by
  refine RootFile.of_stored mounted ?_ taken ?_ regular
  · rw [inUse]
    exact Nat.one_pos
  · rw [inUse]
    intro other below different
    omega

end Opening

/-! ## A volume with one file -/

/-- The only file of a volume, in the first slot of its root directory, is
opened by a booted kernel. -/
theorem onlyFile_opens {sectors : Int -> Nat -> Byte} (stray : Int -> Byte)
    (signed : FatHeader.signature (sectors 0) = FAT16_SIGNATURE) (slots : FatHeader.rootDirEntries (sectors 0) ≠ 0)
    (sized : FatHeader.sectorsPerCluster (sectors 0) ≠ 0) (ends : RootEnds ⟨sectors, stray⟩ (sectors 0) 1)
    (inUse : countedBefore notDeleted (fun slot => (storedRoot ⟨sectors, stray⟩ (sectors 0)).slots slot 0) 1 = 1)
    {name : List Byte} (nonempty : name ≠ []) (plain : forall c, c ∈ name -> c ≠ forwardSlash)
    (short : name.length < heapBlockSizeBytes)
    (taken : TakenFor name ((storedRoot ⟨sectors, stray⟩ (sectors 0)).slots 0))
    (regular : ((storedRoot ⟨sectors, stray⟩ (sectors 0)).slots 0).isSubdirectory = false) :
    exists booted opened, boot (Kernel.loaded Store.blank sectors stray) (fun _ => 0#8) = some booted ∧
      fopen booted (forwardSlash :: name) [0x72#8] = some (1, opened) ∧
      Resolved (Kernel.loaded Store.blank sectors stray) opened ∧ RoomFrom opened 1549 ∧
      JustOpened booted opened 1 ((storedRoot ⟨sectors, stray⟩ (sectors 0)).slots 0) := by
  rcases boot_mounted Store.blank stray (fun _ => 0#8) signed slots sized ends with
    ⟨booted, boots, room, fs, mounted, volume⟩
  have stored : storedRoot (driveOf booted) (privateOf booted).header = storedRoot ⟨sectors, stray⟩ (sectors 0) := by
    rw [volume.drive, volume.header.storedRoot]
    rfl
  have file : RootFile booted name 0 := by
    refine RootFile.of_only mounted ?_ ?_ ?_
    · rw [stored]
      exact inUse
    · rw [stored]
      exact taken
    · rw [stored]
      exact regular
  have ready : AllServed booted booted 1543 := AllServed.refl room
  have empty := (boot_booted boots).fileDescriptors
  have free : freeSlot booted.fileDescriptors = some 0 := by
    rw [empty]
    exact freeSlot_empty
  rcases fopen_rootFile mounted ready (by decide) fs nonempty plain short file free (by decide) with
    ⟨opened, opens, just, _, later, _⟩
  have slot := mounted.root.same 0 file.below
  rw [stored] at slot
  exact ⟨booted, opened, boots, opens, volume.later just.volume, later, just.openFile, just.position,
    just.slot.trans slot, just.copy, just.volume⟩

/-- A volume of one sector a cluster.  Its only file is `A`, of a hundred bytes.
Each byte of cluster 2 is the low byte of its place. -/
abbrev fileSectors : Int -> Nat -> Byte := fun sector place =>
  if sector = 0 then
    if place = 13 ∨ place = 14 ∨ place = 22 then 1#8 else if place = 16 then 2#8 else if place = 17 then 16#8
    else if place = 38 then FAT16_SIGNATURE else 0#8
  else if sector = 1 ∧ (place = 4 ∨ place = 5) then 0xFF#8
  else if sector = 3 ∧ place < 32 then
    if place = 0 then 0x41#8 else if place < 12 then 0x20#8 else if place = 26 then 2#8
    else if place = 28 then 100#8 else 0#8
  else if sector = 4 then BitVec.ofNat 8 place
  else 0#8

/-- The loaded kernel. -/
abbrev fileVolume : Kernel := Kernel.loaded Store.blank fileSectors fun _ => 0#8

theorem fileVolume_ends : RootEnds (driveOf fileVolume) (bootSector fileVolume) 1 :=
  ⟨⟨by decide, by decide⟩, by decide, by decide⟩

/-- The file of that volume is opened by a booted kernel. -/
theorem fileVolume_opens : exists booted opened,
    boot fileVolume (fun _ => 0#8) = some booted ∧ fopen booted [forwardSlash, 0x41#8] [0x72#8] = some (1, opened) ∧
      Resolved fileVolume opened ∧ RoomFrom opened 1549 ∧
      JustOpened booted opened 1 ((storedRoot (driveOf fileVolume) (bootSector fileVolume)).slots 0) :=
  @onlyFile_opens fileSectors (fun _ => 0#8) (by decide) (by decide) (by decide) fileVolume_ends (by decide) [0x41#8]
    (by decide) (by decide) (by decide) (by decide) (by decide)

theorem fileVolume_length {booted opened : Kernel} {fd : Int}
    (just : JustOpened booted opened fd ((storedRoot (driveOf fileVolume) (bootSector fileVolume)).slots 0)) :
    fileLength opened fd = 100 := just.slot.filesize.trans (by decide)

end Fs
end LarvaOS
