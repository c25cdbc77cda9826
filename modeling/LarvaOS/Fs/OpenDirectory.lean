import LarvaOS.Fs.DirectoryTree
import LarvaOS.Fs.OpenRoot

namespace LarvaOS
namespace Fs

open Disk Libc Library Memory

/-!
# Opening a directory of the root directory

An open does not ask whether the entry that it finds is that of a file.  A heap with room
serves the open of a directory, and the item that is found has the type of a directory.
-/

/-! ## Room -/

theorem RoomFrom.request {kernel : Kernel} {first : Nat} (room : RoomFrom kernel first) (size : Word) :
    RoomFrom (Memory.kzalloc kernel size).2 (first + blocksFor size) := by
  have placed := room.kernelHeap.wellPlaced
  refine ⟨room.kernelHeap.samePool (keeps_kzalloc (fun _ => True) placed size).pool, ?_⟩
  rcases kzalloc_cases placed size with ⟨extent, hands, result⟩ | ⟨_, result⟩
  · rw [result]
    intro block above inside
    have inside' : block < kernel.heap.table.total.toNat := inside
    refine blockFree_markExtent.mpr ⟨fun covered => ?_, room.free block (by omega) inside'⟩
    have upper := covered.2
    rw [hands.count] at upper
    refine hands.lowest first (by omega) ⟨by omega, fun other lower below => room.free other lower (by omega)⟩
  · rw [result]
    exact room.free.mono (Nat.le_add_right _ _)

theorem fat16FreeDirectory_room {kernel : Kernel} {first : Nat} (room : RoomFrom kernel first) (directory : Word) :
    RoomFrom (fat16FreeDirectory kernel directory) first := by
  unfold fat16FreeDirectory
  by_cases null : directory = 0#32
  · rw [if_pos null]
    exact room
  · rw [if_neg null]
    by_cases none : (kernel.fatDirectories directory).item = 0#32
    · simp only [none, ne_eq, not_true_eq_false, if_false]
      exact room.kfree directory
    · simp only [none, ne_eq, not_false_eq_true, if_true]
      exact (room.kfree _).kfree directory

theorem slotBuffer_roomFrom {kernel : Kernel} {first : Nat} (room : RoomFrom kernel first) (directory : Word) {total : Int}
    (few : blocksFor (intToWord (directorySize total)) ≤ 1) : RoomFrom (slotBuffer kernel directory total).2 (first + 1) := by
  have counted := room.of_heap (storeDirectory_heap kernel directory { kernel.fatDirectories directory with total := total })
  have served := (counted.request (intToWord (directorySize total))).mono (Nat.add_le_add_left few first)
  unfold slotBuffer
  exact served.of_heap (storeDirectory_heap _ _ _)

theorem loadSlots_roomFrom {kernel : Kernel} {first : Nat} (room : RoomFrom kernel first) {directory : Word}
    {cluster total : Int} (few : blocksFor (intToWord (directorySize total)) ≤ 1) {loaded : Word × Kernel}
    (load : loadSlots kernel directory cluster total = some loaded) : RoomFrom loaded.2 (first + 1) := by
  have buffer := slotBuffer_roomFrom room directory few
  unfold loadSlots at load
  by_cases full : (slotBuffer kernel directory total).1 = 0#32
  · simp only [full, if_true] at load
    obtain rfl := Option.some.inj load
    exact fat16FreeDirectory_room buffer directory
  · simp only [full, if_false] at load
    rcases Option.map_eq_some_iff.mp load with ⟨reading, read, rfl⟩
    have later := buffer.of_heap (fat16ReadInternal_transferred (directorySize_lt total) read).heap
    by_cases failed : reading.res < 0
    · simp only [failed, if_true]
      exact fat16FreeDirectory_room later directory
    · simp only [failed, if_false]
      exact later

/-- The position of the directory of an entry has at most a page of entries. -/
def FewSlots (kernel : Kernel) (slot : Slot) : Prop :=
  forall counted, fat16GetTotalItemsForDirectory kernel
    (fat16ClusterToSector (privateOf kernel) (fat16GetFirstCluster slot)) = some counted ->
      blocksFor (intToWord (directorySize counted.1)) ≤ 1

theorem fat16LoadFatDirectory_roomFrom {kernel : Kernel} {first : Nat} (room : RoomFrom kernel first) {slot : Slot}
    (few : FewSlots (kzalloc kernel 16#32).2 slot) {loaded : Word × Kernel}
    (load : fat16LoadFatDirectory kernel slot = some loaded) : RoomFrom loaded.2 (first + 2) := by
  have record : RoomFrom (kzalloc kernel 16#32).2 (first + 1) := room.request 16#32
  unfold fat16LoadFatDirectory at load
  by_cases file : (!slot.isSubdirectory) = true
  · rw [if_pos file] at load
    obtain rfl := Option.some.inj load
    exact room.mono (Nat.le_add_right _ _)
  · rw [if_neg file] at load
    by_cases refused : (kzalloc kernel 16#32).1 = 0#32
    · simp only [refused, if_true] at load
      obtain rfl := Option.some.inj load
      exact record.mono (Nat.le_succ _)
    · simp only [refused, if_false] at load
      rcases Option.bind_eq_some_iff.mp load with ⟨counted, count, slots⟩
      have scanned := record.of_heap (fat16GetTotalItemsForDirectory_transferred count).heap
      exact loadSlots_roomFrom scanned (few counted count) slots

/-- The directory of an entry ends, and at most a page of its entries are in use. -/
def SmallDirectory (kernel : Kernel) (slot : Slot) : Prop :=
  exists mark, DirectoryEnds (driveOf kernel)
      (fat16ClusterToSector (privateOf kernel) (fat16GetFirstCluster slot) * DISK_SECTOR_SIZE) mark ∧
    slotsInUse (driveOf kernel)
      (fat16ClusterToSector (privateOf kernel) (fat16GetFirstCluster slot) * DISK_SECTOR_SIZE) mark ≤ 128

theorem SmallDirectory.later {kernel current : Kernel} (held : VolumeHeld kernel) (later : Later kernel current)
    {slot : Slot} (small : SmallDirectory kernel slot) : SmallDirectory current slot := by
  unfold SmallDirectory
  rw [later.drive, later.fatPrivate held]
  exact small

theorem SmallDirectory.congr {kernel : Kernel} {slot slot' : Slot} (small : SmallDirectory kernel slot)
    (same : SameSlot slot' slot) : SmallDirectory kernel slot' := by
  unfold SmallDirectory
  rw [same.firstCluster]
  exact small

theorem SmallDirectory.fewSlots {kernel : Kernel} {slot : Slot} (small : SmallDirectory kernel slot) :
    FewSlots kernel slot := by
  rcases small with ⟨mark, ends, few⟩
  intro counted count
  rw [fat16GetTotalItemsForDirectory_ends _ _ ends] at count
  obtain rfl := Option.some.inj count
  dsimp only
  rcases Nat.eq_zero_or_pos (slotsInUse (driveOf kernel)
    (fat16ClusterToSector (privateOf kernel) (fat16GetFirstCluster slot) * DISK_SECTOR_SIZE) mark) with none | some
  · rw [none]
    decide
  · exact Nat.le_of_eq (directorySize_page some few).2

/-! ## The item -/

/-- The item of a directory has its type, and leaves room. -/
theorem fat16MakeNewFatItemForDirectoryItem_directory {kernel : Kernel} {first : Nat} (room : RoomFrom kernel first)
    {slot : Slot} (directory : slot.isSubdirectory = true)
    (few : FewSlots (kzalloc (kzalloc kernel 8#32).2 16#32).2 slot) (fits : first + 1 ≤ 25600) {made : Word × Kernel}
    (make : fat16MakeNewFatItemForDirectoryItem kernel slot = some made) :
    made.1 ≠ 0#32 ∧ (made.2.fatItems made.1).type = FAT_ITEM_TYPE_DIRECTORY ∧ RoomFrom made.2 (first + 3) := by
  rcases room.kzalloc 8#32 (by decide) fits with ⟨served, item⟩
  unfold fat16MakeNewFatItemForDirectoryItem at make
  simp only [served, directory, if_true, if_false] at make
  rcases Option.map_eq_some_iff.mp make with ⟨loaded, load, rfl⟩
  refine ⟨served, ?_, ?_⟩
  · rw [storeItem_self]
  · exact (fat16LoadFatDirectory_roomFrom item few load).of_heap rfl

/-! ## The open -/

/-- A descriptor of the file system that has the item of a directory. -/
structure DirectoryOpened (kernel : Kernel) (p : Word) : Prop where
  owned : exists extent, kernel.heap.Owns extent ∧ p = kernel.heap.addressOf extent.first
  directory : (kernel.fatItems (kernel.fatFileDescriptors p).item).type = FAT_ITEM_TYPE_DIRECTORY

/-- A request in between leaves the item a directory: a cleared type is that of one. -/
theorem DirectoryOpened.kzalloc {kernel : Kernel} {p : Word} (opened : DirectoryOpened kernel p)
    (placed : kernel.heap.WellPlaced) (size : Word) : DirectoryOpened (Memory.kzalloc kernel size).2 p := by
  have keeps := (keeps_kzalloc (fun _ => True) placed size).objects
  rcases opened.owned with ⟨extent, owned, address⟩
  have inside : kernel.heap.InExtent extent p := by
    rw [address]
    exact inExtent_addressOf placed owned
  refine ⟨⟨extent, keeps.owns extent trivial owned, address.trans (keeps.pool.addressOf _).symm⟩, ?_⟩
  rw [(keeps.same extent trivial owned _ inside).fatFileDescriptors]
  rcases kzalloc_fatItems kernel size (kernel.fatFileDescriptors p).item with same | cleared
  · rw [same]
    exact opened.directory
  · rw [cleared]
    rfl

section Opening

variable {kernel current : Kernel} {first mark index : Nat} (mounted : MountedRoot kernel mark)
  (ready : AllServed kernel current first)
include mounted ready

/-- Four blocks serve `fat16_open` on the only slot of the root directory. -/
theorem fat16Open_directory (fits : first + 4 ≤ 25600) {part : PathPart}
    (visited : visitedSlots (privateOf kernel).rootDir = [index])
    (taken : TakenFor part.text (memorySlot kernel (privateOf kernel).rootDir index))
    (directory : (memorySlot kernel (privateOf kernel).rootDir index).isSubdirectory = true)
    (small : SmallDirectory kernel (memorySlot kernel (privateOf kernel).rootDir index)) :
    exists opened, fat16Open current part [] .read = some opened ∧ isErr opened.1 = false ∧
      Later kernel opened.2 ∧ RoomFrom opened.2 (first + 4) ∧ DirectoryOpened opened.2 opened.1 := by
  have placed := mounted.kernelHeap.wellPlaced
  rcases ready.kzalloc mounted (by decide : blocksFor 8#32 = 1) (by omega) with ⟨served, later⟩
  rcases ready.later.keeps.acquired placed served with ⟨extent, acquired, _, _⟩
  have root : (privateOf (kzalloc current 8#32).2).rootDir = (privateOf kernel).rootDir :=
    congrArg FatPrivateData.rootDir (later.later.fatPrivate mounted.held)
  have inside : index < (privateOf kernel).rootDir.total.toNat := by
    have member : index ∈ visitedSlots (privateOf kernel).rootDir := by
      rw [visited]
      exact List.mem_singleton_self index
    exact List.mem_range.mp member
  have here := later.later.slots mounted inside
  have isDirectory := here.isSubdirectory.trans directory
  have ends : Countable kernel (memorySlot (kzalloc current 8#32).2 (privateOf kernel).rootDir index) := by
    rcases small with ⟨last, ended, _⟩
    exact (Countable.congr here).mpr fun _ => ⟨last, ended⟩
  rcases fat16MakeNewFatItemForDirectoryItem_returns mounted.held later.later mounted.sized ends with ⟨made, make⟩
  have item := (later.later.kzalloc mounted.held 8#32).kzalloc mounted.held 16#32
  have few := ((small.later mounted.held item).congr here).fewSlots
  rcases fat16MakeNewFatItemForDirectoryItem_directory later.room isDirectory few (by omega) make with
    ⟨found, type, room⟩
  have find : fat16FindItemInDirectory (kzalloc current 8#32).2 (privateOf (kzalloc current 8#32).2).rootDir part.text =
      some made := by
    have matched : strcasecmp (fat16GetFullRelativeFilename
        (slotAt (kzalloc current 8#32).2 (slotAddress (privateOf kernel).rootDir index))) part.text = 0 :=
      (TakenFor.congr here).mpr taken
    rw [root, fat16FindItemInDirectory, visited, searchSlots]
    simp only [matched, if_true]
    exact congrArg (fun result => Option.bind result _) make
  have result : fat16Open current part [] .read = some ((kzalloc current 8#32).1,
      storeFatFileDescriptor made.2 (kzalloc current 8#32).1 ⟨made.1, 0#32⟩) := by
    unfold fat16Open fat16GetDirectoryEntry
    simp only [find, served, found, descend, ne_eq, not_true_eq_false, if_false, Option.bind_some, Option.map_some]
  have searched := later.later.make mounted.held make
  have keeps := (fat16MakeNewFatItemForDirectoryItem_keeps later.room.kernelHeap
    (KeepsObjects.refl (fun _ => True) (kzalloc current 8#32).2) make).1
  have owned := keeps.owns extent trivial acquired.owned
  have address := acquired.address.trans (keeps.pool.addressOf extent.first).symm
  have fresh := acquired.fresh_pointer placed later.later.keeps.pool
  generalize (kzalloc current 8#32).1 = p at *
  have stored := storeFatFileDescriptor_keeps searched.keeps fresh ⟨made.1, 0#32⟩
  have record : (storeFatFileDescriptor made.2 p ⟨made.1, 0#32⟩).fatFileDescriptors p = ⟨made.1, 0#32⟩ :=
    Function.update_self _ _ _
  refine ⟨_, result, ?_, ⟨stored, searched.requests.withStore _ rfl⟩, room.of_heap rfl, ⟨extent, owned, address⟩, ?_⟩
  · rw [address]
    exact isErr_addressOf room.kernelHeap.wellPlaced owned.address_inside
  · rw [record]
    exact type

/-- An open of a directory in the root directory succeeds like that of a file. -/
theorem fopen_directory (fits : first + 7 ≤ 25600) (fs : current.disk.fs = true) {name : List Byte} (nonempty : name ≠ [])
    (plain : forall c, c ∈ name -> c ≠ forwardSlash) (short : name.length < heapBlockSizeBytes)
    (visited : visitedSlots (privateOf kernel).rootDir = [index])
    (taken : TakenFor name (memorySlot kernel (privateOf kernel).rootDir index))
    (directory : (memorySlot kernel (privateOf kernel).rootDir index).isSubdirectory = true)
    (small : SmallDirectory kernel (memorySlot kernel (privateOf kernel).rootDir index)) {slot : Nat}
    (free : freeSlot current.fileDescriptors = some slot) (early : slot + 1 < MAX_FILE_DESCRIPTORS) :
    exists opened, fopen current (forwardSlash :: name) [0x72#8] = some ((slot : Int) + 1, opened) ∧
      getFileDescriptor opened (slot + 1) ≠ 0#32 ∧ DirectoryOpened opened (fileData opened (slot + 1)) := by
  rcases pathParse_ready mounted ready (by omega) nonempty plain short with ⟨part, parsed, parses, text, later⟩
  rw [← text] at taken
  rcases fat16Open_directory mounted later (by omega) visited taken directory small with
    ⟨p, opens, noError, last, room, directoryOpened⟩
  have inside := (freeSlot_some free).1
  have globals := last.requests.toGlobals.trans ready.later.requests.toGlobals.symm
  have parsedGlobals := later.later.requests.toGlobals.trans ready.later.requests.toGlobals.symm
  have descriptors : p.2.fileDescriptors = current.fileDescriptors := congrArg Globals.fileDescriptors globals
  have result : fopen current (forwardSlash :: name) [0x72#8] = some ((slot : Int) + 1,
      bindDescriptor (kzalloc p.2 sizeofFileDescriptor).2 slot (kzalloc p.2 sizeofFileDescriptor).1 p.1) := by
    have found : parsed.disk.fs = true := (congrArg (fun globals => globals.disk.fs) parsedGlobals).trans fs
    have mode : getFileModeByString [0x72#8] = .read := by decide
    rw [← descriptors] at free
    unfold fopen
    rw [parses]
    simp only [found, mode, opens, noError, openDescriptor_free free, Bool.not_true, Bool.false_eq_true, reduceCtorEq,
      if_false, Option.map_some]
  have one : blocksFor sizeofFileDescriptor = 1 := by decide
  have served := (room.kzalloc sizeofFileDescriptor (by decide) (by omega)).1
  have kept := directoryOpened.kzalloc room.kernelHeap.wellPlaced sizeofFileDescriptor
  generalize (kzalloc p.2 sizeofFileDescriptor).1 = fd at *
  generalize (kzalloc p.2 sizeofFileDescriptor).2 = allocated at *
  have descriptor : getFileDescriptor (bindDescriptor allocated slot fd p.1) (slot + 1) = fd := by
    rw [getFileDescriptor_bind _ inside, if_pos early]
  have data : fileData (bindDescriptor allocated slot fd p.1) (slot + 1) = p.1 := by
    unfold fileData
    rw [descriptor, bindDescriptor_record]
  have store := bindDescriptor_toStore allocated slot fd p.1
  have files := congrArg Store.fatFileDescriptors store
  have items := congrArg Store.fatItems store
  refine ⟨_, result, ?_, ?_, ?_⟩
  · rw [descriptor]
    exact served
  · rw [data, bindDescriptor_heap]
    exact kept.owned
  · rw [data, files, items]
    exact kept.directory

end Opening

/-! ## The directory of a volume -/

/-- A booted kernel opens the directory of the volume. -/
theorem treeVolume_opens : exists booted opened,
    boot (Kernel.loaded Store.blank treeVolume.sectors fun _ => 0#8) (fun _ => 0#8) = some booted ∧
      fopen booted [forwardSlash, 0x44#8] [0x72#8] = some (1, opened) ∧ getFileDescriptor opened 1 ≠ 0#32 ∧
        DirectoryOpened opened (fileData opened 1) := by
  rcases boot_mounted Store.blank (fun _ => 0#8) (fun _ => 0#8) (by decide) (by decide) (by decide) treeVolume_ends with
    ⟨booted, boots, room, fs, mounted, volume⟩
  have tree : Resolved treeVolume booted := ⟨volume.drive, volume.header, volume.signature, volume.rootDir⟩
  rcases treeEntry mounted tree with ⟨taken, directory, cluster⟩
  have ready : AllServed booted booted 1543 := AllServed.refl room
  have small : SmallDirectory booted (memorySlot booted (privateOf booted).rootDir 0) := by
    unfold SmallDirectory
    rw [cluster, treeSector_two tree, tree.drive]
    exact ⟨1, ⟨by decide, by decide⟩, by decide⟩
  have free : freeSlot booted.fileDescriptors = some 0 := by
    rw [(boot_booted boots).fileDescriptors]
    exact freeSlot_empty
  rcases fopen_directory mounted ready (by decide) fs (by decide) (by decide) (by decide) (treeVisited mounted tree) taken
    directory small free (by decide) with ⟨opened, opens, accepted, directoryOpened⟩
  exact ⟨booted, opened, boots, opens, accepted, directoryOpened⟩

end Fs
end LarvaOS
