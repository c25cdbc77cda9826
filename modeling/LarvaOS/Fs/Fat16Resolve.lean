import LarvaOS.Fs.Fat16
import LarvaOS.Fs.RootDirectory

namespace LarvaOS
namespace Fs

open Library Disk Memory

/-!
# Resolving the disk

An accepted disk leaves its boot sector's header in the private data.  Nothing
that happens after the header was read touches it, because the private data is
held in an allocation of its own, or lies at address 0 when the heap refused it.
-/

/-! ## The steps -/

/-- The private data that `fat16_resolve` allocates. -/
def privatePointer (kernel : Kernel) : Word := (kzalloc kernel sizeofPrivateData).1

/-- The kernel once the disk points to the private data. -/
def boundDisk (kernel : Kernel) : Kernel :=
  withDisk (fat16InitPrivateData (kzalloc kernel sizeofPrivateData).2 (privatePointer kernel))
    ⟨true, privatePointer kernel⟩

/-- The stream for the boot sector. -/
def bootStream (kernel : Kernel) : Word × Kernel := createDiskStream (boundDisk kernel)

/-- The kernel once the header was read. -/
def headerRead (kernel : Kernel) (stream fatPrivate : Word) : Kernel :=
  let transfer := diskStreamRead kernel stream fatHeaderSize
  modifyPrivate transfer.2 fatPrivate ({ · with header := headerOf transfer.1.bytes })

theorem fat16Resolve_eq (kernel : Kernel) :
    fat16Resolve kernel =
      if (bootStream kernel).1 = 0#32 then
        some (finishResolve (bootStream kernel).2 (bootStream kernel).1 (privatePointer kernel) (- ENOMEM))
      else resolveWith (bootStream kernel).2 (bootStream kernel).1 (privatePointer kernel) := by
  unfold fat16Resolve bootStream boundDisk privatePointer
  rfl

theorem finishResolve_failed (kernel : Kernel) (stream fatPrivate : Word) {res : Int} (negative : res < 0) :
    (finishResolve kernel stream fatPrivate res).1 = res := by
  unfold finishResolve
  simp only [negative, if_true]

theorem finishResolve_accepted (kernel : Kernel) {stream : Word} (fatPrivate : Word) (created : stream ≠ 0#32) :
    finishResolve kernel stream fatPrivate 0 = (0, kfree kernel stream) := by
  unfold finishResolve
  rw [if_pos created]
  rfl

theorem resolveWith_accepted {kernel resolved : Kernel} {stream fatPrivate : Word} (created : stream ≠ 0#32)
    (accepted : resolveWith kernel stream fatPrivate = some (0, resolved)) :
    FatHeader.signature ((headerRead kernel stream fatPrivate).fatPrivates fatPrivate).header = FAT16_SIGNATURE ∧
      exists loaded, fat16GetRootDirectory (headerRead kernel stream fatPrivate) fatPrivate = some (0, loaded) ∧
        resolved = kfree loaded stream := by
  unfold resolveWith at accepted
  simp only [diskStreamRead_result, ne_eq, not_true_eq_false, if_false] at accepted
  change (if ¬ FatHeader.signature ((headerRead kernel stream fatPrivate).fatPrivates fatPrivate).header =
      FAT16_SIGNATURE then some (finishResolve (headerRead kernel stream fatPrivate) stream fatPrivate (- EIO))
    else (fat16GetRootDirectory (headerRead kernel stream fatPrivate) fatPrivate).map _) = _ at accepted
  by_cases signed : FatHeader.signature ((headerRead kernel stream fatPrivate).fatPrivates fatPrivate).header =
      FAT16_SIGNATURE
  · rw [if_neg (not_not.mpr signed)] at accepted
    refine ⟨signed, ?_⟩
    rcases Option.map_eq_some_iff.mp accepted with ⟨⟨res, loaded⟩, root, finished⟩
    by_cases failed : res = 0
    · subst failed
      refine ⟨loaded, root, ?_⟩
      change finishResolve loaded stream fatPrivate 0 = _ at finished
      rw [finishResolve_accepted loaded fatPrivate created] at finished
      exact (congrArg Prod.snd finished).symm
    · simp only [failed, not_false_eq_true, if_true] at finished
      have res' : - EIO = 0 :=
        (finishResolve_failed loaded stream fatPrivate (by decide)).symm.trans (congrArg Prod.fst finished)
      exact absurd res' (by decide)
  · rw [if_pos signed] at accepted
    have res : - EIO = 0 := (finishResolve_failed (headerRead kernel stream fatPrivate) stream fatPrivate
      (by decide)).symm.trans (congrArg Prod.fst (Option.some.inj accepted))
    exact absurd res (by decide)

theorem resolveWith_of_loaded {kernel loaded : Kernel} {stream fatPrivate : Word} (created : stream ≠ 0#32)
    (signed : FatHeader.signature ((headerRead kernel stream fatPrivate).fatPrivates fatPrivate).header =
      FAT16_SIGNATURE)
    (root : fat16GetRootDirectory (headerRead kernel stream fatPrivate) fatPrivate = some (0, loaded)) :
    resolveWith kernel stream fatPrivate = some (0, kfree loaded stream) := by
  unfold resolveWith
  simp only [diskStreamRead_result, ne_eq, not_true_eq_false, if_false]
  change (if ¬ FatHeader.signature ((headerRead kernel stream fatPrivate).fatPrivates fatPrivate).header =
      FAT16_SIGNATURE then some (finishResolve (headerRead kernel stream fatPrivate) stream fatPrivate (- EIO))
    else (fat16GetRootDirectory (headerRead kernel stream fatPrivate) fatPrivate).map _) = _
  rw [if_neg (not_not.mpr signed), root]
  exact congrArg some (finishResolve_accepted loaded fatPrivate created)

/-! ## What the steps keep -/

/-- The disk is the same one, and the private data is held. -/
structure HoldsPrivate (before : Kernel) (fatPrivate : Word) (kernel : Kernel) : Prop where
  drive : driveOf kernel = driveOf before
  placed : kernel.heap.WellPlaced
  held : Held kernel fatPrivate

namespace HoldsPrivate

variable {before kernel : Kernel} {fatPrivate : Word}

theorem allocated (placed : before.heap.WellPlaced) (size : Word) :
    HoldsPrivate before (kzalloc before size).1 (kzalloc before size).2 where
  drive := driveOf_kzalloc before size
  placed := kzalloc_wellPlaced placed size
  held := held_kzalloc placed size

theorem withStore (holds : HoldsPrivate before fatPrivate kernel) (store : Store) :
    HoldsPrivate before fatPrivate (kernel.withStore store) := ⟨holds.drive, holds.placed, holds.held⟩

theorem withDisk (holds : HoldsPrivate before fatPrivate kernel) (disk : DiskRecord) :
    HoldsPrivate before fatPrivate (Fs.withDisk kernel disk) := ⟨holds.drive, holds.placed, holds.held⟩

theorem kzalloc (holds : HoldsPrivate before fatPrivate kernel) (size : Word) :
    HoldsPrivate before fatPrivate (Memory.kzalloc kernel size).2 where
  drive := (driveOf_kzalloc kernel size).trans holds.drive
  placed := kzalloc_wellPlaced holds.placed size
  held := (holds.held.kzalloc holds.placed size).1

theorem createDiskStream (holds : HoldsPrivate before fatPrivate kernel) :
    HoldsPrivate before fatPrivate (Disk.createDiskStream kernel).2 := (holds.kzalloc 8#32).withStore _

theorem diskStreamRead (holds : HoldsPrivate before fatPrivate kernel) (stream : Word) (total : Int) :
    HoldsPrivate before fatPrivate (Disk.diskStreamRead kernel stream total).2 := holds.withStore _

theorem modifyPrivate (holds : HoldsPrivate before fatPrivate kernel) (address : Word)
    (change : FatPrivateData -> FatPrivateData) :
    HoldsPrivate before fatPrivate (Fs.modifyPrivate kernel address change) := holds.withStore _

theorem keepNewStream (holds : HoldsPrivate before fatPrivate kernel)
    (field : Word -> FatPrivateData -> FatPrivateData) :
    HoldsPrivate before fatPrivate (Fs.keepNewStream kernel fatPrivate field) :=
  holds.createDiskStream.modifyPrivate fatPrivate _

end HoldsPrivate

theorem fat16InitPrivateData_holds {before kernel : Kernel} {fatPrivate : Word}
    (holds : HoldsPrivate before fatPrivate kernel) :
    HoldsPrivate before fatPrivate (fat16InitPrivateData kernel fatPrivate) := by
  unfold fat16InitPrivateData
  have cleared := holds.withStore (kernel.toStore.fillZero fatPrivate sizeofPrivateData)
  exact ((cleared.keepNewStream _).keepNewStream _).keepNewStream _

theorem boundDisk_holds {kernel : Kernel} (placed : kernel.heap.WellPlaced) :
    HoldsPrivate kernel (privatePointer kernel) (boundDisk kernel) := by
  unfold boundDisk privatePointer
  have initialized := fat16InitPrivateData_holds (HoldsPrivate.allocated placed sizeofPrivateData)
  exact initialized.withDisk _

theorem bootStream_holds {kernel : Kernel} (placed : kernel.heap.WellPlaced) :
    HoldsPrivate kernel (privatePointer kernel) (bootStream kernel).2 := by
  unfold bootStream
  exact (boundDisk_holds placed).createDiskStream

theorem headerRead_holds {before kernel : Kernel} {fatPrivate : Word}
    (holds : HoldsPrivate before fatPrivate kernel) (stream : Word) :
    HoldsPrivate before fatPrivate (headerRead kernel stream fatPrivate) := by
  unfold headerRead
  exact (holds.diskStreamRead stream fatHeaderSize).modifyPrivate fatPrivate _

theorem createDiskStream_pos (kernel : Kernel) :
    (createDiskStream kernel).2.streamPositions (createDiskStream kernel).1 = 0 := by
  unfold createDiskStream diskStreamSeek
  exact Function.update_self _ _ _

/-! ## The header -/

/-- The two headers have the same fields. -/
def SameHeader (header header' : Nat -> Byte) : Prop := forall place, place < fatHeaderSize -> header place = header' place

/-- The boot sector of the disk. -/
def bootSector (kernel : Kernel) : Nat -> Byte := kernel.sectors 0

theorem bootSector_congr {kernel kernel' : Kernel} (drive : driveOf kernel' = driveOf kernel) :
    bootSector kernel' = bootSector kernel := congrArg (fun disk : Drive => disk.sectors 0) drive

theorem bootSector_read (drive : Drive) (place : Nat) (inside : place < fatHeaderSize) :
    headerOf (streamTransfer drive 0 fatHeaderSize).bytes place = drive.sectors 0 place := by
  have delivered := (streamTransfer_aligned drive (Int.le_refl 0) (by decide : (0 : Int) ≤ fatHeaderSize) (by decide)
    (by decide)).bytes
  have count : (fatHeaderSize : Int).toNat = fatHeaderSize := Int.toNat_natCast _
  rw [headerOf, delivered, count, List.getD_eq_getElem?_getD, slice_getElem? _ _ inside]
  unfold fatHeaderSize at inside
  have sector : (0 + (place : Int)) / 512 = 0 := by omega
  have index : ((0 + (place : Int)) % 512).toNat = place := by omega
  change drive.sectors _ _ = _
  rw [sector, index]

theorem headerRead_header (kernel : Kernel) (stream fatPrivate : Word) (start : kernel.streamPositions stream = 0) :
    SameHeader ((headerRead kernel stream fatPrivate).fatPrivates fatPrivate).header (bootSector kernel) := by
  intro place inside
  unfold headerRead
  rw [modifyPrivate_self]
  change headerOf (streamTransfer (driveOf kernel) (kernel.streamPositions stream) fatHeaderSize).bytes place = _
  rw [start]
  exact bootSector_read (driveOf kernel) place inside

namespace SameHeader

variable {header header' : Nat -> Byte} (same : SameHeader header header')
include same

theorem sectorsPerCluster : FatHeader.sectorsPerCluster header = FatHeader.sectorsPerCluster header' := by
  unfold FatHeader.sectorsPerCluster
  rw [same 13 (by decide)]

theorem reservedSectors : FatHeader.reservedSectors header = FatHeader.reservedSectors header' := by
  unfold FatHeader.reservedSectors halfWordAt
  rw [same 14 (by decide), same 15 (by decide)]

theorem fatCopies : FatHeader.fatCopies header = FatHeader.fatCopies header' := by
  unfold FatHeader.fatCopies
  rw [same 16 (by decide)]

theorem rootDirEntries : FatHeader.rootDirEntries header = FatHeader.rootDirEntries header' := by
  unfold FatHeader.rootDirEntries halfWordAt
  rw [same 17 (by decide), same 18 (by decide)]

theorem sectorsPerFat : FatHeader.sectorsPerFat header = FatHeader.sectorsPerFat header' := by
  unfold FatHeader.sectorsPerFat halfWordAt
  rw [same 22 (by decide), same 23 (by decide)]

theorem signature : FatHeader.signature header = FatHeader.signature header' := by
  unfold FatHeader.signature
  rw [same 38 (by decide)]

theorem rootDirSectorPos : Fs.rootDirSectorPos header = Fs.rootDirSectorPos header' := by
  unfold Fs.rootDirSectorPos
  rw [same.fatCopies, same.sectorsPerFat, same.reservedSectors]

theorem rootDirStart : Fs.rootDirStart header = Fs.rootDirStart header' := by
  unfold Fs.rootDirStart
  rw [same.rootDirSectorPos]

theorem rootDirSize : Fs.rootDirSize header = Fs.rootDirSize header' := by
  unfold Fs.rootDirSize
  rw [same.rootDirEntries]

end SameHeader

/-! ## The volume that was resolved -/

/-- What an accepted disk leaves: the boot sector's header, and the root
directory up to the slot that ends it. -/
structure Resolved (kernel resolved : Kernel) : Prop where
  drive : driveOf resolved = driveOf kernel
  header : SameHeader (privateOf resolved).header (bootSector kernel)
  signature : FatHeader.signature (bootSector kernel) = FAT16_SIGNATURE
  rootDir : exists mark dir, DirectoryEnds (driveOf kernel) (rootDirStart (bootSector kernel)) mark ∧
    (privateOf resolved).rootDir = loadedRootDir (bootSector kernel) dir
      (slotsInUse (driveOf kernel) (rootDirStart (bootSector kernel)) mark)

theorem loadRootDirectory_toGlobals (kernel : Kernel) (fatPrivate : Word) (totalItems : Int) :
    (loadRootDirectory kernel fatPrivate totalItems).2.toGlobals = kernel.toGlobals := by
  have globals := kzalloc_globals kernel (intToWord (rootDirSize (kernel.fatPrivates fatPrivate).header))
  unfold loadRootDirectory
  by_cases refused : (kzalloc kernel (intToWord (rootDirSize (kernel.fatPrivates fatPrivate).header))).1 = 0#32
  · simp only [refused, if_true, globals]
  · simp only [refused, diskStreamRead_result, ne_eq, not_true_eq_false, if_false, modifyPrivate_toGlobals,
      storeBytes_toGlobals, diskStreamRead_toGlobals, diskStreamSeek_toGlobals, globals]

/-- The root directory is all that changes of the private data. -/
theorem loadRootDirectory_record {kernel : Kernel} {fatPrivate : Word} (placed : kernel.heap.WellPlaced)
    (held : Held kernel fatPrivate) (totalItems : Int) : exists rootDir,
    (loadRootDirectory kernel fatPrivate totalItems).2.fatPrivates fatPrivate =
      { kernel.fatPrivates fatPrivate with rootDir := rootDir } := by
  have same := (held.kzalloc placed (intToWord (rootDirSize (kernel.fatPrivates fatPrivate).header))).2.fatPrivates
  unfold loadRootDirectory
  by_cases refused : (kzalloc kernel (intToWord (rootDirSize (kernel.fatPrivates fatPrivate).header))).1 = 0#32
  · refine ⟨(kernel.fatPrivates fatPrivate).rootDir, ?_⟩
    simp only [refused, if_true, same]
  · simp only [refused, diskStreamRead_result, ne_eq, not_true_eq_false, if_false, modifyPrivate_self,
      storeBytes_fatPrivates, diskStreamRead_fatPrivates, diskStreamSeek_fatPrivates, same]
    exact ⟨_, rfl⟩

theorem createDiskStream_toGlobals (kernel : Kernel) : (createDiskStream kernel).2.toGlobals = kernel.toGlobals := by
  unfold createDiskStream
  rw [diskStreamSeek_toGlobals, kzalloc_globals]

theorem headerRead_heap (kernel : Kernel) (stream fatPrivate : Word) :
    (headerRead kernel stream fatPrivate).heap = kernel.heap := by
  unfold headerRead
  rw [modifyPrivate_heap, diskStreamRead_heap]

theorem headerRead_toGlobals (kernel : Kernel) (stream fatPrivate : Word) :
    (headerRead kernel stream fatPrivate).toGlobals = kernel.toGlobals := by
  unfold headerRead
  rw [modifyPrivate_toGlobals, diskStreamRead_toGlobals]

/-- The private data that the disk points to is the one that was allocated. -/
theorem headerRead_disk (kernel : Kernel) (stream fatPrivate : Word) :
    (headerRead (bootStream kernel).2 stream fatPrivate).disk = ⟨true, privatePointer kernel⟩ := by
  have globals : (headerRead (bootStream kernel).2 stream fatPrivate).toGlobals = (boundDisk kernel).toGlobals := by
    rw [headerRead_toGlobals, bootStream, createDiskStream_toGlobals]
  exact congrArg Globals.disk globals

/-- The root directory that was loaded without an error. -/
theorem fat16GetRootDirectory_loaded {kernel loaded : Kernel} {fatPrivate : Word} (placed : kernel.heap.WellPlaced)
    (held : Held kernel fatPrivate) (root : fat16GetRootDirectory kernel fatPrivate = some (0, loaded)) :
    loaded.toGlobals = kernel.toGlobals ∧
      (loaded.fatPrivates fatPrivate).header = (kernel.fatPrivates fatPrivate).header ∧
        exists mark dir, DirectoryEnds (driveOf kernel) (rootDirStart (kernel.fatPrivates fatPrivate).header) mark ∧
          (loaded.fatPrivates fatPrivate).rootDir = loadedRootDir (kernel.fatPrivates fatPrivate).header dir
            (slotsInUse (driveOf kernel) (rootDirStart (kernel.fatPrivates fatPrivate).header) mark) := by
  rcases fat16GetRootDirectory_some root with ⟨mark, ends, same⟩
  rcases @loadRootDirectory_record (rootScanned kernel (kernel.fatPrivates fatPrivate).header mark)
    fatPrivate placed held (slotsInUse (driveOf kernel) (rootDirStart (kernel.fatPrivates fatPrivate).header) mark) with
    ⟨_, record⟩
  have globals := loadRootDirectory_toGlobals (rootScanned kernel (kernel.fatPrivates fatPrivate).header mark)
    fatPrivate (slotsInUse (driveOf kernel) (rootDirStart (kernel.fatPrivates fatPrivate).header) mark)
  have served : (kzalloc (rootScanned kernel (kernel.fatPrivates fatPrivate).header mark)
      (intToWord (rootDirSize (kernel.fatPrivates fatPrivate).header))).1 ≠ 0#32 := by
    intro refused
    have res := congrArg Prod.fst same
    rw [loadRootDirectory_res] at res
    have failed : (0 : Int) = - ENOMEM := res.trans (if_pos refused)
    exact absurd failed (by decide)
  have rootDir := loadRootDirectory_rootDir
    (slotsInUse (driveOf kernel) (rootDirStart (kernel.fatPrivates fatPrivate).header) mark) served
  rw [← same] at record globals rootDir
  have loadedHeader : (loaded.fatPrivates fatPrivate).header = _ := congrArg FatPrivateData.header record
  exact ⟨globals, loadedHeader, mark, _, ends, rootDir⟩

theorem privateOf_kfree (kernel : Kernel) (pointer : Word) : privateOf (kfree kernel pointer) = privateOf kernel := rfl

theorem driveOf_kfree (kernel : Kernel) (pointer : Word) : driveOf (kfree kernel pointer) = driveOf kernel := rfl

/-- The stream of the table stays while the root directory is loaded. -/
theorem fat16GetRootDirectory_table {kernel : Kernel} {loaded : Int × Kernel} {fatPrivate : Word}
    (placed : kernel.heap.WellPlaced) (held : Held kernel fatPrivate)
    (root : fat16GetRootDirectory kernel fatPrivate = some loaded) :
    (loaded.2.fatPrivates fatPrivate).fatReadStream = (kernel.fatPrivates fatPrivate).fatReadStream := by
  rcases fat16GetRootDirectory_some root with ⟨mark, _, rfl⟩
  rcases @loadRootDirectory_record (rootScanned kernel (kernel.fatPrivates fatPrivate).header mark)
    fatPrivate placed held (slotsInUse (driveOf kernel) (rootDirStart (kernel.fatPrivates fatPrivate).header) mark) with
    ⟨_, record⟩
  rw [record]
  rfl

theorem fat16Resolve_resolved {kernel resolved : Kernel} (placed : kernel.heap.WellPlaced)
    (accepted : fat16Resolve kernel = some (0, resolved)) : Resolved kernel resolved := by
  rw [fat16Resolve_eq] at accepted
  by_cases none : (bootStream kernel).1 = 0#32
  · rw [if_pos none] at accepted
    have res : - ENOMEM = 0 := (finishResolve_failed (bootStream kernel).2 (bootStream kernel).1
      (privatePointer kernel) (by decide)).symm.trans (congrArg Prod.fst (Option.some.inj accepted))
    exact absurd res (by decide)
  · rw [if_neg none] at accepted
    rcases resolveWith_accepted none accepted with ⟨signed, loaded, root, rfl⟩
    have holds := headerRead_holds (bootStream_holds placed) (bootStream kernel).1
    have header := headerRead_header (bootStream kernel).2 (bootStream kernel).1 (privatePointer kernel)
      (createDiskStream_pos (boundDisk kernel))
    have disk := headerRead_disk kernel (bootStream kernel).1 (privatePointer kernel)
    have boot : bootSector (bootStream kernel).2 = bootSector kernel := bootSector_congr (bootStream_holds placed).drive
    generalize headerRead (bootStream kernel).2 (bootStream kernel).1 (privatePointer kernel) = read at *
    rcases fat16GetRootDirectory_loaded holds.placed holds.held root with
      ⟨globals, loadedHeader, mark, dir, ends, rootDir⟩
    rw [boot] at header
    have bound : privateOf (kfree loaded (bootStream kernel).1) = loaded.fatPrivates (privatePointer kernel) := by
      have record : loaded.disk = ⟨true, privatePointer kernel⟩ := (congrArg Globals.disk globals).trans disk
      rw [privateOf_kfree, privateOf, record]
    rw [header.rootDirStart, holds.drive] at ends rootDir
    exact
      { drive := by
          rw [driveOf_kfree, driveOf_congr globals]
          exact holds.drive
        header := by
          rw [bound, loadedHeader]
          exact header
        signature := header.signature ▸ signed
        rootDir := by
          refine ⟨mark, dir, ends, ?_⟩
          rw [bound, rootDir]
          unfold loadedRootDir
          rw [header.rootDirSectorPos, header.rootDirSize] }

/-! ## Disks that are accepted -/

/-- A kernel heap whose blocks are free from this one on. -/
structure RoomFrom (kernel : Kernel) (first : Nat) : Prop where
  kernelHeap : kernel.heap.IsKernelHeap
  free : kernel.heap.FreeFrom first

namespace RoomFrom

variable {kernel : Kernel} {first : Nat}

theorem of_heap {kernel' : Kernel} (room : RoomFrom kernel first) (same : kernel'.heap = kernel.heap) :
    RoomFrom kernel' first := ⟨same ▸ room.kernelHeap, same ▸ room.free⟩

theorem kzalloc (room : RoomFrom kernel first) (size : Word) (nonzero : size ≠ 0#32)
    (fits : first + blocksFor size ≤ 25600) :
    (Memory.kzalloc kernel size).1 ≠ 0#32 ∧ RoomFrom (Memory.kzalloc kernel size).2 (first + blocksFor size) := by
  have placed := room.kernelHeap.wellPlaced
  have inside : first + blocksFor size ≤ kernel.heap.table.total.toNat := by
    rw [room.kernelHeap.total]
    exact fits
  rcases kzalloc_freeFrom placed size nonzero room.free inside with ⟨served, free⟩
  exact ⟨served, room.kernelHeap.samePool (keeps_kzalloc (fun _ => True) placed size).pool, free⟩

theorem createDiskStream (room : RoomFrom kernel first) (fits : first + 1 ≤ 25600) :
    (Disk.createDiskStream kernel).1 ≠ 0#32 ∧ RoomFrom (Disk.createDiskStream kernel).2 (first + 1) := by
  rcases room.kzalloc 8#32 (by decide) fits with ⟨served, later⟩
  exact ⟨served, later.of_heap (diskStreamSeek_heap _ _ _)⟩

theorem keepNewStream (room : RoomFrom kernel first) (fits : first + 1 ≤ 25600) (fatPrivate : Word)
    (field : Word -> FatPrivateData -> FatPrivateData) :
    RoomFrom (Fs.keepNewStream kernel fatPrivate field) (first + 1) :=
  (room.createDiskStream fits).2.of_heap (modifyPrivate_heap _ _ _)

end RoomFrom

theorem withDisk_heap (kernel : Kernel) (disk : DiskRecord) : (withDisk kernel disk).heap = kernel.heap := rfl

theorem boundDisk_room {kernel : Kernel} (room : RoomFrom kernel 0) : RoomFrom (boundDisk kernel) 4 := by
  unfold boundDisk fat16InitPrivateData
  have allocated := (room.kzalloc sizeofPrivateData (by decide) (by decide)).2
  have cluster := (allocated.of_heap (Kernel.withStore_heap (kzalloc kernel sizeofPrivateData).2
    ((kzalloc kernel sizeofPrivateData).2.toStore.fillZero (privatePointer kernel) sizeofPrivateData))).keepNewStream
    (by decide) (privatePointer kernel) fun stream record => { record with clusterReadStream := stream }
  have fat := cluster.keepNewStream (by decide) (privatePointer kernel) fun stream record =>
    { record with fatReadStream := stream }
  have directory := fat.keepNewStream (by decide) (privatePointer kernel) fun stream record =>
    { record with directoryStream := stream }
  exact directory.of_heap (withDisk_heap _ _)

theorem RoomFrom.mono {kernel : Kernel} {first later : Nat} (room : RoomFrom kernel first) (le : first ≤ later) :
    RoomFrom kernel later := ⟨room.kernelHeap, room.free.mono le⟩

theorem RoomFrom.kfree {kernel : Kernel} {first : Nat} (room : RoomFrom kernel first) (pointer : Word) :
    RoomFrom (kfree kernel pointer) first := ⟨⟨room.kernelHeap.start, room.kernelHeap.total⟩, room.free.free pointer⟩

/-- A root directory with slots takes at most 512 blocks. -/
theorem rootDirSize_blocks {header : Nat -> Byte} (slots : FatHeader.rootDirEntries header ≠ 0) :
    intToWord (rootDirSize header) ≠ 0#32 ∧ blocksFor (intToWord (rootDirSize header)) ≤ 512 := by
  have size := rootDirSize_bound header
  have number : (intToWord (rootDirSize header)).toNat = (rootDirSize header).toNat := by
    rw [intToWord, BitVec.toNat_ofInt]
    omega
  constructor
  · intro zero
    have none : (intToWord (rootDirSize header)).toNat = 0 := congrArg BitVec.toNat zero
    unfold rootDirSize slotSize at *
    omega
  · unfold blocksFor
    omega

/-- A root directory is loaded into a heap with room for it. -/
theorem fat16GetRootDirectory_room {kernel : Kernel} {first : Nat} (room : RoomFrom kernel first) {fatPrivate : Word}
    (slots : FatHeader.rootDirEntries (kernel.fatPrivates fatPrivate).header ≠ 0) {mark : Nat}
    (ends : DirectoryEnds (driveOf kernel) (rootDirStart (kernel.fatPrivates fatPrivate).header) mark)
    (fits : first + 512 ≤ 25600) :
    exists loaded, fat16GetRootDirectory kernel fatPrivate = some (0, loaded) ∧ RoomFrom loaded (first + 512) := by
  rcases rootDirSize_blocks slots with ⟨nonzero, blocks⟩
  have scannedRoom : RoomFrom (rootScanned kernel (kernel.fatPrivates fatPrivate).header mark) first :=
    room.of_heap (diskStreamSeek_heap _ _ _)
  rcases scannedRoom.kzalloc _ nonzero (by omega) with ⟨pointer, later⟩
  have served : ServesRootDirectory kernel (kernel.fatPrivates fatPrivate).header := by
    rw [kzalloc_pointer] at pointer
    exact pointer
  refine ⟨_, (fat16GetRootDirectory_ends kernel fatPrivate ends).trans (congrArg some (Prod.ext ?_ rfl)), ?_⟩
  · exact (loadRootDirectory_served _ served).1
  · exact (later.mono (Nat.add_le_add_left blocks first)).of_heap (loadRootDirectory_heap _ _ _)

/-- A disk with the signature and a root directory that has slots and an end is
accepted by a kernel whose heap is empty, and leaves room in it. -/
theorem fat16Resolve_room {kernel : Kernel} (room : RoomFrom kernel 0)
    (signed : FatHeader.signature (bootSector kernel) = FAT16_SIGNATURE)
    (slots : FatHeader.rootDirEntries (bootSector kernel) ≠ 0) {mark : Nat}
    (ends : DirectoryEnds (driveOf kernel) (rootDirStart (bootSector kernel)) mark) :
    exists resolved, fat16Resolve kernel = some (0, resolved) ∧ RoomFrom resolved 517 := by
  have placed := room.kernelHeap.wellPlaced
  have stream : (bootStream kernel).1 ≠ 0#32 ∧ RoomFrom (bootStream kernel).2 5 :=
    (boundDisk_room room).createDiskStream (by decide)
  have holds := headerRead_holds (bootStream_holds placed) (bootStream kernel).1
  have readRoom := stream.2.of_heap (headerRead_heap (bootStream kernel).2 (bootStream kernel).1 (privatePointer kernel))
  have header := headerRead_header (bootStream kernel).2 (bootStream kernel).1 (privatePointer kernel)
    (createDiskStream_pos (boundDisk kernel))
  rw [bootSector_congr (bootStream_holds placed).drive] at header
  rw [fat16Resolve_eq, if_neg stream.1]
  rw [← header.rootDirEntries] at slots
  rw [← header.rootDirStart, ← holds.drive] at ends
  rcases fat16GetRootDirectory_room readRoom slots ends (by decide) with ⟨loaded, root, later⟩
  exact ⟨_, resolveWith_of_loaded stream.1 (header.signature.trans signed) root, later.kfree _⟩

/-! ## The stream of the table -/

/-- A new stream leaves the private data as they are. -/
theorem HoldsPrivate.streamRecord {before kernel : Kernel} {fatPrivate : Word} (holds : HoldsPrivate before fatPrivate kernel) :
    (Disk.createDiskStream kernel).2.fatPrivates fatPrivate = kernel.fatPrivates fatPrivate :=
  (holds.held.kzalloc holds.placed 8#32).2.fatPrivates

theorem keepNewStream_self (kernel : Kernel) (fatPrivate : Word) (field : Word -> FatPrivateData -> FatPrivateData) :
    (keepNewStream kernel fatPrivate field).fatPrivates fatPrivate =
      field (createDiskStream kernel).1 ((createDiskStream kernel).2.fatPrivates fatPrivate) := modifyPrivate_self _ _ _

theorem withDisk_fatPrivates (kernel : Kernel) (disk : DiskRecord) :
    (withDisk kernel disk).fatPrivates = kernel.fatPrivates := rfl

/-- The stream that is made second is the one of the table. -/
theorem HoldsPrivate.tableStream {before kernel : Kernel} {fatPrivate : Word} (holds : HoldsPrivate before fatPrivate kernel) :
    ((Fs.keepNewStream (Fs.keepNewStream kernel fatPrivate fun stream record => { record with fatReadStream := stream })
      fatPrivate fun stream record => { record with directoryStream := stream }).fatPrivates fatPrivate).fatReadStream =
        (Disk.createDiskStream kernel).1 := by
  have kept := (holds.keepNewStream fun stream record => { record with fatReadStream := stream }).streamRecord
  rw [keepNewStream_self]
  change (FatPrivateData.fatReadStream _) = _
  rw [kept, keepNewStream_self]

theorem bootStream_table {kernel : Kernel} (room : RoomFrom kernel 0) :
    ((bootStream kernel).2.fatPrivates (privatePointer kernel)).fatReadStream ≠ 0#32 := by
  have placed := room.kernelHeap.wellPlaced
  have holds : HoldsPrivate kernel (privatePointer kernel) (kzalloc kernel sizeofPrivateData).2 :=
    HoldsPrivate.allocated placed sizeofPrivateData
  have allocated := (room.kzalloc sizeofPrivateData (by decide) (by decide)).2
  rw [bootStream, (boundDisk_holds placed).streamRecord]
  unfold boundDisk fat16InitPrivateData
  rw [withDisk_fatPrivates]
  have cleared := holds.withStore
    ((kzalloc kernel sizeofPrivateData).2.toStore.fillZero (privatePointer kernel) sizeofPrivateData)
  have clearedRoom := allocated.of_heap (Kernel.withStore_heap (kzalloc kernel sizeofPrivateData).2
    ((kzalloc kernel sizeofPrivateData).2.toStore.fillZero (privatePointer kernel) sizeofPrivateData))
  generalize (kzalloc kernel sizeofPrivateData).2.withStore _ = current at *
  generalize privatePointer kernel = fatPrivate at *
  rw [(cleared.keepNewStream _).tableStream]
  exact ((clearedRoom.keepNewStream (by decide) fatPrivate _).createDiskStream (by decide)).1

theorem headerRead_table (kernel : Kernel) (stream fatPrivate : Word) :
    ((headerRead kernel stream fatPrivate).fatPrivates fatPrivate).fatReadStream =
      (kernel.fatPrivates fatPrivate).fatReadStream := by
  unfold headerRead
  rw [modifyPrivate_self]
  change ((diskStreamRead kernel stream fatHeaderSize).2.fatPrivates fatPrivate).fatReadStream = _
  rw [diskStreamRead_fatPrivates]

/-- An accepted disk has a stream for its table. -/
theorem fat16Resolve_table {kernel resolved : Kernel} (room : RoomFrom kernel 0)
    (accepted : fat16Resolve kernel = some (0, resolved)) : (privateOf resolved).fatReadStream ≠ 0#32 := by
  have placed := room.kernelHeap.wellPlaced
  have stream : (bootStream kernel).1 ≠ 0#32 := ((boundDisk_room room).createDiskStream (by decide)).1
  rw [fat16Resolve_eq, if_neg stream] at accepted
  rcases resolveWith_accepted stream accepted with ⟨_, loaded, root, rfl⟩
  have holds := headerRead_holds (bootStream_holds placed) (bootStream kernel).1
  have globals := (fat16GetRootDirectory_loaded holds.placed holds.held root).1
  have record : loaded.disk = ⟨true, privatePointer kernel⟩ :=
    (congrArg Globals.disk globals).trans (headerRead_disk kernel (bootStream kernel).1 (privatePointer kernel))
  rw [privateOf_kfree, privateOf, record, fat16GetRootDirectory_table holds.placed holds.held root, headerRead_table]
  exact bootStream_table room

/-- A disk with the signature and a root directory that has slots and an end is
accepted by a kernel whose heap is empty. -/
theorem fat16Resolve_accepts {kernel : Kernel} (room : RoomFrom kernel 0)
    (signed : FatHeader.signature (bootSector kernel) = FAT16_SIGNATURE)
    (slots : FatHeader.rootDirEntries (bootSector kernel) ≠ 0) {mark : Nat}
    (ends : DirectoryEnds (driveOf kernel) (rootDirStart (bootSector kernel)) mark) :
    exists resolved, fat16Resolve kernel = some (0, resolved) := by
  rcases fat16Resolve_room room signed slots ends with ⟨resolved, accepted, _⟩
  exact ⟨resolved, accepted⟩

/-! ## A full root directory -/

/-- The kernel for which `fat16_resolve` loads the root directory. -/
abbrev readyForRoot (kernel : Kernel) : Kernel :=
  headerRead (bootStream kernel).2 (bootStream kernel).1 (privatePointer kernel)

/-- A disk that was accepted with more items than slots was not loaded as promised. -/
theorem not_bounded_of_resolved {kernel resolved : Kernel} (placed : kernel.heap.WellPlaced)
    (accepted : fat16Resolve kernel = some (0, resolved))
    (beyond : (FatHeader.rootDirEntries (bootSector kernel) : Int) < (privateOf resolved).rootDir.total) :
    ¬ RootDirectoryBounded (readyForRoot kernel) (privatePointer kernel) := by
  rw [fat16Resolve_eq] at accepted
  split at accepted
  · have failed : - ENOMEM = 0 := (finishResolve_failed (bootStream kernel).2 (bootStream kernel).1
      (privatePointer kernel) (by decide)).symm.trans (congrArg Prod.fst (Option.some.inj accepted))
    exact absurd failed (by decide)
  · rename_i created
    rcases resolveWith_accepted created accepted with ⟨_, loaded, root, rfl⟩
    have holds := headerRead_holds (bootStream_holds placed) (bootStream kernel).1
    have header := headerRead_header (bootStream kernel).2 (bootStream kernel).1 (privatePointer kernel)
      (createDiskStream_pos (boundDisk kernel))
    rw [bootSector_congr (bootStream_holds placed).drive] at header
    have disk : loaded.disk = ⟨true, privatePointer kernel⟩ :=
      (congrArg Globals.disk (fat16GetRootDirectory_loaded holds.placed holds.held root).1).trans
        (headerRead_disk kernel (bootStream kernel).1 (privatePointer kernel))
    rw [privateOf_kfree, privateOf, disk] at beyond
    rintro ⟨other, same, bounded⟩
    obtain rfl := Option.some.inj (root.symm.trans same)
    have fits := (bounded rfl).1
    rw [header.rootDirEntries] at fits
    exact absurd beyond (Int.not_lt.mpr fits)

/-- A root directory of 16 slots, all in use, behind a table of one sector.
The file data after it begins with a byte that is not zero. -/
abbrev fullSectors : Int -> Nat -> Byte := fun sector place =>
  if sector = 0 then
    if place = 13 ∨ place = 14 ∨ place = 16 ∨ place = 22 then 1#8 else if place = 17 then 16#8
    else if place = 38 then FAT16_SIGNATURE else 0#8
  else if sector < 3 ∨ place < 32 then 0x41#8 else 0x00#8

/-- The disk of that directory, with the heap as it is created. -/
abbrev fullRoot : Kernel := kheapInit (Kernel.loaded Store.blank fullSectors fun _ => 0#8) fun _ => 0#8

theorem fullRoot_ends : DirectoryEnds (driveOf fullRoot) (rootDirStart (bootSector fullRoot)) 17 :=
  ⟨by decide, by decide⟩

/-- The disk is accepted, and the first slot of the file data is counted as the 17th item. -/
theorem rootDirectoryBounded_fails_full : exists resolved, fat16Resolve fullRoot = some (0, resolved) ∧
    FatHeader.rootDirEntries (bootSector fullRoot) = 16 ∧ (privateOf resolved).rootDir.total = 17 ∧
    ¬ RootDirectoryBounded (readyForRoot fullRoot) (privatePointer fullRoot) := by
  have room : RoomFrom fullRoot 0 := ⟨kheapInit_isKernelHeap _ _, kheapInit_freeFrom _ _⟩
  have placed := room.kernelHeap.wellPlaced
  rcases fat16Resolve_accepts room (by decide) (by decide) fullRoot_ends with ⟨resolved, accepted⟩
  rcases (fat16Resolve_resolved placed accepted).rootDir with ⟨mark, dir, ends, rootDir⟩
  obtain rfl := ends.unique fullRoot_ends
  have total : (privateOf resolved).rootDir.total = 17 := by
    have used : slotsInUse (driveOf fullRoot) (rootDirStart (bootSector fullRoot)) 17 = 17 := by decide
    rw [rootDir, loadedRootDir, used]
    rfl
  refine ⟨resolved, accepted, by decide, total, not_bounded_of_resolved placed accepted ?_⟩
  rw [total]
  decide

end Fs
end LarvaOS
