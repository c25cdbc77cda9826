import LarvaOS.Fs.Fat16Chain
import LarvaOS.Fs.Fat16Directory
import LarvaOS.Library.Scan
import LarvaOS.Memory.Ownership

namespace LarvaOS
namespace Fs

open Library Disk Memory

/-!
# The scan of a directory and the root directory

The scan of a directory has no bound but the position of its stream, and the
number of items that it finds is kept as the number of slots of the buffer.
The buffer has the size that the header gives.
-/

/-! ## The scan -/

/-- The position at which the scan reads a slot. -/
def scanPosition (start : Int) (index : Nat) : Int := wrapInt (start + (slotSize : Int) * index)

/-- The first byte of a slot, as the scan reads it. -/
def scannedByte (drive : Drive) (start : Int) (index : Nat) : Byte :=
  drive.tmpBuf ((scanPosition start index).tdiv DISK_SECTOR_SIZE) ((scanPosition start index).tmod DISK_SECTOR_SIZE)

/-- The byte ends a directory. -/
def endsDirectory (byte : Byte) : Bool := byte == 0x00#8

/-- The byte does not begin a deleted slot. -/
def notDeleted (byte : Byte) : Bool := byte != slotDeleted

theorem scanPosition_succ (start : Int) (index : Nat) :
    wrapInt (scanPosition start index + (slotSize : Int)) = scanPosition start (index + 1) := by
  unfold scanPosition
  rw [wrapInt_add_wrapInt, Int.natCast_add, Int.mul_add, Int.add_assoc]
  rfl

theorem scanPosition_repeats (start : Int) (index : Nat) :
    scanPosition start (index + scanReads) = scanPosition start index := by
  have far : start + (slotSize : Int) * ((index + scanReads : Nat) : Int) =
      start + (slotSize : Int) * (index : Int) + 4294967296 := by
    unfold scanReads slotSize
    omega
  unfold scanPosition
  rw [far, wrapInt_add_period]

theorem scannedByte_repeats (drive : Drive) (start : Int) (index : Nat) :
    scannedByte drive start (index + scanReads) = scannedByte drive start index := by
  unfold scannedByte
  rw [scanPosition_repeats]

theorem streamTransfer_slot (drive : Drive) (pos : Int) :
    streamTransfer drive pos slotSize = copySector drive pos slotSize := by
  rw [streamTransfer_eq, if_neg (by decide)]

theorem copySector_headD (drive : Drive) (pos : Int) :
    (copySector drive pos slotSize).bytes.headD 0#8 =
      drive.tmpBuf (pos.tdiv DISK_SECTOR_SIZE) (pos.tmod DISK_SECTOR_SIZE) := by
  rw [copySector_eq]
  change drive.tmpBuf _ (pos.tmod DISK_SECTOR_SIZE + ((0 : Nat) : Int)) = _
  rw [Int.natCast_zero, Int.add_zero]

theorem diskStreamSeek_seek (kernel : Kernel) (stream : Word) (pos pos' : Int) :
    diskStreamSeek (diskStreamSeek kernel stream pos) stream pos' = diskStreamSeek kernel stream pos' := by
  unfold diskStreamSeek
  change kernel.withStore { kernel.toStore with
    streamPositions := Function.update (Function.update kernel.streamPositions stream pos) stream pos' } = _
  rw [Function.update_idem]

/-- The kernel after a read of one slot. -/
theorem diskStreamRead_slot (kernel : Kernel) (stream : Word) (start : Int) (index : Nat) :
    (diskStreamRead (diskStreamSeek kernel stream (scanPosition start index)) stream slotSize).2 =
      diskStreamSeek kernel stream (scanPosition start (index + 1)) := by
  have transfer := diskStreamRead_sought kernel stream (scanPosition start index) slotSize
  have moved : (diskStreamRead (diskStreamSeek kernel stream (scanPosition start index)) stream slotSize).2 =
      diskStreamSeek (diskStreamSeek kernel stream (scanPosition start index)) stream
        (diskStreamRead (diskStreamSeek kernel stream (scanPosition start index)) stream slotSize).1.pos := rfl
  rw [moved, transfer, diskStreamSeek_seek, streamTransfer_slot, copySector_eq]
  change diskStreamSeek kernel stream (wrapInt (scanPosition start index + (slotSize : Int))) = _
  rw [scanPosition_succ]

/-- The loop is a scan of the first bytes of the slots. -/
theorem countItems_eq_scan (kernel : Kernel) (stream : Word) (start : Int) (reads index total : Nat) :
    countItems stream reads (diskStreamSeek kernel stream (scanPosition start index)) total =
      (scan endsDirectory notDeleted (scannedByte (driveOf kernel) start) reads index total).map fun found =>
        ((found.1 : Int), diskStreamSeek kernel stream (scanPosition start (found.2 + 1))) := by
  induction reads generalizing index total with
  | zero => rfl
  | succ reads inductionHypothesis =>
      have item := diskStreamRead_sought kernel stream (scanPosition start index) slotSize
      have byte : (diskStreamRead (diskStreamSeek kernel stream (scanPosition start index)) stream
          slotSize).1.bytes.headD 0#8 = scannedByte (driveOf kernel) start index := by
        rw [item, streamTransfer_slot, copySector_headD]
        rfl
      rw [countItems, scan]
      simp only [diskStreamRead_result, byte, diskStreamRead_slot, ne_eq, not_true_eq_false, if_false]
      by_cases deleted : scannedByte (driveOf kernel) start index = slotDeleted
      · have goesOn : endsDirectory (scannedByte (driveOf kernel) start index) = false := by
          rw [deleted]
          decide
        have skipped : notDeleted (scannedByte (driveOf kernel) start index) = false := by
          rw [deleted]
          decide
        rw [if_pos deleted, goesOn, skipped, if_neg Bool.false_ne_true, if_neg Bool.false_ne_true]
        exact inductionHypothesis (index + 1) total
      · have counted : notDeleted (scannedByte (driveOf kernel) start index) = true := bne_iff_ne.mpr deleted
        rw [if_neg deleted, counted, if_pos rfl]
        by_cases ended : scannedByte (driveOf kernel) start index = 0x00#8
        · have marked : endsDirectory (scannedByte (driveOf kernel) start index) = true := beq_iff_eq.mpr ended
          rw [if_pos ended, marked, if_pos rfl]
          rfl
        · have unmarked : endsDirectory (scannedByte (driveOf kernel) start index) = false := beq_false_of_ne ended
          rw [if_neg ended, unmarked, if_neg Bool.false_ne_true]
          exact inductionHypothesis (index + 1) (total + 1)

/-- The slot with this index is the first one that ends the directory. -/
abbrev DirectoryEnds (drive : Drive) (start : Int) (mark : Nat) : Prop :=
  FirstMark endsDirectory (scannedByte drive start) mark

/-- The number of slots before an index that are not deleted. -/
abbrev slotsInUse (drive : Drive) (start : Int) (index : Nat) : Nat :=
  countedBefore notDeleted (scannedByte drive start) index

/-- The whole count. -/
theorem fat16GetTotalItemsForDirectory_eq_scan (kernel : Kernel) (sector : Int) :
    fat16GetTotalItemsForDirectory kernel sector =
      (scan endsDirectory notDeleted (scannedByte (driveOf kernel) (sector * DISK_SECTOR_SIZE)) scanReads 0 0).map
        fun found =>
          ((found.1 : Int), diskStreamSeek kernel (privateOf kernel).directoryStream
            (scanPosition (sector * DISK_SECTOR_SIZE) (found.2 + 1))) := by
  have start : wrapInt (sector * DISK_SECTOR_SIZE) = scanPosition (sector * DISK_SECTOR_SIZE) 0 := by
    unfold scanPosition
    rw [Int.natCast_zero, Int.mul_zero, Int.add_zero]
  rw [fat16GetTotalItemsForDirectory]
  simp only [start]
  exact countItems_eq_scan kernel _ _ scanReads 0 0

/-- The count is smaller than the number of reads. -/
theorem fat16GetTotalItemsForDirectory_total {kernel : Kernel} {sector : Int} {counted : Int × Kernel}
    (same : fat16GetTotalItemsForDirectory kernel sector = some counted) :
    exists total : Nat, counted.1 = total ∧ total < scanReads := by
  rw [fat16GetTotalItemsForDirectory_eq_scan] at same
  rcases Option.map_eq_some_iff.mp same with ⟨found, scanned, rfl⟩
  exact ⟨found.1, rfl, by have bound := scan_count_lt scanned; omega⟩

/-- A directory that has an end is counted up to it. -/
theorem fat16GetTotalItemsForDirectory_ends (kernel : Kernel) (sector : Int) {mark : Nat}
    (ends : DirectoryEnds (driveOf kernel) (sector * DISK_SECTOR_SIZE) mark) :
    fat16GetTotalItemsForDirectory kernel sector =
      some ((slotsInUse (driveOf kernel) (sector * DISK_SECTOR_SIZE) mark : Int),
        diskStreamSeek kernel (privateOf kernel).directoryStream
          (scanPosition (sector * DISK_SECTOR_SIZE) (mark + 1))) := by
  have bound : mark < scanReads := ends.lt_period (by decide) (scannedByte_repeats _ _)
  have scanned := @scan_of_firstMark _ _ notDeleted _ _ ends scanReads 0 (Nat.zero_le _) (by omega)
  have empty : countedBefore notDeleted (scannedByte (driveOf kernel) (sector * DISK_SECTOR_SIZE)) 0 = 0 :=
    Nat.count_zero _
  rw [empty] at scanned
  rw [fat16GetTotalItemsForDirectory_eq_scan, scanned]
  rfl

/-- A directory without an end is scanned for ever. -/
theorem fat16GetTotalItemsForDirectory_endless (kernel : Kernel) (sector : Int)
    (endless : forall index, endsDirectory (scannedByte (driveOf kernel) (sector * DISK_SECTOR_SIZE) index) = false) :
    fat16GetTotalItemsForDirectory kernel sector = none := by
  rw [fat16GetTotalItemsForDirectory_eq_scan, scan_of_noMark endless]
  rfl

/-- A directory that was counted has an end. -/
theorem fat16GetTotalItemsForDirectory_some {kernel : Kernel} {sector : Int} {counted : Int × Kernel}
    (count : fat16GetTotalItemsForDirectory kernel sector = some counted) :
    exists mark, DirectoryEnds (driveOf kernel) (sector * DISK_SECTOR_SIZE) mark := by
  have marked : exists index, endsDirectory (scannedByte (driveOf kernel) (sector * DISK_SECTOR_SIZE) index) = true := by
    by_contra endless
    have never := fat16GetTotalItemsForDirectory_endless kernel sector
      fun index => Bool.eq_false_of_not_eq_true fun ends => endless ⟨index, ends⟩
    exact absurd (never.symm.trans count) (Option.some_ne_none _).symm
  rcases marked with ⟨index, ended⟩
  exact exists_firstMark ended

/-! ## The root directory -/

/-- Where the scan of the root directory begins. -/
def rootDirStart (header : Nat -> Byte) : Int := rootDirSectorPos header * DISK_SECTOR_SIZE

theorem rootDirSize_bound (header : Nat -> Byte) : 0 ≤ rootDirSize header ∧ rootDirSize header < 2097152 := by
  have low := (header 17).isLt
  have high := (header 18).isLt
  unfold rootDirSize FatHeader.rootDirEntries halfWordAt slotSize littleEndian littleEndian littleEndian
  omega

/-- The root directory that `fat16_get_root_directory` describes. -/
def loadedRootDir (header : Nat -> Byte) (dir : Word) (totalItems : Int) : FatDirectory where
  item := dir
  total := totalItems
  sectorPos := rootDirSectorPos header
  endingSectorPos := rootDirSectorPos header + (rootDirSize header).tdiv DISK_SECTOR_SIZE

/-- The load fails exactly when the heap refuses the buffer. -/
theorem loadRootDirectory_res (kernel : Kernel) (fatPrivate : Word) (totalItems : Int) :
    (loadRootDirectory kernel fatPrivate totalItems).1 =
      if (kzalloc kernel (intToWord (rootDirSize (kernel.fatPrivates fatPrivate).header))).1 = 0#32 then - ENOMEM
      else 0 := by
  unfold loadRootDirectory
  by_cases refused : (kzalloc kernel (intToWord (rootDirSize (kernel.fatPrivates fatPrivate).header))).1 = 0#32
  · simp only [refused, if_true]
  · simp only [refused, diskStreamRead_result, ne_eq, not_true_eq_false, if_false]

/-- Whether the load fails or not, it makes one request. -/
theorem loadRootDirectory_heap (kernel : Kernel) (fatPrivate : Word) (totalItems : Int) :
    (loadRootDirectory kernel fatPrivate totalItems).2.heap =
      (kzalloc kernel (intToWord (rootDirSize (kernel.fatPrivates fatPrivate).header))).2.heap := by
  unfold loadRootDirectory
  by_cases refused : (kzalloc kernel (intToWord (rootDirSize (kernel.fatPrivates fatPrivate).header))).1 = 0#32
  · simp only [refused, if_true]
  · simp only [refused, diskStreamRead_result, ne_eq, not_true_eq_false, if_false, modifyPrivate_heap, storeBytes_heap,
      diskStreamRead_heap, diskStreamSeek_heap]

theorem loadRootDirectory_rootDir {kernel : Kernel} {fatPrivate : Word} (totalItems : Int)
    (served : (kzalloc kernel (intToWord (rootDirSize (kernel.fatPrivates fatPrivate).header))).1 ≠ 0#32) :
    ((loadRootDirectory kernel fatPrivate totalItems).2.fatPrivates fatPrivate).rootDir =
      loadedRootDir (kernel.fatPrivates fatPrivate).header
        (kzalloc kernel (intToWord (rootDirSize (kernel.fatPrivates fatPrivate).header))).1 totalItems := by
  unfold loadRootDirectory
  simp only [served, diskStreamRead_result, ne_eq, not_true_eq_false, if_false]
  rw [modifyPrivate_self]
  rfl

/-- The kernel after the scan. -/
def rootScanned (kernel : Kernel) (header : Nat -> Byte) (mark : Nat) : Kernel :=
  diskStreamSeek kernel (privateOf kernel).directoryStream (scanPosition (rootDirStart header) (mark + 1))

theorem fat16GetRootDirectory_ends (kernel : Kernel) (fatPrivate : Word) {mark : Nat}
    (ends : DirectoryEnds (driveOf kernel) (rootDirStart (kernel.fatPrivates fatPrivate).header) mark) :
    fat16GetRootDirectory kernel fatPrivate =
      some (loadRootDirectory (rootScanned kernel (kernel.fatPrivates fatPrivate).header mark) fatPrivate
        (slotsInUse (driveOf kernel) (rootDirStart (kernel.fatPrivates fatPrivate).header) mark)) := by
  rw [fat16GetRootDirectory, fat16GetTotalItemsForDirectory_ends kernel _ ends]
  rfl

/-- A root directory that was counted has an end. -/
theorem fat16GetRootDirectory_some {kernel : Kernel} {fatPrivate : Word} {loaded : Int × Kernel}
    (same : fat16GetRootDirectory kernel fatPrivate = some loaded) :
    exists mark, DirectoryEnds (driveOf kernel) (rootDirStart (kernel.fatPrivates fatPrivate).header) mark ∧
      loaded = loadRootDirectory (rootScanned kernel (kernel.fatPrivates fatPrivate).header mark) fatPrivate
        (slotsInUse (driveOf kernel) (rootDirStart (kernel.fatPrivates fatPrivate).header) mark) := by
  have counted : exists totalItems, fat16GetTotalItemsForDirectory kernel
      (rootDirSectorPos (kernel.fatPrivates fatPrivate).header) = some totalItems := by
    rw [fat16GetRootDirectory] at same
    rcases Option.map_eq_some_iff.mp same with ⟨totalItems, count, _⟩
    exact ⟨totalItems, count⟩
  rcases counted with ⟨totalItems, count⟩
  rcases fat16GetTotalItemsForDirectory_some count with ⟨mark, ends⟩
  refine ⟨mark, ends, ?_⟩
  rw [fat16GetRootDirectory_ends kernel fatPrivate ends] at same
  exact (Option.some.inj same).symm

/-- The heap serves the buffer of the root directory. -/
def ServesRootDirectory (kernel : Kernel) (header : Nat -> Byte) : Prop :=
  (malloc kernel.heap (intToWord (rootDirSize header))).1 ≠ 0#32

theorem mem_visitedSlots {directory : FatDirectory} {total index : Nat} (same : directory.total = total) :
    index ∈ visitedSlots directory ↔ index < total := by
  rw [visitedSlots, same, Int.toNat_natCast, List.mem_range]

/-- What `fat16_get_root_directory` promises: it returns, and the root
directory that it loads has no more items than slots, so that a search keeps to
the buffer. -/
def RootDirectoryBounded (kernel : Kernel) (fatPrivate : Word) : Prop :=
  let header := (kernel.fatPrivates fatPrivate).header
  exists loaded, fat16GetRootDirectory kernel fatPrivate = some loaded ∧
    (loaded.1 = 0 ->
      (loaded.2.fatPrivates fatPrivate).rootDir.total ≤ FatHeader.rootDirEntries header ∧
        forall index, index ∈ visitedSlots (loaded.2.fatPrivates fatPrivate).rootDir ->
          (slotSize : Int) * index + slotSize ≤ rootDirSize header)

/-- Some slot from the beginning of the root directory on ends it, and, when
the heap serves the buffer, no more slots are in use before that one than the
header gives. -/
def RootDirectoryFits (kernel : Kernel) (fatPrivate : Word) : Prop :=
  let header := (kernel.fatPrivates fatPrivate).header
  exists mark, DirectoryEnds (driveOf kernel) (rootDirStart header) mark ∧
    (ServesRootDirectory kernel header ->
      (slotsInUse (driveOf kernel) (rootDirStart header) mark : Int) ≤ FatHeader.rootDirEntries header)

section Loading

variable {kernel : Kernel} {fatPrivate : Word} {mark : Nat}

theorem loadRootDirectory_served (totalItems : Int)
    (served : ServesRootDirectory kernel (kernel.fatPrivates fatPrivate).header) :
    let loaded := loadRootDirectory (rootScanned kernel (kernel.fatPrivates fatPrivate).header mark) fatPrivate totalItems
    loaded.1 = 0 ∧ (loaded.2.fatPrivates fatPrivate).rootDir.total = totalItems := by
  have pointer : (kzalloc (rootScanned kernel (kernel.fatPrivates fatPrivate).header mark)
      (intToWord (rootDirSize (kernel.fatPrivates fatPrivate).header))).1 ≠ 0#32 := by
    rw [kzalloc_pointer]
    exact served
  refine ⟨(loadRootDirectory_res _ _ _).trans (if_neg pointer), ?_⟩
  exact congrArg FatDirectory.total (loadRootDirectory_rootDir totalItems pointer)

theorem loadRootDirectory_refused (totalItems : Int)
    (refused : ¬ ServesRootDirectory kernel (kernel.fatPrivates fatPrivate).header) :
    (loadRootDirectory (rootScanned kernel (kernel.fatPrivates fatPrivate).header mark) fatPrivate totalItems).1 =
      - ENOMEM := by
  have pointer : (kzalloc (rootScanned kernel (kernel.fatPrivates fatPrivate).header mark)
      (intToWord (rootDirSize (kernel.fatPrivates fatPrivate).header))).1 = 0#32 := by
    rw [kzalloc_pointer]
    exact not_not.mp refused
  exact (loadRootDirectory_res _ _ _).trans (if_pos pointer)

end Loading

/-- The promise is kept exactly for the directories that have an end and fit,
with the slots in use, in the buffer. -/
theorem rootDirectoryBounded_iff_fits (kernel : Kernel) (fatPrivate : Word) :
    RootDirectoryBounded kernel fatPrivate ↔ RootDirectoryFits kernel fatPrivate := by
  constructor
  · rintro ⟨loaded, same, bounded⟩
    rcases fat16GetRootDirectory_some same with ⟨mark, ends, rfl⟩
    refine ⟨mark, ends, fun served => ?_⟩
    rcases loadRootDirectory_served (slotsInUse (driveOf kernel) _ mark) served with ⟨res, total⟩
    exact total ▸ (bounded res).1
  · rintro ⟨mark, ends, fits⟩
    refine ⟨_, fat16GetRootDirectory_ends kernel fatPrivate ends, fun res => ?_⟩
    have served : ServesRootDirectory kernel (kernel.fatPrivates fatPrivate).header := by
      by_contra refused
      rw [loadRootDirectory_refused _ refused] at res
      exact absurd res (by decide)
    rcases loadRootDirectory_served (slotsInUse (driveOf kernel) _ mark) served with ⟨_, total⟩
    have bound := fits served
    constructor
    · rw [total]
      exact bound
    · intro index member
      have inside := (mem_visitedSlots total).mp member
      unfold rootDirSize slotSize
      omega

end Fs
end LarvaOS
