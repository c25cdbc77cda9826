import LarvaOS.Library.Slice
import LarvaOS.Memory.Kheap

namespace LarvaOS
namespace Disk

open Library

/-!
# The disk and its streams

A sector is delivered whole into a buffer of 512 bytes on the stack, from
which the bytes asked for are copied.  A request of more than one sector copies
512 bytes and continues with the rest, whatever the offset inside the sector
was.  A read that begins in the middle of a sector and goes on into the next
one therefore leaves the buffer at its end.

The position of a stream is a C `int`.  There is one disk, and every stream is
a stream of it.
-/

def DISK_SECTOR_SIZE : Int := 512

/-- The disk, with the bytes that lie around the buffer on the stack. -/
structure Drive where
  sectors : Int -> Nat -> Byte
  stray : Int -> Byte

/-- The result of `disk_read_blocks`, which refuses only another disk. -/
def diskReadBlocks : Int := 0

/-- `tmp_buf[index]`, after the sector was read into `tmp_buf`. -/
def Drive.tmpBuf (drive : Drive) (sector index : Int) : Byte :=
  if 0 ≤ index ∧ index < DISK_SECTOR_SIZE then drive.sectors sector index.toNat else drive.stray index

/-- What a read comes to: its result, the bytes that it stores, in order, the
indexes at which it takes them from `tmp_buf`, and the position it leaves. -/
structure Transfer where
  result : Int
  bytes : List Byte
  indexes : List Int
  pos : Int
deriving DecidableEq

/-- The copy from one sector. -/
def copySector (drive : Drive) (pos totalToRead : Int) : Transfer :=
  let sector := pos.tdiv DISK_SECTOR_SIZE
  let offset := pos.tmod DISK_SECTOR_SIZE
  if diskReadBlocks < 0 then { result := diskReadBlocks, bytes := [], indexes := [], pos := pos }
  else
    { result := diskReadBlocks
      bytes := slice (drive.tmpBuf sector) offset totalToRead.toNat
      indexes := slice id offset totalToRead.toNat
      pos := wrapInt (pos + totalToRead) }

/-- A transfer continued by another one. -/
def Transfer.andThen (first rest : Transfer) : Transfer where
  result := rest.result
  bytes := first.bytes ++ rest.bytes
  indexes := first.indexes ++ rest.indexes
  pos := rest.pos

@[simp] theorem Transfer.andThen_result (first rest : Transfer) : (first.andThen rest).result = rest.result := rfl

/-- `disk_stream_read` at a position, with at most `more` recursive calls. -/
def readSectors (drive : Drive) : Nat -> Int -> Int -> Transfer
  | 0, pos, total => copySector drive pos total
  | more + 1, pos, total =>
      if total > DISK_SECTOR_SIZE then
        let first := copySector drive pos DISK_SECTOR_SIZE
        if first.result < 0 then first
        else first.andThen (readSectors drive more first.pos (total - DISK_SECTOR_SIZE))
      else copySector drive pos total

/-- `disk_stream_read` at a position.  Each recursive call has 512 bytes less
to read. -/
def streamTransfer (drive : Drive) (pos total : Int) : Transfer :=
  readSectors drive (total.toNat / 512) pos total

/-- The recursion of the source. -/
theorem streamTransfer_eq (drive : Drive) (pos total : Int) :
    streamTransfer drive pos total =
      if total > DISK_SECTOR_SIZE then
        let first := copySector drive pos DISK_SECTOR_SIZE
        if first.result < 0 then first
        else first.andThen (streamTransfer drive first.pos (total - DISK_SECTOR_SIZE))
      else copySector drive pos total := by
  unfold streamTransfer
  by_cases more : total > DISK_SECTOR_SIZE
  · have fewer : total.toNat / 512 = (total - DISK_SECTOR_SIZE).toNat / 512 + 1 := by
      unfold DISK_SECTOR_SIZE at *
      omega
    rw [fewer, readSectors, if_pos more]
  · rw [if_neg more]
    cases total.toNat / 512 with
    | zero => rfl
    | succ count => rw [readSectors, if_neg more]

/-! ## Streams of the kernel -/

/-- The kernel's disk, as a read sees it. -/
def driveOf (kernel : Kernel) : Drive := ⟨kernel.sectors, kernel.stray⟩

theorem driveOf_congr {kernel kernel' : Kernel} (globals : kernel'.toGlobals = kernel.toGlobals) :
    driveOf kernel' = driveOf kernel := by
  unfold driveOf
  rw [congrArg Globals.sectors globals, congrArg Globals.stray globals]

theorem driveOf_kzalloc (kernel : Kernel) (size : Word) : driveOf (Memory.kzalloc kernel size).2 = driveOf kernel :=
  driveOf_congr (Memory.kzalloc_globals kernel size)

/-- `disk_stream_seek`.  Its result is always 0. -/
def diskStreamSeek (kernel : Kernel) (stream : Word) (pos : Int) : Kernel :=
  kernel.withStore { kernel.toStore with streamPositions := Function.update kernel.streamPositions stream pos }

section Seeking

variable (kernel : Kernel) (stream : Word) (pos : Int)

@[simp] theorem diskStreamSeek_heap : (diskStreamSeek kernel stream pos).heap = kernel.heap := rfl

@[simp] theorem diskStreamSeek_toGlobals : (diskStreamSeek kernel stream pos).toGlobals = kernel.toGlobals := rfl

@[simp] theorem diskStreamSeek_fatPrivates : (diskStreamSeek kernel stream pos).fatPrivates = kernel.fatPrivates := rfl

@[simp] theorem diskStreamSeek_bytes : (diskStreamSeek kernel stream pos).bytes = kernel.bytes := rfl

end Seeking

/-- `create_disk_stream`, for the only disk. -/
def createDiskStream (kernel : Kernel) : Word × Kernel :=
  let diskStreamer := Memory.kzalloc kernel 8#32
  (diskStreamer.1, diskStreamSeek diskStreamer.2 diskStreamer.1 0)

/-- `disk_stream_read`.  The caller owns the buffer and places the bytes. -/
def diskStreamRead (kernel : Kernel) (stream : Word) (total : Int) : Transfer × Kernel :=
  let transfer := streamTransfer (driveOf kernel) (kernel.streamPositions stream) total
  (transfer, diskStreamSeek kernel stream transfer.pos)

section Reading

variable (kernel : Kernel) (stream : Word) (total : Int)

@[simp] theorem diskStreamRead_heap : (diskStreamRead kernel stream total).2.heap = kernel.heap := rfl

@[simp] theorem diskStreamRead_toGlobals :
    (diskStreamRead kernel stream total).2.toGlobals = kernel.toGlobals := rfl

@[simp] theorem diskStreamRead_fatPrivates :
    (diskStreamRead kernel stream total).2.fatPrivates = kernel.fatPrivates := rfl

@[simp] theorem diskStreamRead_bytes : (diskStreamRead kernel stream total).2.bytes = kernel.bytes := rfl

end Reading

/-- `release_disk_stream`. -/
def releaseDiskStream (kernel : Kernel) (stream : Word) : Kernel := Memory.kfree kernel stream

/-! ## What a read delivers -/

/-- The byte of the disk at a position. -/
def Drive.byteAt (drive : Drive) (pos : Int) : Byte := drive.sectors (pos / 512) (pos % 512).toNat

/-- A read of `total` bytes does not begin in the middle of a sector and go on
into the next one. -/
def ReadsWithinSectors (pos total : Int) : Prop := pos % 512 = 0 ∨ pos % 512 + total ≤ 512

instance (pos total : Int) : Decidable (ReadsWithinSectors pos total) := inferInstanceAs (Decidable (_ ∨ _))

/-- What `disk_stream_read` promises: it returns 0, stores the bytes of the
disk from `pos` on, keeps to its buffer, and moves the position behind them. -/
structure Delivers (drive : Drive) (pos total : Int) (transfer : Transfer) : Prop where
  result : transfer.result = 0
  bytes : transfer.bytes = slice drive.byteAt pos total.toNat
  inside : forall index, index ∈ transfer.indexes -> 0 ≤ index ∧ index < DISK_SECTOR_SIZE
  pos : transfer.pos = pos + total

theorem copySector_eq (drive : Drive) (pos totalToRead : Int) :
    copySector drive pos totalToRead =
      { result := 0
        bytes := slice (drive.tmpBuf (pos.tdiv DISK_SECTOR_SIZE)) (pos.tmod DISK_SECTOR_SIZE) totalToRead.toNat
        indexes := slice id (pos.tmod DISK_SECTOR_SIZE) totalToRead.toNat
        pos := wrapInt (pos + totalToRead) } := by
  rw [copySector, if_neg (by decide), diskReadBlocks]

/-- The index of the last byte that is copied. -/
theorem lastIndex_copied (drive : Drive) {pos totalToRead : Int} (nonnegative : 0 ≤ pos)
    (positive : 0 < totalToRead) :
    pos % 512 + totalToRead - 1 ∈ (copySector drive pos totalToRead).indexes := by
  have indexes : (copySector drive pos totalToRead).indexes = slice id (pos.tmod DISK_SECTOR_SIZE) totalToRead.toNat := by
    rw [copySector_eq]
  rw [indexes, mem_slice]
  refine ⟨(totalToRead - 1).toNat, by omega, ?_⟩
  rw [DISK_SECTOR_SIZE, Int.tmod_eq_emod_of_nonneg nonnegative, id]
  omega

/-- The buffer holds the disk's bytes while the copy stays in the sector. -/
theorem tmpBuf_byteAt (drive : Drive) {pos offset : Int} (nonnegative : 0 ≤ pos) (lower : 0 ≤ offset)
    (inside : pos % 512 + offset < 512) :
    drive.tmpBuf (pos.tdiv DISK_SECTOR_SIZE) (pos.tmod DISK_SECTOR_SIZE + offset) = drive.byteAt (pos + offset) := by
  have remainder := Int.emod_nonneg pos (by decide : (512 : Int) ≠ 0)
  have sector : (pos + offset) / 512 = pos / 512 := by omega
  have index : (pos + offset) % 512 = pos % 512 + offset := by omega
  rw [DISK_SECTOR_SIZE, Int.tdiv_eq_ediv_of_nonneg nonnegative, Int.tmod_eq_emod_of_nonneg nonnegative, Drive.tmpBuf,
    if_pos ⟨by omega, inside⟩, Drive.byteAt, sector, index]

theorem copySector_delivers (drive : Drive) {pos total : Int} (nonnegative : 0 ≤ pos) (lower : 0 ≤ total)
    (bound : pos + total < 2 ^ 31) (within : pos % 512 + total ≤ 512) :
    Delivers drive pos total (copySector drive pos total) := by
  have remainder := Int.emod_nonneg pos (by decide : (512 : Int) ≠ 0)
  rw [copySector_eq]
  refine ⟨rfl, ?_, ?_, wrapInt_of_small (by omega) bound⟩
  · exact slice_congr fun index inside => tmpBuf_byteAt drive nonnegative (by omega) (by omega)
  · intro index member
    rcases mem_slice.mp member with ⟨step, inside, rfl⟩
    rw [DISK_SECTOR_SIZE, Int.tmod_eq_emod_of_nonneg nonnegative, id]
    omega

theorem Delivers.andThen {drive : Drive} {pos first rest : Int} {head tail : Transfer} (lower : 0 ≤ first)
    (restLower : 0 ≤ rest) (headDelivers : Delivers drive pos first head)
    (tailDelivers : Delivers drive head.pos rest tail) : Delivers drive pos (first + rest) (head.andThen tail) where
  result := tailDelivers.result
  bytes := by
    have both : (first + rest).toNat = first.toNat + rest.toNat := by omega
    have start : pos + (first.toNat : Int) = head.pos := by
      rw [headDelivers.pos]
      omega
    rw [both, slice_add, start, ← headDelivers.bytes, ← tailDelivers.bytes]
    rfl
  inside := by
    intro index member
    rcases List.mem_append.mp member with early | late
    · exact headDelivers.inside index early
    · exact tailDelivers.inside index late
  pos := by
    change tail.pos = pos + (first + rest)
    rw [tailDelivers.pos, headDelivers.pos, Int.add_assoc]

/-- From the beginning of a sector any number of bytes is delivered. -/
theorem streamTransfer_aligned (drive : Drive) {pos total : Int} (nonnegative : 0 ≤ pos) (lower : 0 ≤ total)
    (bound : pos + total < 2 ^ 31) (aligned : pos % 512 = 0) :
    Delivers drive pos total (streamTransfer drive pos total) := by
  generalize size : total.toNat = count
  induction count using Nat.strongRecOn generalizing pos total with
  | _ count inductionHypothesis =>
      rw [streamTransfer_eq]
      by_cases more : total > DISK_SECTOR_SIZE
      · unfold DISK_SECTOR_SIZE at *
        have first := copySector_delivers drive nonnegative (by decide : (0 : Int) ≤ 512) (by omega) (by omega)
        have next : (copySector drive pos 512).pos = pos + 512 := first.pos
        have rest := @inductionHypothesis (total - 512).toNat (by omega) (pos + 512) (total - 512) (by omega)
          (by omega) (by omega) (by omega) rfl
        rw [if_pos more]
        simp only [first.result, Int.lt_irrefl, if_false]
        have joined := first.andThen (by decide) (by omega) (next ▸ rest)
        have whole : 512 + (total - 512) = total := by omega
        rwa [whole] at joined
      · rw [if_neg more]
        unfold DISK_SECTOR_SIZE at more
        exact copySector_delivers drive nonnegative lower bound (by omega)

theorem copySector_bytes (drive : Drive) {pos total : Int} (nonnegative : 0 ≤ pos)
    (within : pos % 512 + total ≤ 512) : (copySector drive pos total).bytes = slice drive.byteAt pos total.toNat := by
  rw [copySector_eq]
  exact slice_congr fun index inside => tmpBuf_byteAt drive nonnegative (by omega) (by omega)

/-- The last byte that a read may ask for is the one before 2^31. -/
theorem streamTransfer_bytes (drive : Drive) {pos total : Int} (nonnegative : 0 ≤ pos) (bound : pos + total ≤ 2 ^ 31)
    (within : ReadsWithinSectors pos total) :
    (streamTransfer drive pos total).bytes = slice drive.byteAt pos total.toNat := by
  generalize size : total.toNat = count
  induction count using Nat.strongRecOn generalizing pos total with
  | _ count inductionHypothesis =>
      rw [streamTransfer_eq]
      by_cases more : total > DISK_SECTOR_SIZE
      · unfold DISK_SECTOR_SIZE ReadsWithinSectors at *
        have remainder := Int.emod_nonneg pos (by decide : (512 : Int) ≠ 0)
        have first : (copySector drive pos 512).result = 0 := by rw [copySector_eq]
        have next : (copySector drive pos 512).pos = pos + 512 := by
          rw [copySector_eq]
          exact wrapInt_of_small (by omega) (by omega)
        have head := copySector_bytes drive nonnegative (show pos % 512 + 512 ≤ 512 by omega)
        have rest := @inductionHypothesis (total - 512).toNat (by omega) (pos + 512) (total - 512) (by omega)
          (by omega) (Or.inl (by omega)) rfl
        have both : count = 512 + (total - 512).toNat := by omega
        rw [if_pos more]
        simp only [first, Int.lt_irrefl, if_false]
        rw [both, slice_add]
        exact congrArg₂ (· ++ ·) head (next ▸ rest)
      · rw [if_neg more]
        unfold DISK_SECTOR_SIZE ReadsWithinSectors at *
        subst size
        exact copySector_bytes drive nonnegative (by omega)

/-- The first bytes of a sector, wherever it lies. -/
theorem copySector_aligned (drive : Drive) {pos total : Int} (aligned : pos % 512 = 0) (lowest : -2 ^ 31 ≤ pos)
    (highest : pos < 2 ^ 31) (short : total ≤ 512) :
    (copySector drive pos total).bytes = slice (fun place => drive.byteAt (wrapInt place)) pos total.toNat := by
  rw [copySector_eq]
  refine slice_congr fun index inside => ?_
  have whole : pos.tmod 512 = 0 := Int.tmod_eq_zero_of_dvd (Int.dvd_of_emod_eq_zero aligned)
  have quotient : pos.tdiv 512 = pos / 512 := Int.tdiv_eq_ediv_of_dvd (Int.dvd_of_emod_eq_zero aligned)
  rw [DISK_SECTOR_SIZE, whole, quotient, Int.zero_add, wrapInt_of_small (by omega) (by omega), Drive.tmpBuf,
    if_pos ⟨Int.natCast_nonneg index, by unfold DISK_SECTOR_SIZE; omega⟩, Drive.byteAt]
  have same : (pos + index) / 512 = pos / 512 := by omega
  have place : (pos + index) % 512 = index := by omega
  rw [same, place]

/-- A read from the beginning of a sector goes on with the positions that an `int` has, also
behind the last of them. -/
theorem streamTransfer_aligned_bytes (drive : Drive) {pos total : Int} (aligned : pos % 512 = 0) (lowest : -2 ^ 31 ≤ pos)
    (highest : pos < 2 ^ 31) :
    (streamTransfer drive pos total).bytes = slice (fun place => drive.byteAt (wrapInt place)) pos total.toNat := by
  generalize size : total.toNat = count
  induction count using Nat.strongRecOn generalizing pos total with
  | _ count inductionHypothesis =>
      rw [streamTransfer_eq]
      by_cases more : total > DISK_SECTOR_SIZE
      · unfold DISK_SECTOR_SIZE at *
        have first : (copySector drive pos 512).result = 0 := by rw [copySector_eq]
        have next : (copySector drive pos 512).pos = wrapInt (pos + 512) := by rw [copySector_eq]
        have range := (wrapInt_eq_iff (wrapInt (pos + 512))).mp (by
          have twice := wrapInt_add_wrapInt (pos + 512) 0
          rwa [Int.add_zero, Int.add_zero] at twice)
        have sectors : wrapInt (pos + 512) % 512 = 0 := by
          have congruent := wrapInt_emod (pos + 512)
          omega
        have rest := @inductionHypothesis (total - 512).toNat (by omega) (wrapInt (pos + 512)) (total - 512) sectors
          range.1 range.2 rfl
        have both : count = 512 + (total - 512).toNat := by omega
        rw [if_pos more]
        simp only [first, Int.lt_irrefl, if_false]
        rw [both, slice_add]
        refine congrArg₂ (· ++ ·) (copySector_aligned drive aligned lowest highest (Int.le_refl 512)) ?_
        rw [next, rest]
        refine slice_congr fun index _ => ?_
        rw [wrapInt_add_wrapInt]
        rfl
      · rw [if_neg more]
        unfold DISK_SECTOR_SIZE at more
        subst size
        exact copySector_aligned drive aligned lowest highest (by omega)

/-- A read keeps its promise exactly when it begins with a sector or ends in
the sector where it begins. -/
theorem streamTransfer_delivers_iff (drive : Drive) {pos total : Int} (nonnegative : 0 ≤ pos) (lower : 0 ≤ total)
    (bound : pos + total < 2 ^ 31) :
    Delivers drive pos total (streamTransfer drive pos total) ↔ ReadsWithinSectors pos total := by
  constructor
  · intro delivers
    by_contra crosses
    have unaligned : ¬ pos % 512 = 0 := fun aligned => crosses (Or.inl aligned)
    have beyond : 512 < pos % 512 + total := by
      by_contra short
      exact crosses (Or.inr (by omega))
    have remainder := Int.emod_nonneg pos (by decide : (512 : Int) ≠ 0)
    -- The last byte of the first copy is taken from behind the buffer.
    have touched : pos % 512 + min total 512 - 1 ∈ (streamTransfer drive pos total).indexes := by
      rw [streamTransfer_eq]
      by_cases more : total > DISK_SECTOR_SIZE
      · have first : (copySector drive pos DISK_SECTOR_SIZE).result = 0 := by rw [copySector_eq]
        have last := lastIndex_copied drive nonnegative (by decide : 0 < DISK_SECTOR_SIZE)
        have whole : pos % 512 + DISK_SECTOR_SIZE - 1 = pos % 512 + min total 512 - 1 := by
          unfold DISK_SECTOR_SIZE at *
          omega
        rw [whole] at last
        rw [if_pos more]
        simp only [first, Int.lt_irrefl, if_false]
        exact List.mem_append_left _ last
      · have last := lastIndex_copied drive nonnegative (show 0 < total by omega)
        have whole : pos % 512 + total - 1 = pos % 512 + min total 512 - 1 := by
          unfold DISK_SECTOR_SIZE at *
          omega
        rw [whole] at last
        rwa [if_neg more]
    have inside := delivers.inside _ touched
    unfold DISK_SECTOR_SIZE at inside
    omega
  · rintro (aligned | within)
    · exact streamTransfer_aligned drive nonnegative lower bound aligned
    · have remainder := Int.emod_nonneg pos (by decide : (512 : Int) ≠ 0)
      rw [streamTransfer_eq, if_neg (by unfold DISK_SECTOR_SIZE; omega)]
      exact copySector_delivers drive nonnegative lower bound within

/-- A read through a stream keeps its promise, and leaves the position behind
the bytes that were read, exactly when it begins with a sector or ends in the
sector where it begins. -/
theorem diskStreamRead_delivers_iff (kernel : Kernel) (stream : Word) (total : Int)
    (nonnegative : 0 ≤ kernel.streamPositions stream) (lower : 0 ≤ total)
    (bound : kernel.streamPositions stream + total < 2 ^ 31) :
    (Delivers (driveOf kernel) (kernel.streamPositions stream) total (diskStreamRead kernel stream total).1 ∧
      (diskStreamRead kernel stream total).2.streamPositions stream = kernel.streamPositions stream + total) ↔
        ReadsWithinSectors (kernel.streamPositions stream) total := by
  have exactly := streamTransfer_delivers_iff (driveOf kernel) nonnegative lower bound
  constructor
  · exact fun both => exactly.mp both.1
  · intro within
    have delivers := exactly.mpr within
    refine ⟨delivers, ?_⟩
    change Function.update kernel.streamPositions stream _ stream = _
    rw [Function.update_self]
    exact delivers.pos

/-- A blank kernel whose disk holds the number of each sector in its bytes. -/
abbrev numberedDisk : Kernel :=
  Kernel.loaded Store.blank (fun sector _ => BitVec.ofInt 8 sector) fun _ => 0xEE#8

/-- Two bytes on each side of the middle of the first sector. -/
theorem diskStreamRead_delivers_four :
    let kernel := diskStreamSeek numberedDisk 0#32 254
    Delivers (driveOf kernel) (kernel.streamPositions 0#32) 4 (diskStreamRead kernel 0#32 4).1 ∧
      (diskStreamRead kernel 0#32 4).2.streamPositions 0#32 = kernel.streamPositions 0#32 + 4 :=
  (diskStreamRead_delivers_iff (diskStreamSeek numberedDisk 0#32 254) 0#32 4 (by decide) (by decide)
    (by decide)).mpr (by decide)

/-- Two bytes on each side of the end of the first sector: the last two come
from behind the buffer. -/
theorem diskStreamRead_crosses_sector :
    let kernel := diskStreamSeek numberedDisk 0#32 510
    ¬ (Delivers (driveOf kernel) (kernel.streamPositions 0#32) 4 (diskStreamRead kernel 0#32 4).1 ∧
      (diskStreamRead kernel 0#32 4).2.streamPositions 0#32 = kernel.streamPositions 0#32 + 4) := by
  rintro kernel ⟨delivers, _⟩
  exact absurd (delivers.inside 513 (by decide)).2 (by decide)

end Disk
end LarvaOS
