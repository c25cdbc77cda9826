import LarvaOS.Disk.Disk
import LarvaOS.Disk.Stream

namespace LarvaOS
namespace Disk

open Library

/-!
# Streams on a drive

The streams of the file system are modelled on a disk whose sectors are simply
there.  Here a stream is read through the driver and the ports of a drive, into
a buffer in memory, with one buffer of a sector on the stack for each recursive
call.  A read that keeps within sectors comes to the same result.

The buffer of the caller is not on the stack below it, where the calls keep
theirs.
-/

/-- The sectors of a drive, with the bytes that lie around a buffer. -/
def driveOn (drive : Ata.Drive) (stray : Int -> Byte) : Drive :=
  ⟨fun sector index => sectorByte drive sector.toNat index, stray⟩

/-- The copy from `tmp_buf` on. -/
def copyBytes : Nat -> Word -> Word -> (Word -> Byte) -> Word -> Byte
  | 0, _, _, memory => memory
  | count + 1, source, buf, memory =>
      copyBytes count (source + 1#32) (buf + 1#32) (Function.update memory buf (memory source))

/-- What a read comes to: its result, the position of the stream, and what the
driver works on. -/
abbrev Outcome := Int × Int × Host

/-- The read of one sector into `tmpBuf`, and the copy from it. -/
def readOne (drive : Ata.Drive) (polls : Nat) (tmpBuf : Word) (pos totalToRead : Int) (buf : Word) (host : Host) :
    Option Outcome :=
  (diskReadSectors drive polls (pos.tdiv DISK_SECTOR_SIZE) 1 tmpBuf host).map fun read =>
    if read.1 < 0 then (read.1, pos, read.2)
    else
      let source := tmpBuf + intToWord (pos.tmod DISK_SECTOR_SIZE)
      (read.1, wrapInt (pos + totalToRead), { read.2 with memory := copyBytes totalToRead.toNat source buf read.2.memory })

/-- `disk_stream_read`, with at most `more` recursive calls.  Each call has its
own `tmp_buf`. -/
def readOnDrive (drive : Ata.Drive) (polls : Nat) (tmpBufs : Nat -> Word) :
    Nat -> Int -> Int -> Word -> Host -> Option Outcome
  | 0, pos, total, buf, host => readOne drive polls (tmpBufs 0) pos total buf host
  | more + 1, pos, total, buf, host =>
      if total > DISK_SECTOR_SIZE then
        (readOne drive polls (tmpBufs (more + 1)) pos DISK_SECTOR_SIZE buf host).bind fun first =>
          if first.1 < 0 then some first
          else readOnDrive drive polls tmpBufs more first.2.1 (total - DISK_SECTOR_SIZE) (buf + 512#32) first.2.2
      else readOne drive polls (tmpBufs (more + 1)) pos total buf host

/-! ## One sector -/

/-- One byte is stored. -/
theorem update_fills (memory : Word -> Byte) (buf : Word) (value : Byte) :
    Fills memory (Function.update memory buf value) buf 1 fun _ => value := by
  constructor
  · intro place below
    cases Nat.lt_one_iff.mp below
    rw [BitVec.add_zero, Function.update_self]
  · intro address beyond
    refine Function.update_of_ne ?_ _ _
    rintro rfl
    rw [BitVec.sub_self] at beyond
    exact absurd beyond (by decide)

/-- A copy from a place that it does not store to. -/
theorem copyBytes_fills {count : Nat} {source buf : Word} {memory : Word -> Byte} (small : count ≤ 2 ^ 32)
    (apart : forall place origin : Nat, place < count -> origin < count ->
      buf + BitVec.ofNat 32 place ≠ source + BitVec.ofNat 32 origin) :
    Fills memory (copyBytes count source buf memory) buf count fun place => memory (source + BitVec.ofNat 32 place) := by
  have next : forall (address : Word) (place : Nat),
      address + 1#32 + BitVec.ofNat 32 place = address + BitVec.ofNat 32 (place + 1) := by
    intro address place
    rw [BitVec.add_assoc, Nat.add_comm place 1, BitVec.ofNat_add]
  induction count generalizing source buf memory with
  | zero => exact Fills.empty memory buf _
  | succ count inductionHypothesis =>
      have first := update_fills memory buf (memory source)
      have rest : Fills (Function.update memory buf (memory source)) (copyBytes (count + 1) source buf memory)
          (buf + BitVec.ofNat 32 1) count fun place => memory (source + BitVec.ofNat 32 (place + 1)) := by
        refine (inductionHypothesis (by omega) fun place origin below originBelow => ?_).congr fun place below => ?_
        · rw [next, next]
          exact apart (place + 1) (origin + 1) (Nat.succ_lt_succ below) (Nat.succ_lt_succ originBelow)
        · have kept := apart 0 (place + 1) (Nat.succ_pos count) (Nat.succ_lt_succ below)
          rw [BitVec.add_zero] at kept
          rw [next, Function.update_of_ne kept.symm]
      have whole := first.append rest (by omega)
      rw [Nat.add_comm 1 count] at whole
      refine whole.congr fun place below => ?_
      cases place with
      | zero => exact (if_pos Nat.one_pos).trans (congrArg memory (BitVec.add_zero source).symm)
      | succ place => exact if_neg (Nat.not_lt.mpr (Nat.succ_le_succ (Nat.zero_le place)))

/-- The sector in which a position lies is read into `tmpBuf`. -/
theorem readSector_holds (drive : Ata.Drive) {host : Host} (idle : host.channel.phase = .idle) {pos : Int}
    (nonnegative : 0 ≤ pos) (bound : pos < 2 ^ 31) (inside : pos / 512 < drive.capacity) (tmpBuf : Word) :
    exists polls after, diskReadSectors drive polls (pos.tdiv DISK_SECTOR_SIZE) 1 tmpBuf host = some (0, after) ∧
      after.channel.phase = .idle ∧
      Fills host.memory after.memory tmpBuf 512 fun place => sectorByte drive (pos / 512).toNat place := by
  have sector : pos.tdiv DISK_SECTOR_SIZE = pos / 512 := Int.tdiv_eq_ediv_of_nonneg nonnegative
  have numbered : Request.Numbered ⟨pos / 512, 1, tmpBuf⟩ := by
    change 0 ≤ pos / 512 ∧ pos / 512 < 2 ^ 28 ∧ (1 : Int) ≤ 1
    omega
  have fits : Request.Fits drive ⟨pos / 512, 1, tmpBuf⟩ := by
    change (1 : Int) ≤ 256 ∧ pos / 512 + 1 ≤ drive.capacity
    omega
  rcases fits.reads numbered idle with ⟨after, ⟨polls, returns⟩, rests, fills⟩
  rw [sector]
  refine ⟨polls, after, returns, rests, fills.congr fun place (below : place < 512) => ?_⟩
  rw [byteFrom, Nat.div_eq_of_lt below, Nat.mod_eq_of_lt below, Nat.add_zero]

/-! ## A whole read -/

/-- An address is in a buffer of a sector. -/
def InSector (tmpBuf address : Word) : Prop := (address - tmpBuf).toNat < 512

/-- A read returns 0 and moves the position, with the bytes of the drive in the
buffer of the caller, nothing else changed outside of the stack, and the drive
idle. -/
structure Stores (drive : Ata.Drive) (stack : Word -> Prop) (pos total : Int) (buf : Word) (host : Host)
    (outcome : Outcome) : Prop where
  result : outcome.1 = 0
  moves : outcome.2.1 = wrapInt (pos + total)
  idle : outcome.2.2.channel.phase = .idle
  inside : forall place, place < total.toNat -> outcome.2.2.memory (buf + BitVec.ofNat 32 place) =
    sectorByte drive ((pos + (place : Int)) / 512).toNat ((pos + (place : Int)) % 512).toNat
  outside : forall address, total.toNat ≤ (address - buf).toNat -> ¬ stack address ->
    outcome.2.2.memory address = host.memory address

/-- One sector holds what is asked for. -/
theorem readOne_stores (drive : Ata.Drive) {host : Host} (idle : host.channel.phase = .idle) {pos count : Int}
    (nonnegative : 0 ≤ pos) (bound : pos < 2 ^ 31) (within : pos % 512 + count ≤ 512)
    (inside : pos / 512 < drive.capacity) {tmpBuf buf : Word}
    (apart : forall place, place < count.toNat -> ¬ InSector tmpBuf (buf + BitVec.ofNat 32 place)) :
    exists enough outcome, (forall polls, enough ≤ polls -> readOne drive polls tmpBuf pos count buf host = some outcome) ∧
      Stores drive (InSector tmpBuf) pos count buf host outcome := by
  rcases readSector_holds drive idle nonnegative bound inside tmpBuf with ⟨enough, after, returns, rests, fills⟩
  have source : intToWord (pos.tmod DISK_SECTOR_SIZE) = BitVec.ofNat 32 (pos % 512).toNat := by
    rw [DISK_SECTOR_SIZE, Int.tmod_eq_emod_of_nonneg nonnegative, intToWord_of_nonneg (by omega)]
  have copied := @copyBytes_fills count.toNat (tmpBuf + BitVec.ofNat 32 (pos % 512).toNat) buf after.memory (by omega)
    (fun place origin below originBelow same => apart place below (by
      rw [InSector, same, BitVec.add_assoc, ← BitVec.ofNat_add, offset_toNat tmpBuf (by omega)]
      omega))
  refine ⟨enough, (0, wrapInt (pos + count),
    ⟨after.channel, copyBytes count.toNat (tmpBuf + BitVec.ofNat 32 (pos % 512).toNat) buf after.memory⟩), ?_, ?_⟩
  · intro polls patient
    rw [readOne, diskReadSectors_mono patient returns, source]
    rfl
  · refine ⟨rfl, rfl, rests, fun place below => ?_, fun address beyond outside => ?_⟩
    · have sector : (pos + (place : Int)) / 512 = pos / 512 := by omega
      have index : (pos % 512).toNat + place = ((pos + (place : Int)) % 512).toNat := by omega
      refine (copied.inside place below).trans ?_
      rw [BitVec.add_assoc, ← BitVec.ofNat_add, fills.inside _ (by omega), sector, index]
    · exact (copied.outside address beyond).trans (fills.outside address (Nat.not_lt.mp outside))

/-- The stack buffers of a read with at most `more` recursive calls. -/
def InStack (tmpBufs : Nat -> Word) (more : Nat) (address : Word) : Prop :=
  exists depth, depth ≤ more ∧ InSector (tmpBufs depth) address

/-- The places of an address in a buffer and in its rest. -/
theorem place_rest {address buf : Word} (behind : 512 ≤ (address - buf).toNat) :
    (address - (buf + 512#32)).toNat = (address - buf).toNat - 512 := by
  bv_omega

theorem place_before (buf : Word) {place : Nat} (before : place < 512) :
    (buf + BitVec.ofNat 32 place - (buf + 512#32)).toNat = 2 ^ 32 - 512 + place := by
  have small : (BitVec.ofNat 32 place).toNat = place := by
    rw [BitVec.toNat_ofNat]
    omega
  generalize BitVec.ofNat 32 place = offset at small
  bv_omega

/-- A whole sector, and the rest of a read behind it. -/
theorem Stores.andThen {drive : Ata.Drive} {tmpBufs : Nat -> Word} {more : Nat} {pos total : Int} {buf : Word} {host : Host}
    {first outcome : Outcome} (large : 512 < total) (small : total < 2 ^ 31)
    (apart : forall place, place < total.toNat -> ¬ InStack tmpBufs (more + 1) (buf + BitVec.ofNat 32 place))
    (head : Stores drive (InSector (tmpBufs (more + 1))) pos 512 buf host first)
    (tail : Stores drive (InStack tmpBufs more) (pos + 512) (total - 512) (buf + 512#32) first.2.2 outcome) :
    Stores drive (InStack tmpBufs (more + 1)) pos total buf host outcome where
  result := tail.result
  moves := by
    rw [tail.moves]
    congr 1
    omega
  idle := tail.idle
  inside := by
    intro place below
    by_cases early : place < 512
    · rw [tail.outside _ (by rw [place_before buf early]; omega) fun deeper => apart place below ?_]
      · exact head.inside place early
      · exact deeper.imp fun depth both => ⟨Nat.le_succ_of_le both.1, both.2⟩
    · have here := tail.inside (place - 512) (by omega)
      have address : buf + 512#32 + BitVec.ofNat 32 (place - 512) = buf + BitVec.ofNat 32 place := by
        rw [BitVec.add_assoc, ← BitVec.ofNat_add, Nat.add_sub_cancel' (Nat.not_lt.mp early)]
      have there : pos + 512 + ((place - 512 : Nat) : Int) = pos + place := by omega
      rwa [address, there] at here
  outside := by
    intro address beyond outside
    rw [tail.outside address (by rw [place_rest (by omega)]; omega) fun deeper =>
      outside (deeper.imp fun depth both => ⟨Nat.le_succ_of_le both.1, both.2⟩)]
    exact head.outside address (by omega) fun here => outside ⟨more + 1, Nat.le_refl _, here⟩

/-- A read within sectors that the drive has. -/
structure ReadOk (drive : Ata.Drive) (pos total : Int) : Prop where
  nonnegative : 0 ≤ pos
  lower : 0 ≤ total
  bound : pos + total < 2 ^ 31
  within : ReadsWithinSectors pos total
  inside : pos + max total 1 ≤ 512 * drive.capacity

section Reading

variable (drive : Ata.Drive) {tmpBufs : Nat -> Word}

/-- The last call of a read. -/
theorem readOnDrive_last (polls more : Nat) (pos : Int) {total : Int} (short : total ≤ 512) (buf : Word) (host : Host) :
    readOnDrive drive polls tmpBufs more pos total buf host = readOne drive polls (tmpBufs more) pos total buf host := by
  cases more with
  | zero => rfl
  | succ more => exact if_neg (Int.not_lt.mpr short)

/-- A call that goes on. -/
theorem readOnDrive_more (polls more : Nat) (pos : Int) {total : Int} (large : 512 < total) (buf : Word) (host : Host) :
    readOnDrive drive polls tmpBufs (more + 1) pos total buf host =
      (readOne drive polls (tmpBufs (more + 1)) pos 512 buf host).bind fun first =>
        if first.1 < 0 then some first
        else readOnDrive drive polls tmpBufs more first.2.1 (total - 512) (buf + 512#32) first.2.2 := if_pos large

/-- A read in one sector. -/
theorem readOnDrive_within {more : Nat} {pos total : Int} (ok : ReadOk drive pos total) (within : pos % 512 + total ≤ 512)
    {host : Host} (idle : host.channel.phase = .idle) {buf : Word}
    (apart : forall place, place < total.toNat -> ¬ InStack tmpBufs more (buf + BitVec.ofNat 32 place)) :
    exists enough outcome,
      (forall polls, enough ≤ polls -> readOnDrive drive polls tmpBufs more pos total buf host = some outcome) ∧
      Stores drive (InStack tmpBufs more) pos total buf host outcome := by
  have inside := ok.inside
  have bound := ok.bound
  have lower := ok.lower
  have remainder := Int.emod_nonneg pos (show (512 : Int) ≠ 0 by decide)
  rcases readOne_stores drive idle ok.nonnegative (by omega) within (by omega)
    (fun place below here => apart place below ⟨more, Nat.le_refl more, here⟩) with ⟨enough, outcome, reads, stores⟩
  refine ⟨enough, outcome, fun polls patient => ?_, stores.result, stores.moves, stores.idle, stores.inside, ?_⟩
  · exact (readOnDrive_last drive polls more pos (by omega) buf host).trans (reads polls patient)
  · exact fun address beyond outside => stores.outside address beyond fun here => outside ⟨more, Nat.le_refl more, here⟩

/-- What is left of a read behind its first sector. -/
theorem ReadOk.rest {drive : Ata.Drive} {pos total : Int} (ok : ReadOk drive pos total) (large : 512 < total) :
    pos % 512 = 0 ∧ ReadOk drive (pos + 512) (total - 512) := by
  have nonnegative := ok.nonnegative
  have bound := ok.bound
  have inside := ok.inside
  have aligned : pos % 512 = 0 := by
    cases ok.within with
    | inl aligned => exact aligned
    | inr within => omega
  exact ⟨aligned, by omega, by omega, by omega, Or.inl (by omega), by omega⟩

/-- A read stores the bytes of the drive. -/
theorem readOnDrive_stores {more : Nat} {pos total : Int} (ok : ReadOk drive pos total)
    (deep : total ≤ 512 * (more + 1)) {host : Host} (idle : host.channel.phase = .idle)
    {buf : Word} (apart : forall place, place < total.toNat -> ¬ InStack tmpBufs more (buf + BitVec.ofNat 32 place)) :
    exists enough outcome,
      (forall polls, enough ≤ polls -> readOnDrive drive polls tmpBufs more pos total buf host = some outcome) ∧
      Stores drive (InStack tmpBufs more) pos total buf host outcome := by
  induction more generalizing pos total buf host with
  | zero =>
      refine readOnDrive_within drive ok ?_ idle apart
      cases ok.within with
      | inl aligned => omega
      | inr within => exact within
  | succ more inductionHypothesis =>
      cases Int.lt_or_le 512 total with
      | inl large =>
          rcases ok.rest large with ⟨aligned, rest⟩
          have nonnegative := ok.nonnegative
          have bound := ok.bound
          have inside := ok.inside
          rcases readOne_stores drive idle nonnegative (by omega) (show pos % 512 + 512 ≤ 512 by omega) (by omega)
            (fun place (below : place < 512) here => apart place (by omega) ⟨more + 1, Nat.le_refl _, here⟩) with
            ⟨enough, first, reads, head⟩
          rcases inductionHypothesis rest (by omega) head.idle (fun place below deeper =>
            apart (512 + place) (by omega) (by
              rw [BitVec.ofNat_add, ← BitVec.add_assoc]
              exact deeper.imp fun depth both => ⟨Nat.le_succ_of_le both.1, both.2⟩)) with
            ⟨enoughLater, outcome, readsLater, tail⟩
          have moved : first.2.1 = pos + 512 := head.moves.trans (wrapInt_of_small (by omega) (by omega))
          refine ⟨max enough enoughLater, outcome, fun polls patient => ?_,
            Stores.andThen large (by omega) apart head tail⟩
          rw [readOnDrive_more drive polls more pos large, reads polls (Nat.le_trans (Nat.le_max_left _ _) patient),
            Option.bind_some, head.result, if_neg (by decide), moved]
          exact readsLater polls (Nat.le_trans (Nat.le_max_right _ _) patient)
      | inr short =>
          refine readOnDrive_within drive ok ?_ idle apart
          cases ok.within with
          | inl aligned => omega
          | inr within => exact within

end Reading

/-! ## Runs -/

/-- A call of `disk_stream_read`, with the position of its stream and the places
of the buffers on its stack. -/
structure StreamRequest where
  pos : Int
  total : Int
  buf : Word
  tmpBufs : Nat -> Word

namespace StreamRequest

variable (request : StreamRequest)

/-- The stack of the call. -/
def Stack (address : Word) : Prop := InStack request.tmpBufs (request.total.toNat / 512) address

/-- The read keeps within sectors of the drive, and its buffer off its stack. -/
structure Legal (drive : Ata.Drive) (request : StreamRequest) : Prop where
  ok : ReadOk drive request.pos request.total
  apart : forall place, place < request.total.toNat -> ¬ request.Stack (request.buf + BitVec.ofNat 32 place)

/-- The read through the ports comes to what the model of the streams says. -/
structure Agrees (drive : Ata.Drive) (stray : Int -> Byte) (host : Host) (request : StreamRequest) (after : Host) :
    Prop where
  returns :
    let transfer := streamTransfer (driveOn drive stray) request.pos request.total
    exists polls, readOnDrive drive polls request.tmpBufs (request.total.toNat / 512) request.pos request.total
      request.buf host = some (transfer.result, transfer.pos, after)
  bytes : slice (fun index => after.memory (request.buf + intToWord index)) 0 request.total.toNat =
    (streamTransfer (driveOn drive stray) request.pos request.total).bytes
  others : forall address, request.total.toNat ≤ (address - request.buf).toNat -> ¬ request.Stack address ->
    after.memory address = host.memory address

theorem Legal.agrees {drive : Ata.Drive} {request : StreamRequest} (legal : request.Legal drive) (stray : Int -> Byte)
    {host : Host} (idle : host.channel.phase = .idle) :
    exists after, request.Agrees drive stray host after ∧ after.channel.phase = .idle := by
  have lower := legal.ok.lower
  have bound := legal.ok.bound
  have nonnegative := legal.ok.nonnegative
  have delivers := (streamTransfer_delivers_iff (driveOn drive stray) nonnegative lower bound).mpr legal.ok.within
  rcases readOnDrive_stores drive legal.ok (by omega) idle legal.apart with ⟨enough, outcome, reads, stores⟩
  refine ⟨outcome.2.2, ⟨⟨enough, ?_⟩, ?_, stores.outside⟩, stores.idle⟩
  · rw [reads enough (Nat.le_refl enough), delivers.result, delivers.pos, ← wrapInt_of_small (by omega) bound,
      ← stores.result, ← stores.moves]
  · rw [delivers.bytes]
    refine slice_congr fun index inside => ?_
    rw [Int.zero_add, intToWord, BitVec.ofInt_natCast, stores.inside index inside]
    rfl

end StreamRequest

/-- The disk that the streams are modelled on is what the driver makes of a
drive: in a run of reads from an idle drive, each one comes to the result, the
bytes and the position of the model, and stores nowhere else. -/
theorem diskStreamRead_refines (drive : Ata.Drive) (stray : Int -> Byte) {host : Host} (idle : host.channel.phase = .idle)
    {requests : List StreamRequest} (legal : forall request, request ∈ requests -> request.Legal drive) :
    Run.InTurn (StreamRequest.Agrees drive stray) host requests := by
  refine Run.inTurn_of_each (fun host => host.channel.phase = .idle) ?_ host requests idle legal
  exact fun _ _ idle legal => legal.agrees stray idle

/-- A read of 600 bytes in two sectors. -/
theorem diskStreamRead_refines_600 :
    Run.InTurn (StreamRequest.Agrees numberedDrive fun _ => 0#8) resetHost
      [⟨512, 600, 0x10000#32, fun depth => 0x8000#32 + BitVec.ofNat 32 (1024 * depth)⟩] := by
  refine diskStreamRead_refines numberedDrive (fun _ => 0#8) rfl fun request member => ?_
  cases List.mem_singleton.mp member
  refine ⟨⟨by decide, by decide, by decide, by decide, by decide⟩, ?_⟩
  rintro place (below : place < 600) ⟨depth, (shallow : depth ≤ 1), inside⟩
  have small : (BitVec.ofNat 32 place).toNat < 600 := by
    rw [BitVec.toNat_ofNat]
    omega
  unfold InSector at inside
  generalize BitVec.ofNat 32 place = offset at small inside
  cases Nat.le_one_iff_eq_zero_or_eq_one.mp shallow with
  | inl last =>
      cases last
      bv_omega
  | inr first =>
      cases first
      bv_omega

end Disk
end LarvaOS
