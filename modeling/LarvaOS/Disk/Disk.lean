import LarvaOS.Library.Ata
import LarvaOS.Library.Buffer
import LarvaOS.Library.Run
import LarvaOS.Machine.Word

namespace LarvaOS
namespace Disk

open Library

/-!
# The disk driver

The driver sends the command to the ports of the drive and looks at the status
until data is requested, once for each sector.  It does not look at the error
bit, so a drive that fails is waited for without an end.  The number of sectors
goes into a register of 8 bits, while the loop of the driver counts all of them.

`polls` bounds the looks for one sector, and an answer within any bound is an
answer of the driver.
-/

/-- What the driver works on. -/
structure Host where
  channel : Ata.Channel
  memory : Word -> Byte

/-- A store through a pointer to `uint16_t`. -/
def storeHalf (memory : Word -> Byte) (ptr : Word) (value : BitVec 16) : Word -> Byte :=
  Function.update (Function.update memory ptr (value.extractLsb' 0 8)) (ptr + 1#32) (value.extractLsb' 8 8)

/-- The wait until the sector buffer is ready. -/
def awaitData (drive : Ata.Drive) : Nat -> Ata.Channel -> Option Ata.Channel
  | 0, _ => none
  | polls + 1, channel =>
      (Ata.inb drive channel 0x1F7#16).bind fun answer =>
        if answer.1 &&& 0x08#8 = 0#8 then awaitData drive polls answer.2 else some answer.2

/-- The copy of a number of words. -/
def readWords (drive : Ata.Drive) : Nat -> Host -> Word -> Option (Host × Word)
  | 0, host, ptr => some (host, ptr)
  | words + 1, host, ptr =>
      (Ata.inw drive host.channel 0x1F0#16).bind fun answer =>
        readWords drive words ⟨answer.2, storeHalf host.memory ptr answer.1⟩ (ptr + 2#32)

/-- The loop of the driver over the sectors. -/
def readSectorLoop (drive : Ata.Drive) (polls : Nat) : Nat -> Host -> Word -> Option Host
  | 0, host, _ => some host
  | sectors + 1, host, ptr =>
      (awaitData drive polls host.channel).bind fun channel =>
        (readWords drive 256 { host with channel := channel } ptr).bind fun copied =>
          readSectorLoop drive polls sectors copied.1 copied.2

/-- The command that the driver sends. -/
def sendCommand (drive : Ata.Drive) (lba sectors : Int) (channel : Ata.Channel) : Option Ata.Channel := do
  let channel <- Ata.outb drive channel 0x1F6#16 (BitVec.ofInt 8 (lba >>> (24 : Nat)) ||| 0b11100000#8)
  let channel <- Ata.outb drive channel 0x1F2#16 (BitVec.ofInt 8 sectors)
  let channel <- Ata.outb drive channel 0x1F3#16 (BitVec.ofInt 8 lba)
  let channel <- Ata.outb drive channel 0x1F4#16 (BitVec.ofInt 8 (lba >>> (8 : Nat)))
  let channel <- Ata.outb drive channel 0x1F5#16 (BitVec.ofInt 8 (lba >>> (16 : Nat)))
  Ata.outb drive channel 0x1F7#16 0x20#8

/-- `disk_read_sectors`. -/
def diskReadSectors (drive : Ata.Drive) (polls : Nat) (lba sectors : Int) (buf : Word) (host : Host) :
    Option (Int × Host) :=
  (sendCommand drive lba sectors host.channel).bind fun channel =>
    (readSectorLoop drive polls sectors.toNat { host with channel := channel } buf).map fun host => (0, host)

/-- A byte of a sector, the low byte of a word first. -/
def sectorByte (drive : Ata.Drive) (sector index : Nat) : Byte :=
  (drive.words sector (index / 2)).extractLsb' (8 * (index % 2)) 8

/-- The bytes from the beginning of a sector on. -/
def byteFrom (drive : Ata.Drive) (sector place : Nat) : Byte := sectorByte drive (sector + place / 512) (place % 512)

/-! ## The command -/

/-- The bits that select the first drive and numbered sectors. -/
theorem device_addressed : forall device : Byte, device.toNat < 16 -> (device ||| 0b11100000#8) &&& 0x50#8 = 0x40#8 := by
  decide

theorem device_low : forall device : Byte, device.toNat < 16 -> (device ||| 0b11100000#8).toNat % 16 = device.toNat := by
  decide

theorem ofInt_shift (value shift : Nat) :
    (BitVec.ofInt 8 ((value : Int) >>> shift)).toNat = value / 2 ^ shift % 256 := by
  rw [Int.shiftRight_eq_div_pow, BitVec.toNat_ofInt]
  norm_cast

theorem ofInt_cast (value : Nat) : (BitVec.ofInt 8 (value : Int)).toNat = value % 256 := by
  rw [BitVec.ofInt_natCast, BitVec.toNat_ofNat]

/-- The registers that the driver writes before its command. -/
def addressed (lba sectors : Int) (channel : Ata.Channel) : Ata.Channel :=
  { channel with
    device := BitVec.ofInt 8 (lba >>> (24 : Nat)) ||| 0b11100000#8
    count := BitVec.ofInt 8 sectors
    low := BitVec.ofInt 8 lba
    mid := BitVec.ofInt 8 (lba >>> (8 : Nat))
    high := BitVec.ofInt 8 (lba >>> (16 : Nat)) }

section Addressed

variable {lba : Nat} (short : lba < 2 ^ 28) (sectors : Int) (channel : Ata.Channel)
include short

theorem device_small : (BitVec.ofInt 8 ((lba : Int) >>> (24 : Nat))).toNat < 16 := by
  rw [ofInt_shift]
  omega

theorem addressed_addressed : (addressed lba sectors channel).Addressed := device_addressed _ (device_small short)

theorem addressed_sector : (addressed lba sectors channel).sector = lba := by
  have device := device_low _ (device_small short)
  unfold Ata.Channel.sector addressed
  rw [device, ofInt_shift, ofInt_shift, ofInt_shift, ofInt_cast]
  omega

end Addressed

/-- The count that the register holds is the one asked for, modulo 256. -/
theorem addressed_sectors (lba : Int) {sectors : Nat} (positive : 1 ≤ sectors) (channel : Ata.Channel) :
    (addressed lba sectors channel).sectors = (sectors - 1) % 256 + 1 := by
  have count : (addressed lba sectors channel).count.toNat = sectors % 256 := ofInt_cast sectors
  unfold Ata.Channel.sectors
  by_cases whole : sectors % 256 = 0
  · have zero : (addressed lba sectors channel).count = 0#8 := BitVec.eq_of_toNat_eq (count.trans whole)
    rw [if_pos zero]
    omega
  · rw [if_neg fun zero => whole (count.symm.trans (congrArg BitVec.toNat zero)), count]
    omega

theorem sendCommand_eq (drive : Ata.Drive) {channel : Ata.Channel} (idle : channel.phase = .idle) (lba sectors : Int) :
    sendCommand drive lba sectors channel = Ata.outb drive (addressed lba sectors channel) 0x1F7#16 0x20#8 := by
  simp [sendCommand, Ata.outb, Ata.Phase.accepts, idle, addressed]

/-- The command makes the drive go for the sectors that were asked for. -/
theorem sendCommand_fetches (drive : Ata.Drive) {channel : Ata.Channel} (idle : channel.phase = .idle) {lba : Nat}
    (short : lba < 2 ^ 28) {sectors : Nat} (positive : 1 ≤ sectors) :
    sendCommand drive lba sectors channel =
      some (Ata.fetch drive (addressed lba sectors channel) lba ((sectors - 1) % 256 + 1)) := by
  have accepts : (addressed lba sectors channel).phase.accepts = true := by
    change channel.phase.accepts = true
    rw [idle]
    rfl
  rw [sendCommand_eq drive idle, Ata.outb, if_pos accepts, if_neg (by decide), if_neg (by decide), if_neg (by decide),
    if_neg (by decide), if_neg (by decide), if_pos ⟨rfl, rfl, addressed_addressed short sectors channel⟩,
    addressed_sector short, addressed_sectors lba positive]

/-! ## The transfer -/

/-- A half word is stored as its two bytes. -/
theorem storeHalf_fills (memory : Word -> Byte) (ptr : Word) (value : BitVec 16) :
    Fills memory (storeHalf memory ptr value) ptr 2 fun place => value.extractLsb' (8 * place) 8 := by
  have apart : ptr + 1#32 ≠ ptr := by
    intro same
    have zero := congrArg (fun address => (address - ptr).toNat) same
    simp only [offset_toNat ptr (show 1 < 2 ^ 32 by decide), BitVec.sub_self] at zero
    exact absurd zero (by decide)
  constructor
  · intro place below
    match place, below with
    | 0, _ =>
        rw [BitVec.add_zero, storeHalf, Function.update_of_ne apart.symm, Function.update_self]
    | 1, _ => exact Function.update_self _ _ _
  · intro address beyond
    have first : address ≠ ptr := by
      rintro rfl
      rw [BitVec.sub_self] at beyond
      exact absurd beyond (by decide)
    have second : address ≠ ptr + 1#32 := by
      rintro rfl
      rw [offset_toNat ptr (show 1 < 2 ^ 32 by decide)] at beyond
      exact absurd beyond (by decide)
    rw [storeHalf, Function.update_of_ne second, Function.update_of_ne first]

section Waiting

variable {drive : Ata.Drive} {channel : Ata.Channel}

theorem awaitData_succ (polls : Nat) :
    awaitData drive (polls + 1) channel =
      if (Ata.look drive channel).1 &&& 0x08#8 = 0#8 then awaitData drive polls (Ata.look drive channel).2
      else some (Ata.look drive channel).2 := rfl

/-- The drive is waited for until its sector is ready. -/
theorem awaitData_busy {looks polls sector left : Nat} (busy : channel.phase = .busy looks sector left)
    (patient : looks < polls) :
    awaitData drive polls channel = some { channel with phase := .ready 0 sector left } := by
  induction polls generalizing looks channel with
  | zero => exact absurd patient (Nat.not_lt_zero _)
  | succ polls inductionHypothesis =>
      rw [awaitData_succ]
      cases looks with
      | zero =>
          rw [Ata.look_fetched drive busy]
          exact if_neg (show ¬ 0x58#8 &&& 0x08#8 = 0#8 by decide)
      | succ looks =>
          rw [Ata.look_busy drive busy]
          exact (if_pos drive.busy_requestsNothing).trans (inductionHypothesis rfl (Nat.lt_of_succ_lt_succ patient))

/-- Too few looks do not see the sector. -/
theorem awaitData_short {looks polls sector left : Nat} (busy : channel.phase = .busy looks sector left)
    (short : polls ≤ looks) : awaitData drive polls channel = none := by
  induction polls generalizing looks channel with
  | zero => rfl
  | succ polls inductionHypothesis =>
      cases looks with
      | zero => exact absurd short (Nat.not_succ_le_zero polls)
      | succ looks =>
          rw [awaitData_succ, Ata.look_busy drive busy]
          exact (if_pos drive.busy_requestsNothing).trans (inductionHypothesis rfl (Nat.le_of_succ_le_succ short))

/-- A drive whose status does not change and requests nothing is waited for
without an end. -/
theorem awaitData_never {status : Byte} (still : Ata.look drive channel = (status, channel))
    (nothing : status &&& 0x08#8 = 0#8) (polls : Nat) : awaitData drive polls channel = none := by
  induction polls with
  | zero => rfl
  | succ polls inductionHypothesis =>
      rw [awaitData_succ, still]
      exact (if_pos nothing).trans inductionHypothesis

theorem awaitData_idle (idle : channel.phase = .idle) (polls : Nat) : awaitData drive polls channel = none :=
  awaitData_never (Ata.look_idle drive idle) (by decide) polls

theorem awaitData_failed (failed : channel.phase = .failed) (polls : Nat) : awaitData drive polls channel = none :=
  awaitData_never (Ata.look_failed drive failed) (by decide) polls

end Waiting

/-- One word is copied. -/
theorem readWords_succ (drive : Ata.Drive) {word sector left : Nat} {host : Host}
    (ready : host.channel.phase = .ready word sector left) (words : Nat) (ptr : Word) :
    readWords drive (words + 1) host ptr =
      readWords drive words
        ⟨Ata.consume drive host.channel word sector left, storeHalf host.memory ptr (drive.words sector word)⟩
        (ptr + 2#32) := by
  rw [readWords, Ata.inw_ready drive ready]
  rfl

/-- The word that is stored holds two bytes of the sector. -/
theorem storeHalf_sector (drive : Ata.Drive) (sector word : Nat) (memory : Word -> Byte) (ptr : Word) :
    Fills memory (storeHalf memory ptr (drive.words sector word)) ptr 2 fun place =>
      sectorByte drive sector (2 * word + place) := by
  refine (storeHalf_fills memory ptr _).congr fun place below => ?_
  have half : (2 * word + place) / 2 = word := by omega
  have rest : (2 * word + place) % 2 = place := by omega
  rw [sectorByte, half, rest]

/-- The rest of a sector is copied, and the drive goes on behind it. -/
theorem readWords_rest (drive : Ata.Drive) (words : Nat) {word sector left : Nat} (whole : word + (words + 1) = 256)
    (host : Host) (ready : host.channel.phase = .ready word sector left) (ptr : Word) :
    exists memory,
      readWords drive (words + 1) host ptr =
          some (⟨Ata.finish drive host.channel sector left, memory⟩,
            ptr + BitVec.ofNat 32 (2 * (words + 1))) ∧
        Fills host.memory memory ptr (2 * (words + 1)) fun place => sectorByte drive sector (2 * word + place) := by
  induction words generalizing word host ptr with
  | zero =>
      obtain rfl : word = 255 := by omega
      refine ⟨storeHalf host.memory ptr (drive.words sector 255), ?_, storeHalf_sector drive sector 255 _ ptr⟩
      rw [readWords_succ drive ready, Ata.finish_ready drive ready]
      rfl
  | succ words inductionHypothesis =>
      have within : word + 1 < Ata.wordsPerSector := by
        unfold Ata.wordsPerSector
        omega
      have first := storeHalf_sector drive sector word host.memory ptr
      rw [readWords_succ drive ready, Ata.consume_within drive host.channel within]
      rcases inductionHypothesis (show word + 1 + (words + 1) = 256 by omega)
        ⟨{ host.channel with phase := .ready (word + 1) sector left }, storeHalf host.memory ptr _⟩ rfl
        (ptr + 2#32) with ⟨memory, copied, rest⟩
      have size : 2 * (words + 1 + 1) = 2 + 2 * (words + 1) := by omega
      refine ⟨memory, ?_, ?_⟩
      · rw [copied, Ata.finish_phase, size, BitVec.ofNat_add, ← BitVec.add_assoc]
      · rw [size]
        refine (first.append rest (by omega)).congr fun place below => ?_
        by_cases early : place < 2
        · rw [if_pos early]
        · rw [if_neg early]
          congr 1
          omega

/-- A whole sector is copied. -/
theorem readWords_sector (drive : Ata.Drive) {sector left : Nat} (host : Host)
    (ready : host.channel.phase = .ready 0 sector left) (ptr : Word) :
    exists memory,
      readWords drive 256 host ptr =
          some (⟨Ata.finish drive host.channel sector left, memory⟩,
            ptr + 512#32) ∧
        Fills host.memory memory ptr 512 (byteFrom drive sector) := by
  rcases readWords_rest drive 255 rfl host ready ptr with ⟨memory, copied, fills⟩
  refine ⟨memory, copied, fills.congr fun place below => ?_⟩
  have here : place / 512 = 0 := Nat.div_eq_of_lt below
  rw [byteFrom, here, Nat.mod_eq_of_lt below, Nat.mul_zero, Nat.zero_add, Nat.add_zero]

/-- One sector is waited for and copied. -/
theorem readSectorLoop_succ (drive : Ata.Drive) {polls looks sector left : Nat} {host : Host}
    (busy : host.channel.phase = .busy looks sector left) (patient : looks < polls) (ptr : Word) :
    exists memory,
      Fills host.memory memory ptr 512 (byteFrom drive sector) ∧
        forall sectors, readSectorLoop drive polls (sectors + 1) host ptr =
          readSectorLoop drive polls sectors
            ⟨Ata.finish drive host.channel sector left, memory⟩
            (ptr + 512#32) := by
  rcases readWords_sector drive ⟨{ host.channel with phase := .ready 0 sector left }, host.memory⟩ rfl ptr with
    ⟨memory, copied, fills⟩
  refine ⟨memory, fills, fun sectors => ?_⟩
  rw [readSectorLoop, awaitData_busy busy patient, Option.bind_some, copied, Option.bind_some, Ata.finish_phase]

/-- While nothing comes from the drive the loop ends only where it began. -/
theorem readSectorLoop_still {drive : Ata.Drive} {polls sectors : Nat} {host after : Host}
    (waits : awaitData drive polls host.channel = none) {ptr : Word}
    (reads : readSectorLoop drive polls sectors host ptr = some after) : sectors = 0 ∧ host = after := by
  cases sectors with
  | zero => exact ⟨rfl, Option.some.inj reads⟩
  | succ sectors =>
      rw [readSectorLoop, waits, Option.bind_none] at reads
      cases reads

/-- The loop does not leave the drive idle before it has copied a sector that
the drive was told of. -/
theorem readSectorLoop_continues {drive : Ata.Drive} {polls looks sector left sectors : Nat} {host after : Host}
    (busy : host.channel.phase = .busy looks sector left) {ptr : Word}
    (reads : readSectorLoop drive polls sectors host ptr = some after) (idle : after.channel.phase = .idle) :
    exists rest memory, sectors = rest + 1 ∧
      readSectorLoop drive polls rest
        ⟨Ata.finish drive host.channel sector left, memory⟩
        (ptr + 512#32) = some after := by
  cases sectors with
  | zero =>
      cases Option.some.inj reads
      rw [busy] at idle
      cases idle
  | succ rest =>
      cases Nat.lt_or_ge looks polls with
      | inl patient =>
          rcases readSectorLoop_succ drive busy patient ptr with ⟨memory, _, continues⟩
          exact ⟨rest, memory, rfl, (continues rest).symm.trans reads⟩
      | inr short => exact absurd (readSectorLoop_still (awaitData_short busy short) reads).1 (Nat.succ_ne_zero rest)

/-- As many sectors as the drive was told of are read, and it is idle again. -/
theorem readSectorLoop_reads (drive : Ata.Drive) {polls looks sector left : Nat} (host : Host)
    (busy : host.channel.phase = .busy looks sector (left + 1)) (patient : looks < polls)
    (patientLater : forall block, block < left -> drive.delay (host.channel.blocks + block) < polls)
    (inside : sector + left < drive.capacity) (small : left < 256) (ptr : Word) :
    exists after, readSectorLoop drive polls (left + 1) host ptr = some after ∧ after.channel.phase = .idle ∧
      Fills host.memory after.memory ptr (512 * (left + 1)) (byteFrom drive sector) := by
  induction left generalizing looks sector host ptr with
  | zero =>
      rcases readSectorLoop_succ drive busy patient ptr with ⟨memory, fills, continues⟩
      exact ⟨_, continues 0, Ata.finish_last drive host.channel sector, fills⟩
  | succ left inductionHypothesis =>
      rcases readSectorLoop_succ drive busy patient ptr with ⟨memory, first, continues⟩
      have next := Ata.finish_inside drive host.channel (show sector + 1 < drive.capacity by omega) left
      rcases inductionHypothesis ⟨Ata.finish drive host.channel sector (left + 2), memory⟩ next.1
        (patientLater 0 (Nat.succ_pos left))
        (fun block below => by
          have later := patientLater (block + 1) (Nat.succ_lt_succ below)
          rwa [Nat.add_comm block 1, ← Nat.add_assoc, ← next.2] at later)
        (by omega) (by omega) (ptr + 512#32) with ⟨after, reads, idle, rest⟩
      refine ⟨after, (continues (left + 1)).trans reads, idle, ?_⟩
      have size : 512 * (left + 1 + 1) = 512 + 512 * (left + 1) := by omega
      rw [size]
      refine (first.append rest (by omega)).congr fun place below => ?_
      by_cases early : place < 512
      · rw [if_pos early]
      · have sectors : sector + place / 512 = sector + 1 + (place - 512) / 512 := by omega
        have index : place % 512 = (place - 512) % 512 := by omega
        rw [if_neg early, byteFrom, byteFrom, sectors, index]

/-- The drive is idle again only after as many sectors as it was told of. -/
theorem readSectorLoop_idle {drive : Ata.Drive} {polls looks sector left sectors : Nat} {host after : Host}
    (busy : host.channel.phase = .busy looks sector (left + 1)) (inside : sector < drive.capacity) {ptr : Word}
    (reads : readSectorLoop drive polls sectors host ptr = some after) (idle : after.channel.phase = .idle) :
    sectors = left + 1 ∧ sector + left < drive.capacity := by
  induction left generalizing looks sector sectors host ptr with
  | zero =>
      rcases readSectorLoop_continues busy reads idle with ⟨rest, memory, rfl, continues⟩
      have last := readSectorLoop_still (awaitData_idle (Ata.finish_last drive host.channel sector) polls) continues
      exact ⟨congrArg (· + 1) last.1, inside⟩
  | succ left inductionHypothesis =>
      rcases readSectorLoop_continues busy reads idle with ⟨rest, memory, rfl, continues⟩
      by_cases next : sector + 1 < drive.capacity
      · have told := inductionHypothesis (Ata.finish_inside drive host.channel next left).1 next continues
        omega
      · have failed := Ata.finish_outside drive host.channel next left
        have stays := (readSectorLoop_still (awaitData_failed failed polls) continues).2
        rw [← stays] at idle
        exact absurd (failed.symm.trans idle) Ata.Phase.noConfusion

/-! ## Requests -/

/-- A call of the driver. -/
structure Request where
  lba : Int
  sectors : Int
  buf : Word

/-- The first sector has a number that the registers hold, and at least one is
asked for. -/
def Request.Numbered (request : Request) : Prop := 0 ≤ request.lba ∧ request.lba < 2 ^ 28 ∧ 1 ≤ request.sectors

/-- The register holds the number of sectors, and the drive has all of them. -/
def Request.Fits (drive : Ata.Drive) (request : Request) : Prop :=
  request.sectors ≤ 256 ∧ request.lba + request.sectors ≤ drive.capacity

/-- The driver returns 0, with the sectors in the buffer and nowhere else, and
leaves the drive idle. -/
structure Request.Reads (drive : Ata.Drive) (host : Host) (request : Request) (after : Host) : Prop where
  returns : exists polls, diskReadSectors drive polls request.lba request.sectors request.buf host = some (0, after)
  idle : after.channel.phase = .idle
  fills : Fills host.memory after.memory request.buf (512 * request.sectors.toNat) (byteFrom drive request.lba.toNat)

theorem diskReadSectors_eq (drive : Ata.Drive) (polls : Nat) {host : Host} (idle : host.channel.phase = .idle)
    {lba : Nat} (short : lba < 2 ^ 28) {sectors : Nat} (positive : 1 ≤ sectors) (buf : Word) :
    diskReadSectors drive polls lba sectors buf host =
      (readSectorLoop drive polls sectors
        ⟨Ata.fetch drive (addressed lba sectors host.channel) lba ((sectors - 1) % 256 + 1), host.memory⟩ buf).map
          fun after => (0, after) := by
  rw [diskReadSectors, sendCommand_fetches drive idle short positive, Option.bind_some, Int.toNat_natCast]

/-- A request that fits is served. -/
theorem Request.Fits.reads {drive : Ata.Drive} {request : Request} (fits : request.Fits drive)
    (numbered : request.Numbered) {host : Host} (idle : host.channel.phase = .idle) :
    exists after, request.Reads drive host after := by
  rcases request with ⟨lba, sectors, buf⟩
  obtain ⟨nonnegative, short, positive⟩ : 0 ≤ lba ∧ lba < 2 ^ 28 ∧ 1 ≤ sectors := numbered
  obtain ⟨counted, inside⟩ : sectors ≤ 256 ∧ lba + sectors ≤ drive.capacity := fits
  lift lba to Nat using nonnegative
  obtain ⟨left, rfl⟩ : exists left : Nat, sectors = ((left + 1 : Nat) : Int) := ⟨(sectors - 1).toNat, by omega⟩
  have told : (left + 1 - 1) % 256 + 1 = left + 1 := by omega
  have first : lba < drive.capacity := by omega
  cases Ata.exists_patience drive host.channel.blocks (left + 1) with
  | intro polls patient =>
      let fetched := Ata.fetch drive (addressed lba ((left + 1 : Nat) : Int) host.channel) lba (left + 1)
      have goes : fetched =
          { addressed lba ((left + 1 : Nat) : Int) host.channel with
            phase := .busy (drive.delay host.channel.blocks) lba (left + 1)
            blocks := host.channel.blocks + 1 } := Ata.fetch_inside drive _ first _
      rcases readSectorLoop_reads drive ⟨fetched, host.memory⟩ (congrArg Ata.Channel.phase goes)
        (patient 0 (Nat.succ_pos left))
        (fun block below => by
          have later := patient (block + 1) (Nat.succ_lt_succ below)
          rw [congrArg Ata.Channel.blocks goes]
          rwa [Nat.add_comm block 1, ← Nat.add_assoc] at later)
        (show lba + left < drive.capacity by omega) (show left < 256 by omega) buf with ⟨after, reads, rests, fills⟩
      refine ⟨after, ⟨polls, ?_⟩, rests, fills⟩
      rw [diskReadSectors_eq drive polls idle (by omega) (Nat.succ_pos left), told]
      exact congrArg (Option.map fun after => ((0 : Int), after)) reads

/-- Only a request that fits is served. -/
theorem Request.Reads.fits {drive : Ata.Drive} {request : Request} {host after : Host}
    (reads : request.Reads drive host after) (numbered : request.Numbered) (idle : host.channel.phase = .idle) :
    request.Fits drive := by
  rcases request with ⟨lba, sectors, buf⟩
  obtain ⟨nonnegative, short, positive⟩ : 0 ≤ lba ∧ lba < 2 ^ 28 ∧ 1 ≤ sectors := numbered
  lift lba to Nat using nonnegative
  lift sectors to Nat using Int.le_trans Int.one_nonneg positive
  cases reads.returns with
  | intro polls returns =>
      change (sectors : Int) ≤ 256 ∧ (lba : Int) + sectors ≤ drive.capacity
      rw [diskReadSectors_eq drive polls idle (by omega) (Int.ofNat_le.mp positive)] at returns
      rcases Option.map_eq_some_iff.mp returns with ⟨_, copied, same⟩
      obtain rfl := congrArg Prod.snd same
      by_cases first : lba < drive.capacity
      · rw [Ata.fetch_inside drive _ first] at copied
        have told := readSectorLoop_idle rfl first copied reads.idle
        constructor <;> omega
      · rw [Ata.fetch_outside drive _ first] at copied
        have still := (readSectorLoop_still (awaitData_failed rfl polls) copied).1
        omega

/-! ## Patience -/

section Patience

variable {drive : Ata.Drive} {polls more : Nat} (patient : polls ≤ more)
include patient

/-- Who waits longer sees the same. -/
theorem awaitData_mono {channel after : Ata.Channel} (seen : awaitData drive polls channel = some after) :
    awaitData drive more channel = some after := by
  induction polls generalizing more channel with
  | zero => cases seen
  | succ polls inductionHypothesis =>
      cases more with
      | zero => exact absurd patient (Nat.not_succ_le_zero polls)
      | succ more =>
          rw [awaitData_succ] at seen ⊢
          split_ifs at seen ⊢
          · exact inductionHypothesis (Nat.le_of_succ_le_succ patient) seen
          · exact seen

theorem readSectorLoop_mono {sectors : Nat} {host after : Host} {ptr : Word}
    (reads : readSectorLoop drive polls sectors host ptr = some after) :
    readSectorLoop drive more sectors host ptr = some after := by
  induction sectors generalizing host ptr with
  | zero => exact reads
  | succ sectors inductionHypothesis =>
      rcases Option.bind_eq_some_iff.mp reads with ⟨channel, seen, rest⟩
      rcases Option.bind_eq_some_iff.mp rest with ⟨copied, copies, later⟩
      rw [readSectorLoop, awaitData_mono patient seen, Option.bind_some, copies, Option.bind_some]
      exact inductionHypothesis later

theorem diskReadSectors_mono {lba sectors : Int} {buf : Word} {host : Host} {answer : Int × Host}
    (reads : diskReadSectors drive polls lba sectors buf host = some answer) :
    diskReadSectors drive more lba sectors buf host = some answer := by
  rcases Option.bind_eq_some_iff.mp reads with ⟨channel, sent, rest⟩
  rcases Option.map_eq_some_iff.mp rest with ⟨after, loop, same⟩
  rw [diskReadSectors, sent, Option.bind_some, readSectorLoop_mono patient loop, Option.map_some, same]

end Patience

/-- On a drive that is idle, all requests of a run are served, with every sector
in its place and every access as the drive documents it, exactly when each of
them fits. -/
theorem diskReadSectors_serves_iff (drive : Ata.Drive) {host : Host} (idle : host.channel.phase = .idle)
    {requests : List Request} (numbered : forall request, request ∈ requests -> request.Numbered) :
    Run.InTurn (Request.Reads drive) host requests ↔ forall request, request ∈ requests -> request.Fits drive := by
  refine Run.inTurn_iff (fun host => host.channel.phase = .idle) ?_ ?_ host requests idle numbered
  · exact fun _ _ idle numbered fits => Request.Fits.reads fits numbered idle
  · exact fun _ _ _ idle numbered reads => ⟨reads.fits numbered idle, reads.idle⟩

/-- A drive whose words hold the number of their sector. -/
abbrev numberedDrive : Ata.Drive := ⟨8, fun sector _ => BitVec.ofNat 16 sector, fun block => block % 3, 0x80#8, by decide⟩

/-- The drive after a reset, and a blank memory. -/
abbrev resetHost : Host := ⟨⟨1#8, 1#8, 0#8, 0#8, 0xA0#8, .idle, 0⟩, fun _ => 0#8⟩

/-- Two sectors, and the last one of the drive. -/
theorem diskReadSectors_serves_two :
    Run.InTurn (Request.Reads numberedDrive) resetHost [⟨2, 2, 0x1000#32⟩, ⟨7, 1, 0x2000#32⟩] :=
  (diskReadSectors_serves_iff numberedDrive rfl (by
    unfold Request.Numbered
    decide)).mpr (by
    unfold Request.Fits
    decide)

/-! ## The boot loader -/

/-- `rep insw` from the data port: a word is stored at EDI as long as ECX is not zero. -/
def repInsw (drive : Ata.Drive) (host : Host) (ecx edi : Word) : Option (Host × Word) :=
  if ecx = 0#32 then some (host, edi)
  else
    (Ata.inw drive host.channel 0x1F0#16).bind fun answer =>
      repInsw drive ⟨answer.2, storeHalf host.memory edi answer.1⟩ (ecx - 1#32) (edi + 2#32)
termination_by ecx.toNat
decreasing_by bv_omega

/-- The label `.next_sector`.  ECX is saved while `.try_again` waits and `rep insw` copies.
Then `loop` counts it down first, and compares it with zero after that. -/
def nextSector (drive : Ata.Drive) (polls : Nat) (host : Host) (ecx edi : Word) : Option Host :=
  (awaitData drive polls host.channel).bind fun channel =>
    (repInsw drive { host with channel := channel } 256#32 edi).bind fun copied =>
      if ecx - 1#32 = 0#32 then some copied.1 else nextSector drive polls copied.1 (ecx - 1#32) copied.2
termination_by (ecx - 1#32).toNat
decreasing_by bv_omega

/-- `ATA_read_sector`, with its parameters in registers. -/
def ataReadSector (drive : Ata.Drive) (polls : Nat) (eax ecx edi : Word) (host : Host) : Option Host := do
  let channel <- Ata.outb drive host.channel 0x1F6#16 ((eax >>> 24 ||| 0xE0#32).setWidth 8)
  let channel <- Ata.outb drive channel 0x1F2#16 (ecx.setWidth 8)
  let channel <- Ata.outb drive channel 0x1F3#16 (eax.setWidth 8)
  let channel <- Ata.outb drive channel 0x1F4#16 ((eax >>> 8).setWidth 8)
  let channel <- Ata.outb drive channel 0x1F5#16 ((eax >>> 16).setWidth 8)
  let channel <- Ata.outb drive channel 0x1F7#16 0x20#8
  nextSector drive polls { host with channel := channel } ecx edi

/-- How often `loop` ends a pass, for the counter before. -/
def loopPasses (ecx : Word) : Nat := if ecx = 0#32 then 2 ^ 32 else ecx.toNat

/-- The words that ECX counts down are those that the driver counts up. -/
theorem repInsw_eq_readWords (drive : Ata.Drive) (words : Nat) {ecx : Word} (counted : ecx.toNat = words) (host : Host)
    (edi : Word) : repInsw drive host ecx edi = readWords drive words host edi := by
  induction words generalizing ecx host edi with
  | zero =>
      have zero : ecx = 0#32 := BitVec.eq_of_toNat_eq counted
      rw [repInsw, if_pos zero, readWords]
  | succ words inductionHypothesis =>
      have more : ecx ≠ 0#32 := by
        rintro rfl
        cases counted
      have rest : (ecx - 1#32).toNat = words := by bv_omega
      rw [repInsw, if_neg more, readWords]
      exact congrArg (Option.bind _) (funext fun answer => inductionHypothesis rest _ _)

theorem repInsw_sector (drive : Ata.Drive) (host : Host) (edi : Word) :
    repInsw drive host 256#32 edi = readWords drive 256 host edi :=
  repInsw_eq_readWords drive 256 (show (256#32 : Word).toNat = 256 by decide) host edi

/-- One pass for each sector. -/
theorem nextSector_eq_readSectorLoop (drive : Ata.Drive) (polls sectors : Nat) {ecx : Word}
    (counted : (ecx - 1#32).toNat = sectors) (host : Host) (edi : Word) :
    nextSector drive polls host ecx edi = readSectorLoop drive polls (sectors + 1) host edi := by
  induction sectors generalizing ecx host edi with
  | zero =>
      have last : ecx - 1#32 = 0#32 := BitVec.eq_of_toNat_eq counted
      rw [nextSector, readSectorLoop]
      simp only [last, if_true, repInsw_sector, readSectorLoop]
  | succ sectors inductionHypothesis =>
      have more : ecx - 1#32 ≠ 0#32 := by
        intro last
        rw [last] at counted
        cases counted
      have rest : (ecx - 1#32 - 1#32).toNat = sectors := by bv_omega
      rw [nextSector, readSectorLoop]
      simp only [more, if_false, repInsw_sector, inductionHypothesis rest]

theorem nextSector_passes (drive : Ata.Drive) (polls : Nat) (host : Host) (ecx edi : Word) :
    nextSector drive polls host ecx edi = readSectorLoop drive polls (loopPasses ecx) host edi := by
  have passes : (ecx - 1#32).toNat + 1 = loopPasses ecx := by
    unfold loopPasses
    split_ifs
    · bv_omega
    · bv_omega
  rw [nextSector_eq_readSectorLoop drive polls _ rfl, passes]

/-- A byte of an `int` does not show whether the shift was an arithmetic one. -/
theorem ofInt_toInt_shift (word : Word) {shift : Nat} (short : shift ≤ 24) :
    BitVec.ofInt 8 (word.toInt >>> shift) = (word >>> shift).setWidth 8 := by
  rw [← BitVec.toInt_sshiftRight]
  change (word.sshiftRight shift).signExtend 8 = _
  rw [BitVec.signExtend_eq_setWidth_of_le _ (by decide)]
  apply BitVec.eq_of_getElem_eq
  intro index below
  have inside : shift + index < 32 := by omega
  simp only [BitVec.getElem_setWidth, BitVec.getLsbD_sshiftRight, BitVec.getLsbD_ushiftRight, inside, if_true,
    show ¬ 32 ≤ index by omega, decide_false, Bool.not_false, Bool.true_and]

theorem ofInt_toInt_low (word : Word) : BitVec.ofInt 8 word.toInt = word.setWidth 8 := by
  change word.signExtend 8 = _
  rw [BitVec.signExtend_eq_setWidth_of_le _ (by decide)]

/-- The boot loader and the driver of the kernel do the same, for every sector
number and every count that is a positive `int`, on any drive in any state. -/
theorem ataReadSector_eq_diskReadSectors (drive : Ata.Drive) (polls : Nat) (eax ecx edi : Word) (host : Host)
    (positive : 0 < ecx.toInt) :
    ataReadSector drive polls eax ecx edi host =
      (diskReadSectors drive polls eax.toInt ecx.toInt edi host).map Prod.snd := by
  have passes : loopPasses ecx = ecx.toInt.toNat := by
    have counts : ecx ≠ 0#32 := by
      rintro rfl
      exact absurd positive (by decide)
    have unsigned : ecx.toInt = ecx.toNat := by
      rw [BitVec.toInt_eq_toNat_cond] at positive ⊢
      split_ifs at positive ⊢
      · rfl
      · omega
    rw [loopPasses, if_neg counts, unsigned, Int.toNat_natCast]
  have device : (eax >>> 24 ||| 0xE0#32).setWidth 8 = BitVec.ofInt 8 (eax.toInt >>> (24 : Nat)) ||| 0b11100000#8 := by
    rw [ofInt_toInt_shift eax (Nat.le_refl 24), BitVec.setWidth_or]
    rfl
  simp only [ataReadSector, nextSector_passes]
  rw [diskReadSectors, sendCommand, passes, device,
    ofInt_toInt_shift eax (show 8 ≤ 24 by decide), ofInt_toInt_shift eax (show 16 ≤ 24 by decide), ofInt_toInt_low,
    ofInt_toInt_low]
  simp only [Option.bind_eq_bind, Option.bind_assoc, Option.map_bind, Option.map_map, Function.comp_def, Option.map_id']

/-- The read of the kernel from the first hundred sectors behind the boot sector. -/
theorem ataReadSector_eq_kernel :
    ataReadSector numberedDrive 8 1#32 0x64#32 0x100000#32 resetHost =
      (diskReadSectors numberedDrive 8 (1#32 : Word).toInt (0x64#32 : Word).toInt 0x100000#32 resetHost).map Prod.snd :=
  ataReadSector_eq_diskReadSectors numberedDrive 8 1#32 0x64#32 0x100000#32 resetHost (by decide)

end Disk
end LarvaOS
