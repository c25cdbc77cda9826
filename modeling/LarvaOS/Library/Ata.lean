import Mathlib.Algebra.Group.Nat.Defs
import Mathlib.Data.List.Basic

namespace LarvaOS
namespace Library

/-!
# An ATA drive behind its ports

A drive is read by programmed input and output, with sector numbers of 28 bits.
A command names the first sector and a number of sectors, where 0 stands for
256.  The drive makes the sectors ready one after the other.  While it fetches
one it is busy, for some number of looks at its status; then it requests that
the 256 words of the sector are read from its data port.  It fails on a sector
that it does not have.

Registers may be written while the drive is neither busy nor requests data, and
a word may be read only while it requests data.  An access that the drive does
not document has no result here, so a program that comes to a result has kept
to the protocol.
-/

namespace Ata

def wordsPerSector : Nat := 256

/-- The request for data in the status. -/
def dataRequest : BitVec 8 := 0x08#8

/-- The sectors of a drive, word by word, and how often it shows itself busy
before each of the blocks that it makes ready. -/
structure Drive where
  capacity : Nat
  words : Nat -> Nat -> BitVec 16
  delay : Nat -> Nat
  busyStatus : BitVec 8
  busy_requestsNothing : busyStatus &&& dataRequest = 0#8

/-- What the drive is doing: `left` sectors are to be read from `sector` on. -/
inductive Phase where
  | idle
  | busy (looks sector left : Nat)
  | ready (word sector left : Nat)
  | failed
deriving DecidableEq

/-- Registers may be written. -/
def Phase.accepts : Phase -> Bool
  | .idle => true
  | .busy _ _ _ => false
  | .ready _ _ _ => false
  | .failed => true

/-- The registers of the drive, with the number of blocks made ready so far. -/
structure Channel where
  count : BitVec 8
  low : BitVec 8
  mid : BitVec 8
  high : BitVec 8
  device : BitVec 8
  phase : Phase
  blocks : Nat

namespace Channel

variable (channel : Channel)

/-- The sector that the registers name. -/
def sector : Nat :=
  channel.device.toNat % 16 * 2 ^ 24 + channel.high.toNat * 2 ^ 16 + channel.mid.toNat * 2 ^ 8 + channel.low.toNat

/-- The number of sectors that the registers name. -/
def sectors : Nat := if channel.count = 0#8 then 256 else channel.count.toNat

/-- The registers name a sector of the first drive by its number. -/
def Addressed : Prop := channel.device &&& 0x50#8 = 0x40#8

instance : Decidable channel.Addressed := inferInstanceAs (Decidable (_ = _))

end Channel

/-- The drive goes for the next sector. -/
def fetch (drive : Drive) (channel : Channel) (sector left : Nat) : Channel :=
  if sector < drive.capacity then
    { channel with phase := .busy (drive.delay channel.blocks) sector left, blocks := channel.blocks + 1 }
  else { channel with phase := .failed }

/-- A byte is sent to a port. -/
def outb (drive : Drive) (channel : Channel) (port : BitVec 16) (value : BitVec 8) : Option Channel :=
  if channel.phase.accepts then
    if port = 0x1F2#16 then some { channel with count := value }
    else if port = 0x1F3#16 then some { channel with low := value }
    else if port = 0x1F4#16 then some { channel with mid := value }
    else if port = 0x1F5#16 then some { channel with high := value }
    else if port = 0x1F6#16 then some { channel with device := value }
    else if port = 0x1F7#16 ∧ value = 0x20#8 ∧ channel.Addressed then
      some (fetch drive channel channel.sector channel.sectors)
    else none
  else none

/-- The status, and what a look at it changes. -/
def look (drive : Drive) (channel : Channel) : BitVec 8 × Channel :=
  match channel.phase with
  | .idle => (0x50#8, channel)
  | .busy 0 sector left => (0x58#8, { channel with phase := .ready 0 sector left })
  | .busy (looks + 1) sector left => (drive.busyStatus, { channel with phase := .busy looks sector left })
  | .ready _ _ _ => (0x58#8, channel)
  | .failed => (0x51#8, channel)

/-- A byte is read from a port. -/
def inb (drive : Drive) (channel : Channel) (port : BitVec 16) : Option (BitVec 8 × Channel) :=
  if port = 0x1F7#16 then some (look drive channel) else none

/-- The drive after a word was read. -/
def consume (drive : Drive) (channel : Channel) (word sector left : Nat) : Channel :=
  if word + 1 < wordsPerSector then { channel with phase := .ready (word + 1) sector left }
  else if left ≤ 1 then { channel with phase := .idle }
  else fetch drive channel (sector + 1) (left - 1)

/-- A word is read from a port. -/
def inw (drive : Drive) (channel : Channel) (port : BitVec 16) : Option (BitVec 16 × Channel) :=
  if port = 0x1F0#16 then
    match channel.phase with
    | .idle => none
    | .busy _ _ _ => none
    | .ready word sector left => some (drive.words sector word, consume drive channel word sector left)
    | .failed => none
  else none

section Looks

variable (drive : Drive) {channel : Channel}

theorem look_idle (idle : channel.phase = .idle) : look drive channel = (0x50#8, channel) := by
  rw [look, idle]

theorem look_failed (failed : channel.phase = .failed) : look drive channel = (0x51#8, channel) := by
  rw [look, failed]

theorem look_fetched {sector left : Nat} (busy : channel.phase = .busy 0 sector left) :
    look drive channel = (0x58#8, { channel with phase := .ready 0 sector left }) := by
  rw [look, busy]

theorem look_busy {looks sector left : Nat} (busy : channel.phase = .busy (looks + 1) sector left) :
    look drive channel = (drive.busyStatus, { channel with phase := .busy looks sector left }) := by
  rw [look, busy]

theorem inw_ready {word sector left : Nat} (ready : channel.phase = .ready word sector left) :
    inw drive channel 0x1F0#16 = some (drive.words sector word, consume drive channel word sector left) := by
  rw [inw, if_pos rfl, ready]

end Looks

/-- The drive after the last word of a sector. -/
def finish (drive : Drive) (channel : Channel) (sector left : Nat) : Channel :=
  consume drive { channel with phase := .ready 255 sector left } 255 sector left

section Sectors

variable (drive : Drive) (channel : Channel)

/-- The next word of a sector. -/
theorem consume_within {word : Nat} (within : word + 1 < wordsPerSector) (sector left : Nat) :
    consume drive channel word sector left = { channel with phase := .ready (word + 1) sector left } := if_pos within

theorem fetch_inside {sector : Nat} (inside : sector < drive.capacity) (left : Nat) :
    fetch drive channel sector left =
      { channel with phase := .busy (drive.delay channel.blocks) sector left, blocks := channel.blocks + 1 } :=
  if_pos inside

theorem fetch_outside {sector : Nat} (outside : ¬ sector < drive.capacity) (left : Nat) :
    fetch drive channel sector left = { channel with phase := .failed } := if_neg outside

/-- What the drive did before makes no difference. -/
theorem finish_phase (phase : Phase) (sector left : Nat) :
    finish drive { channel with phase := phase } sector left = finish drive channel sector left := rfl

theorem finish_ready {channel : Channel} {sector left : Nat} (ready : channel.phase = .ready 255 sector left) :
    consume drive channel 255 sector left = finish drive channel sector left := by
  rw [finish, ← ready]

theorem finish_last (sector : Nat) : (finish drive channel sector 1).phase = .idle := rfl

theorem finish_next (sector left : Nat) :
    finish drive channel sector (left + 2) =
      fetch drive { channel with phase := .ready 255 sector (left + 2) } (sector + 1) (left + 1) := rfl

theorem finish_inside {sector : Nat} (inside : sector + 1 < drive.capacity) (left : Nat) :
    (finish drive channel sector (left + 2)).phase = .busy (drive.delay channel.blocks) (sector + 1) (left + 1) ∧
      (finish drive channel sector (left + 2)).blocks = channel.blocks + 1 := by
  rw [finish_next, fetch_inside drive _ inside]
  exact ⟨rfl, rfl⟩

theorem finish_outside {sector : Nat} (outside : ¬ sector + 1 < drive.capacity) (left : Nat) :
    (finish drive channel sector (left + 2)).phase = .failed := by
  rw [finish_next, fetch_outside drive _ outside]

end Sectors

/-- There is a number of looks after which the drive has been ready with each of
its next blocks. -/
theorem exists_patience (drive : Drive) (first count : Nat) :
    exists polls, forall block, block < count -> drive.delay (first + block) < polls := by
  induction count with
  | zero => exact ⟨0, fun block below => absurd below (Nat.not_lt_zero block)⟩
  | succ count inductionHypothesis =>
      cases inductionHypothesis with
      | intro polls patient =>
          refine ⟨max polls (drive.delay (first + count) + 1), fun block below => ?_⟩
          cases Nat.lt_succ_iff_lt_or_eq.mp below with
          | inl earlier => exact Nat.lt_of_lt_of_le (patient block earlier) (Nat.le_max_left _ _)
          | inr last => exact last ▸ Nat.lt_of_lt_of_le (Nat.lt_succ_self _) (Nat.le_max_right _ _)

end Ata

end Library
end LarvaOS
