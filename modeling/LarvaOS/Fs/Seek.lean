import LarvaOS.Fs.OpenRoot
import LarvaOS.Library.Run

namespace LarvaOS
namespace Fs

open Library

/-!
# Seeking

`fat16_seek` compares the offset with the length of the file before it knows
what the offset is relative to.  The offset of a relative seek is hence taken
for a position, and a negative offset for one near 2^32.
-/

/-! ## One seek -/

/-- The position is that of a byte of the file, or 0. -/
def BelowEnd (kernel : Kernel) (fd : Int) : Prop := filePosition kernel fd < fileLength kernel fd ∨ filePosition kernel fd = 0

/-- A call of `fseek` on an open file.  The offset is an `int`. -/
structure Seek where
  offset : Int
  whence : SeekMode
  lower : -2 ^ 31 ≤ offset
  upper : offset < 2 ^ 31

namespace Seek

/-- Where the call should lead from a position.  Seeking from the end has no
target, since it is not supported. -/
def target (call : Seek) (position : Nat) : Option Int :=
  match call.whence with
  | .set => some call.offset
  | .cur => some (position + call.offset)
  | .other => none

/-- The offset as `fat16_seek` compares it. -/
def raw (call : Seek) : Nat := (intToWord call.offset).toNat

/-- The kernel after the call. -/
def step (fd : Int) (kernel : Kernel) (call : Seek) : Kernel := (fseek kernel fd call.offset call.whence).2

end Seek

/-- The target is a byte of the file. -/
def InFile (kernel : Kernel) (fd : Int) (target : Int) : Prop := 0 ≤ target ∧ target < fileLength kernel fd

/-- What a call of `fseek` promises. -/
structure HonorsSeek (fd : Int) (kernel : Kernel) (call : Seek) : Prop where
  moves : forall target, call.target (filePosition kernel fd) = some target -> InFile kernel fd target ->
    (fseek kernel fd call.offset call.whence).1 = 0 ∧ filePosition (call.step fd kernel) fd = target
  refuses : (forall target, call.target (filePosition kernel fd) = some target -> ¬ InFile kernel fd target) ->
    (fseek kernel fd call.offset call.whence).1 < 0 ∧ filePosition (call.step fd kernel) fd = filePosition kernel fd
  below : BelowEnd (call.step fd kernel) fd

/-- The offset is below the length of the file exactly when the target is a byte
of the file. -/
def ChecksTarget (fd : Int) (kernel : Kernel) (call : Seek) : Prop :=
  forall target, call.target (filePosition kernel fd) = some target ->
    (call.raw < fileLength kernel fd ↔ InFile kernel fd target)

section Steps

variable {fd : Int} {kernel : Kernel}

theorem fseek_eq (opened : OpenFile kernel fd) (call : Seek) :
    fseek kernel fd call.offset call.whence = fat16Seek kernel (fileData kernel fd) (intToWord call.offset) call.whence := by
  unfold fseek
  rw [if_neg opened.descriptor]
  rfl

/-- An offset behind the end is refused. -/
theorem fseek_beyond (opened : OpenFile kernel fd) {call : Seek} (beyond : fileLength kernel fd ≤ call.raw) :
    fseek kernel fd call.offset call.whence = (- EIO, kernel) := by
  rw [fseek_eq opened]
  unfold fat16Seek
  dsimp only
  have refused : (intToWord call.offset).toNat ≥ (slotOf kernel (fileData kernel fd)).filesize := beyond
  rw [if_neg (not_not_intro opened.file), if_pos refused]

/-- The descriptor of the file after it was moved. -/
def movedTo (kernel : Kernel) (fd : Int) (pos : Word) : Kernel :=
  storeFatFileDescriptor kernel (fileData kernel fd) ⟨(kernel.fatFileDescriptors (fileData kernel fd)).item, pos⟩

theorem movedTo_record (kernel : Kernel) (fd : Int) (pos : Word) :
    (movedTo kernel fd pos).fatFileDescriptors (fileData kernel fd) =
      ⟨(kernel.fatFileDescriptors (fileData kernel fd)).item, pos⟩ := Function.update_self _ _ _

theorem movedTo_item (kernel : Kernel) (fd : Int) (pos : Word) :
    ((movedTo kernel fd pos).fatFileDescriptors (fileData kernel fd)).item =
      (kernel.fatFileDescriptors (fileData kernel fd)).item := by
  rw [movedTo_record]

theorem movedTo_position (kernel : Kernel) (fd : Int) (pos : Word) :
    filePosition (movedTo kernel fd pos) fd = pos.toNat :=
  congrArg (fun record => record.pos.toNat) (movedTo_record kernel fd pos)

theorem movedTo_slotOf (kernel : Kernel) (fd : Int) (pos : Word) :
    slotOf (movedTo kernel fd pos) (fileData kernel fd) = slotOf kernel (fileData kernel fd) := by
  unfold slotOf
  rw [movedTo_item]
  rfl

theorem movedTo_length (kernel : Kernel) (fd : Int) (pos : Word) :
    fileLength (movedTo kernel fd pos) fd = fileLength kernel fd := by
  unfold fileLength
  exact congrArg Slot.filesize (movedTo_slotOf kernel fd pos)

theorem movedTo_openFile (opened : OpenFile kernel fd) (pos : Word) : OpenFile (movedTo kernel fd pos) fd := by
  refine ⟨opened.descriptor, ?_⟩
  change (kernel.fatItems ((movedTo kernel fd pos).fatFileDescriptors (fileData kernel fd)).item).type = _
  rw [movedTo_item]
  exact opened.file

/-- An offset before the end is taken as it is, or added. -/
theorem fseek_within (opened : OpenFile kernel fd) {call : Seek} (within : call.raw < fileLength kernel fd) :
    fseek kernel fd call.offset call.whence =
      match call.whence with
      | .set => (0, movedTo kernel fd (intToWord call.offset))
      | .cur => (0, movedTo kernel fd ((kernel.fatFileDescriptors (fileData kernel fd)).pos + intToWord call.offset))
      | .other => (- EINVAL, kernel) := by
  have passes : ¬ (intToWord call.offset).toNat ≥ (slotOf kernel (fileData kernel fd)).filesize := Nat.not_le.mpr within
  rw [fseek_eq opened]
  unfold fat16Seek
  dsimp only
  rw [if_neg (not_not_intro opened.file), if_neg passes]
  rfl

/-- The sum of two words, as a number. -/
theorem add_intToWord (pos : Word) {offset : Int} (lower : 0 ≤ pos.toNat + offset)
    (upper : pos.toNat + offset < 2 ^ 32) : ((pos + intToWord offset).toNat : Int) = pos.toNat + offset := by
  rw [intToWord, BitVec.toNat_add, BitVec.toNat_ofInt]
  omega

theorem intToWord_toNat {offset : Int} (lower : 0 ≤ offset) (upper : offset < 2 ^ 32) :
    ((intToWord offset).toNat : Int) = offset := by
  rw [intToWord, BitVec.toNat_ofInt]
  omega

/-- An open file stays open, and keeps its length. -/
theorem step_openFile (opened : OpenFile kernel fd) (call : Seek) :
    OpenFile (call.step fd kernel) fd ∧ fileLength (call.step fd kernel) fd = fileLength kernel fd := by
  unfold Seek.step
  rcases Nat.lt_or_ge call.raw (fileLength kernel fd) with within | beyond
  · rw [fseek_within opened within]
    cases call.whence with
    | set => exact ⟨movedTo_openFile opened _, movedTo_length kernel fd _⟩
    | cur => exact ⟨movedTo_openFile opened _, movedTo_length kernel fd _⟩
    | other => exact ⟨opened, rfl⟩
  · rw [fseek_beyond opened beyond]
    exact ⟨opened, rfl⟩

/-- A seek to a byte of the file, whose offset is accepted, leads there. -/
theorem step_moves (opened : OpenFile kernel fd) {call : Seek} {target : Int}
    (leads : call.target (filePosition kernel fd) = some target) (inFile : InFile kernel fd target)
    (within : call.raw < fileLength kernel fd) :
    (fseek kernel fd call.offset call.whence).1 = 0 ∧ filePosition (call.step fd kernel) fd = target := by
  have length := fileLength_lt kernel fd
  have bounds := inFile
  unfold InFile at bounds
  unfold Seek.step
  rw [fseek_within opened within]
  unfold Seek.target at leads
  cases whence : call.whence with
  | set =>
      rw [whence] at leads
      obtain rfl := Option.some.inj leads
      exact ⟨rfl, (congrArg Int.ofNat (movedTo_position kernel fd _)).trans (intToWord_toNat bounds.1 (by omega))⟩
  | cur =>
      rw [whence] at leads
      obtain rfl := Option.some.inj leads
      unfold filePosition at bounds
      exact ⟨rfl, (congrArg Int.ofNat (movedTo_position kernel fd _)).trans (add_intToWord _ bounds.1 (by omega))⟩
  | other =>
      rw [whence] at leads
      exact absurd leads (Option.some_ne_none target).symm

/-- A seek that has a target, and whose offset is accepted, succeeds. -/
theorem step_succeeds (opened : OpenFile kernel fd) {call : Seek} {target : Int}
    (leads : call.target (filePosition kernel fd) = some target) (within : call.raw < fileLength kernel fd) :
    (fseek kernel fd call.offset call.whence).1 = 0 := by
  rw [fseek_within opened within]
  unfold Seek.target at leads
  cases whence : call.whence with
  | set => rfl
  | cur => rfl
  | other =>
      rw [whence] at leads
      exact absurd leads (Option.some_ne_none target).symm

/-- A seek whose offset is not accepted, or that has no target, fails. -/
theorem step_fails (opened : OpenFile kernel fd) {call : Seek}
    (refused : fileLength kernel fd ≤ call.raw ∨ call.target (filePosition kernel fd) = none) :
    (fseek kernel fd call.offset call.whence).1 < 0 ∧ call.step fd kernel = kernel := by
  unfold Seek.step
  rcases Nat.lt_or_ge call.raw (fileLength kernel fd) with within | beyond
  · rw [fseek_within opened within]
    rcases refused with beyond | untargeted
    · exact absurd within (Nat.not_lt.mpr beyond)
    · unfold Seek.target at untargeted
      cases whence : call.whence with
      | set =>
          rw [whence] at untargeted
          exact absurd untargeted (Option.some_ne_none _)
      | cur =>
          rw [whence] at untargeted
          exact absurd untargeted (Option.some_ne_none _)
      | other => exact ⟨(by decide : - EINVAL < 0), rfl⟩
  · rw [fseek_beyond opened beyond]
    exact ⟨(by decide : - EIO < 0), rfl⟩

/-- One call keeps its promise exactly when it compares what it should. -/
theorem honorsSeek_iff (opened : OpenFile kernel fd) (below : BelowEnd kernel fd) (call : Seek) :
    HonorsSeek fd kernel call ↔ ChecksTarget fd kernel call := by
  constructor
  · intro honors target leads
    constructor
    · intro within
      by_contra outside
      have fails := honors.refuses fun other leadsOther => by
        obtain rfl := Option.some.inj (leads.symm.trans leadsOther)
        exact outside
      have succeeds := step_succeeds opened leads within
      omega
    · intro inFile
      by_contra beyond
      have succeeds := (honors.moves target leads inFile).1
      rw [fseek_beyond opened (Nat.not_lt.mp beyond)] at succeeds
      exact absurd succeeds (by decide : - EIO ≠ 0)
  · intro checks
    have kept := step_openFile opened call
    cases leads : call.target (filePosition kernel fd) with
    | none =>
        rcases step_fails opened (Or.inr leads) with ⟨fails, same⟩
        refine ⟨fun other leadsOther => ?_, fun _ => ⟨fails, by rw [same]⟩, by rwa [same]⟩
        rw [leads] at leadsOther
        exact absurd leadsOther (Option.some_ne_none other).symm
    | some target =>
        have checked := checks target leads
        rcases Nat.lt_or_ge call.raw (fileLength kernel fd) with within | beyond
        · have inFile := checked.mp within
          have moves := step_moves opened leads inFile within
          refine ⟨fun other leadsOther _ => ?_, fun outside => absurd inFile (outside target leads), Or.inl ?_⟩
          · obtain rfl := Option.some.inj (leads.symm.trans leadsOther)
            exact moves
          · have reached := moves.2
            have bound := inFile.2
            rw [kept.2]
            omega
        · have outside : ¬ InFile kernel fd target := fun inFile =>
            absurd (checked.mpr inFile) (Nat.not_lt.mpr beyond)
          rcases step_fails opened (Or.inl beyond) with ⟨fails, same⟩
          refine ⟨fun other leadsOther inFile => ?_, fun _ => ⟨fails, by rw [same]⟩, by rwa [same]⟩
          obtain rfl := Option.some.inj (leads.symm.trans leadsOther)
          exact absurd inFile outside

/-- What a sequence of good calls keeps. -/
structure KeptOpen (fd : Int) (kernel : Kernel) : Prop where
  openFile : OpenFile kernel fd
  below : BelowEnd kernel fd

theorem honorsSeek_iff_kept (kernel : Kernel) (call : Seek) (kept : KeptOpen fd kernel) :
    HonorsSeek fd kernel call ↔ ChecksTarget fd kernel call := honorsSeek_iff kept.openFile kept.below call

theorem kept_of_checks (kernel : Kernel) (call : Seek) (kept : KeptOpen fd kernel) (checks : ChecksTarget fd kernel call) :
    KeptOpen fd (call.step fd kernel) :=
  ⟨(step_openFile kept.openFile call).1, ((honorsSeek_iff_kept kernel call kept).mpr checks).below⟩

end Steps

/-- Every call of a sequence of seeks on an open file keeps its promise if and
only if each compares its offset with the length as it should its target. -/
theorem everySeek_honored_iff {fd : Int} {kernel : Kernel} (opened : OpenFile kernel fd) (below : BelowEnd kernel fd)
    (calls : List Seek) :
    Run.Everywhere (Seek.step fd) (HonorsSeek fd) kernel calls ↔
      Run.Everywhere (Seek.step fd) (ChecksTarget fd) kernel calls :=
  Run.everywhere_iff kept_of_checks honorsSeek_iff_kept kernel calls ⟨opened, below⟩

/-- Sixty bytes ahead. -/
def sixtyAhead : Seek := ⟨60, .cur, by decide, by decide⟩

/-- Two seeks in a file of a hundred bytes. -/
theorem everySeek_honored_iff_hundred : exists booted opened, boot fileVolume (fun _ => 0#8) = some booted ∧
    fopen booted [forwardSlash, 0x41#8] [0x72#8] = some (1, opened) ∧
    (Run.Everywhere (Seek.step 1) (HonorsSeek 1) opened [sixtyAhead, sixtyAhead] ↔
      Run.Everywhere (Seek.step 1) (ChecksTarget 1) opened [sixtyAhead, sixtyAhead]) := by
  rcases fileVolume_opens with ⟨booted, opened, boots, opens, _, _, just⟩
  exact ⟨booted, opened, boots, opens, everySeek_honored_iff just.openFile (Or.inr just.position) _⟩

/-- The second of them leads to place 120 and succeeds. -/
theorem everySeek_honored_fails_hundred : exists booted opened, boot fileVolume (fun _ => 0#8) = some booted ∧
    fopen booted [forwardSlash, 0x41#8] [0x72#8] = some (1, opened) ∧
    ¬ Run.Everywhere (Seek.step 1) (HonorsSeek 1) opened [sixtyAhead, sixtyAhead] := by
  rcases fileVolume_opens with ⟨booted, opened, boots, opens, _, _, just⟩
  refine ⟨booted, opened, boots, opens, ?_⟩
  rintro ⟨first, second, _⟩
  have length := fileVolume_length just
  have leads : sixtyAhead.target (filePosition opened 1) = some 60 := by
    rw [just.position]
    rfl
  have moved := (first.moves 60 leads (by unfold InFile; omega)).2
  rcases step_openFile just.openFile sixtyAhead with ⟨openFile, sameLength⟩
  have leadsOut : sixtyAhead.target (filePosition (sixtyAhead.step 1 opened) 1) = some 120 := by
    change some ((filePosition (sixtyAhead.step 1 opened) 1 : Int) + 60) = some 120
    rw [moved]
    rfl
  have accepted : sixtyAhead.raw < fileLength (sixtyAhead.step 1 opened) 1 := by
    rw [sameLength, length]
    decide
  have succeeds := step_succeeds openFile leadsOut accepted
  have fails := (second.refuses fun target leads => by
    obtain rfl := Option.some.inj (leadsOut.symm.trans leads)
    unfold InFile
    omega).1
  omega

end Fs
end LarvaOS
