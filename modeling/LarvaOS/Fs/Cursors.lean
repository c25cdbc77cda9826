import LarvaOS.Fs.OpenTable
import LarvaOS.Fs.ReadBuffer
import LarvaOS.Fs.Stat

namespace LarvaOS
namespace Fs

open Disk Library Memory

/-!
# Open files as cursors

To its client, an open file is a cursor: the directory entry that was found for it, and
a position.  A seek moves the cursor of its own number, a read takes the bytes of the
file from the position on, and nothing else has to do with it, however the calls on
other files lie in between.

The kernel keeps a cursor in five records at the ends of pointers.  What the client
stores is not to lie on the copy of an entry.
-/

/-! ## Cursors -/

structure Cursor where
  entry : Slot
  position : Nat

/-- The result of a seek, and the cursor behind it. -/
def Cursor.seek (cursor : Cursor) (offset : Int) (whence : SeekMode) : Int × Cursor :=
  let raw := (intToWord offset).toNat
  if cursor.entry.filesize ≤ raw then (- EIO, cursor)
  else
    match whence with
    | .set => (0, { cursor with position := raw })
    | .cur => (0, { cursor with position := (cursor.position + raw) % 2 ^ 32 })
    | .other => (- EINVAL, cursor)

/-- The number is that of an open regular file with this cursor. -/
structure HasCursor (kernel : Kernel) (fd : Int) (cursor : Cursor) : Prop where
  opened : OpenFile kernel fd
  entry : SameSlot (fileSlot kernel fd) cursor.entry
  position : filePosition kernel fd = cursor.position

/-- The cursor of a file that was just opened. -/
def newCursor (kernel : Kernel) (fd : Int) : Option Cursor :=
  if (kernel.fatItems (kernel.fatFileDescriptors (fileData kernel fd)).item).type = FAT_ITEM_TYPE_FILE then
    some ⟨fileSlot kernel fd, 0⟩
  else none

/-- A session, with the cursors that its client expects. -/
structure FileSession where
  session : Session
  cursors : Int -> Option Cursor

namespace FileSession

variable (files : FileSession)

/-- The cursors after a call has returned. -/
def book (returned : Int × Kernel) : FileCall -> Int -> Option Cursor
  | .fopen _ _ =>
      if 0 < returned.1 then Function.update files.cursors returned.1 (newCursor returned.2 returned.1) else files.cursors
  | .fseek fd offset whence =>
      Function.update files.cursors fd ((files.cursors fd).map fun cursor => (cursor.seek offset whence).2)
  | .fclose fd => if returned.1 = 0 then Function.update files.cursors fd none else files.cursors
  | _ => files.cursors

/-- A call that returns. -/
def after (returned : Int × Kernel) (call : FileCall) : FileSession :=
  ⟨⟨returned.2, files.session.book returned.1 call⟩, files.book returned call⟩

/-- The open regular files are where their cursors are. -/
structure Follows : Prop where
  has : forall fd cursor, files.cursors fd = some cursor -> HasCursor files.session.kernel fd cursor
  all : forall fd, OpenFile files.session.kernel fd -> files.cursors fd ≠ none

end FileSession

/-- One step of a session, which is over when a call does not return. -/
def fileStep (state : Option FileSession) (call : FileCall) : Option FileSession :=
  state.bind fun files => (call.run files.session.kernel).map fun returned => files.after returned call

/-- The addresses at which a call may store for its client. -/
def FileCall.StoresTo (kernel : Kernel) : FileCall -> Word -> Prop
  | .fread _ ptr size nmemb, address => (address - ptr).toNat < size.toNat * nmemb.toNat
  | .fstat fd stat, address => .store address ∈ fat16StatAccesses kernel (fileData kernel fd) stat
  | _, _ => False

/-- The call stores nothing to the copy of an entry that belongs to an open file. -/
def KeepsEntries (session : Session) (call : FileCall) : Prop :=
  forall file, file ∈ session.files -> OpenFile session.kernel file.1 -> forall place, place < slotSize ->
    ¬ call.StoresTo session.kernel (entryPointer session.kernel file.1 + BitVec.ofNat 32 place)

/-- What a call of a session is to meet. -/
structure CallLegal (files : FileSession) (call : FileCall) : Prop where
  apart : OpensApart files.session.kernel call
  accepted : OpensAccepted files.session.kernel call
  entries : KeepsEntries files.session call

/-- What a call on a file with a cursor returns, and what it stores.  The bytes of a file
are those that the disk has had from the beginning. -/
def Answers (booted : Kernel) (files : FileSession) (returned : Int × Kernel) : FileCall -> Prop
  | .fopen _ _ => 0 < returned.1 -> files.cursors returned.1 = none
  | .fread fd ptr size nmemb =>
      let kernel := files.session.kernel
      forall cursor, files.cursors fd = some cursor -> 0 < size.toNat -> 0 < nmemb.toNat ->
        Nonempty (StoredFile (driveOf booted) (bootSector booted) cursor.entry) ->
          cursor.position + size.toNat * nmemb.toNat ≤ cursor.entry.filesize ->
            FindsItems (bootSector booted) kernel fd size nmemb ->
              returned.1 = nmemb.toNat ∧
                Fills kernel.bytes returned.2.bytes ptr (size.toNat * nmemb.toNat) fun place =>
                  storedByte (driveOf booted) (bootSector booted) cursor.entry.low16BitsFirstCluster
                    (cursor.position + place)
  | .fseek fd offset whence =>
      forall cursor, files.cursors fd = some cursor -> returned.1 = (cursor.seek offset whence).1
  | .fstat fd _ => files.cursors fd ≠ none -> returned.1 = 0
  | .fclose fd => files.cursors fd ≠ none -> returned.1 = 0

/-- A session without any open file. -/
def FileSession.start (kernel : Kernel) : FileSession := ⟨⟨kernel, []⟩, fun _ => none⟩

/-- Every call of a session meets what it is to meet. -/
def CallsLegal (kernel : Kernel) (calls : List FileCall) : Prop :=
  Run.Everywhere fileStep (fun state call => forall files, state = some files -> CallLegal files call)
    (some (FileSession.start kernel)) calls

/-- The cursors are followed from the first call to the last. -/
def FollowsThroughout (kernel : Kernel) (calls : List FileCall) : Prop :=
  Run.Throughout fileStep (fun state => forall files, state = some files -> files.Follows)
    (some (FileSession.start kernel)) calls

/-- Every call of a session that returns answers as the cursors have it. -/
def AnswersEverywhere (booted kernel : Kernel) (calls : List FileCall) : Prop :=
  Run.Everywhere fileStep (fun state call => forall files returned, state = some files ->
    call.run files.session.kernel = some returned -> Answers booted files returned call)
      (some (FileSession.start kernel)) calls

/-! ## What keeps a cursor -/

/-- Nothing has happened to an open file. -/
structure SameOpen (kernel after : Kernel) (fd : Int) : Prop where
  descriptor : getFileDescriptor after fd = getFileDescriptor kernel fd
  data : fileData after fd = fileData kernel fd
  record : after.fatFileDescriptors (fileData kernel fd) = kernel.fatFileDescriptors (fileData kernel fd)
  item : after.fatItems (kernel.fatFileDescriptors (fileData kernel fd)).item =
    kernel.fatItems (kernel.fatFileDescriptors (fileData kernel fd)).item
  bytes : OpenFile kernel fd -> forall place, place < slotSize ->
    after.bytes (entryPointer kernel fd + BitVec.ofNat 32 place) =
      kernel.bytes (entryPointer kernel fd + BitVec.ofNat 32 place)

namespace SameOpen

variable {kernel after : Kernel} {fd : Int} (same : SameOpen kernel after fd)
include same

theorem openFile_iff : OpenFile after fd ↔ OpenFile kernel fd := by
  have type : (after.fatItems (after.fatFileDescriptors (fileData after fd)).item).type =
      (kernel.fatItems (kernel.fatFileDescriptors (fileData kernel fd)).item).type := by
    rw [same.data, same.record, same.item]
  constructor
  · exact fun opened => ⟨same.descriptor ▸ opened.descriptor, type.symm.trans opened.file⟩
  · exact fun opened => ⟨same.descriptor.symm ▸ opened.descriptor, type.trans opened.file⟩

theorem filePosition : Fs.filePosition after fd = Fs.filePosition kernel fd := by
  unfold Fs.filePosition
  rw [same.data, same.record]

theorem entryPointer : Fs.entryPointer after fd = Fs.entryPointer kernel fd := by
  unfold Fs.entryPointer
  rw [same.data, same.record, same.item]

theorem fileSlot (opened : OpenFile kernel fd) : SameSlot (Fs.fileSlot after fd) (Fs.fileSlot kernel fd) := by
  intro place below
  have pointer := same.entryPointer
  unfold Fs.entryPointer at pointer
  unfold Fs.fileSlot slotOf slotAt
  rw [pointer]
  exact same.bytes opened place below

theorem hasCursor {cursor : Cursor} (has : HasCursor kernel fd cursor) : HasCursor after fd cursor where
  opened := same.openFile_iff.mpr has.opened
  entry := (same.fileSlot has.opened).trans has.entry
  position := same.filePosition.trans has.position

end SameOpen

end Fs
end LarvaOS
