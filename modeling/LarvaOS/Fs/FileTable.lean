import LarvaOS.Fs.File
import LarvaOS.Memory.Ownership

namespace LarvaOS
namespace Fs

open Library Memory

/-!
# The table of file descriptors

`make_new_file_descriptor` takes the lowest empty slot and numbers the record by
the slot, one higher.  The number of the last slot is one that
`get_file_descriptor` refuses.
-/

/-! ## Slots -/

section Storing

variable (kernel : Kernel) (slot : Int) (pointer : Word)

@[simp] theorem storeSlot_heap : (storeSlot kernel slot pointer).heap = kernel.heap := by
  unfold storeSlot
  split <;> rfl

@[simp] theorem storeSlot_toStore : (storeSlot kernel slot pointer).toStore = kernel.toStore := by
  unfold storeSlot
  split <;> rfl

theorem storeSlot_fileDescriptors {index : Nat} (inside : index < MAX_FILE_DESCRIPTORS) :
    (storeSlot kernel index pointer).fileDescriptors = Function.update kernel.fileDescriptors index pointer := by
  unfold storeSlot
  rw [if_pos (by omega)]
  rfl

end Storing

/-- The lowest empty slot. -/
theorem freeSlot_some {fileDescriptors : Nat -> Word} {slot : Nat} (free : freeSlot fileDescriptors = some slot) :
    slot < MAX_FILE_DESCRIPTORS ∧ fileDescriptors slot = 0#32 := by
  have member := List.mem_of_find?_eq_some free
  have empty := List.find?_some free
  exact ⟨List.mem_range.mp member, of_decide_eq_true empty⟩

/-- The first empty slot behind slots that are taken. -/
theorem freeSlot_first {fileDescriptors : Nat -> Word} {slot : Nat} (inside : slot < MAX_FILE_DESCRIPTORS)
    (taken : forall other, other < slot -> fileDescriptors other ≠ 0#32) (empty : fileDescriptors slot = 0#32) :
    freeSlot fileDescriptors = some slot := by
  refine List.find?_range_eq_some.mpr ⟨decide_eq_true empty, List.mem_range.mpr inside, fun other earlier => ?_⟩
  rw [Bool.not_eq_true', decide_eq_false_iff_not]
  exact taken other earlier

theorem freeSlot_empty : freeSlot (fun _ => 0#32) = some 0 :=
  freeSlot_first (by decide) (fun _ impossible => absurd impossible (Nat.not_lt_zero _)) rfl

/-! ## A new descriptor -/

/-- The kernel with a new descriptor in a slot. -/
def bindDescriptor (kernel : Kernel) (slot : Nat) (fd p : Word) : Kernel :=
  storeSlot (storeFileDescriptor kernel fd ⟨slot + 1, p⟩) slot fd

section Binding

variable (kernel : Kernel) (slot : Nat) (fd p : Word)

@[simp] theorem bindDescriptor_heap : (bindDescriptor kernel slot fd p).heap = kernel.heap := by
  unfold bindDescriptor
  rw [storeSlot_heap]
  rfl

theorem bindDescriptor_toStore :
    (bindDescriptor kernel slot fd p).toStore =
      { kernel.toStore with
        fileDescriptorRecords := Function.update kernel.fileDescriptorRecords fd ⟨slot + 1, p⟩ } := by
  unfold bindDescriptor
  rw [storeSlot_toStore]
  rfl

theorem bindDescriptor_record : (bindDescriptor kernel slot fd p).fileDescriptorRecords fd = ⟨slot + 1, p⟩ := by
  have store := congrArg Store.fileDescriptorRecords (bindDescriptor_toStore kernel slot fd p)
  rw [store]
  exact Function.update_self _ _ _

theorem bindDescriptor_fileDescriptors (inside : slot < MAX_FILE_DESCRIPTORS) :
    (bindDescriptor kernel slot fd p).fileDescriptors = Function.update kernel.fileDescriptors slot fd := by
  unfold bindDescriptor
  rw [storeSlot_fileDescriptors _ _ inside]
  rfl

end Binding

/-- A new descriptor keeps what its address does not lie in. -/
theorem bindDescriptor_keeps {guard : Extent -> Prop} {first before : Kernel} (keeps : KeepsObjects guard first before)
    {fd : Word} (fresh : Fresh guard first fd) (slot : Nat) (p : Word) :
    KeepsObjects guard first (bindDescriptor before slot fd p) := by
  refine keeps.of_same (bindDescriptor_heap before slot fd p) fun place old => ?_
  have apart : place ≠ fd := fun same => old (same ▸ fresh)
  rw [bindDescriptor_toStore]
  exact ⟨rfl, rfl, rfl, rfl, Function.update_of_ne apart _ _, rfl, rfl, rfl, rfl⟩

/-- A record that is written twice. -/
theorem storeFileDescriptor_twice (kernel : Kernel) (slot : Int) (fd address : Word) (record record' : FileDescriptor) :
    storeFileDescriptor (storeSlot (storeFileDescriptor kernel fd record) slot address) fd record' =
      storeSlot (storeFileDescriptor kernel fd record') slot address := by
  have twice : Function.update (Function.update kernel.fileDescriptorRecords fd record) fd record' =
      Function.update kernel.fileDescriptorRecords fd record' := Function.update_idem _ _ _
  unfold storeSlot
  by_cases inside : 0 ≤ slot ∧ slot < MAX_FILE_DESCRIPTORS
  · rw [if_pos inside, if_pos inside]
    unfold storeFileDescriptor
    simp only [Kernel.withStore, twice]
  · rw [if_neg inside, if_neg inside]
    unfold storeFileDescriptor
    simp only [Kernel.withStore, twice]

/-- Without an empty slot the open fails. -/
theorem openDescriptor_full {kernel : Kernel} (full : freeSlot kernel.fileDescriptors = none) (p : Word) :
    openDescriptor kernel p = (0, kernel) := by
  unfold openDescriptor makeNewFileDescriptor
  rw [full]
  rfl

/-- The lowest empty slot gives the number of the file. -/
theorem openDescriptor_free {kernel : Kernel} {slot : Nat} (free : freeSlot kernel.fileDescriptors = some slot)
    (p : Word) :
    openDescriptor kernel p =
      ((slot : Int) + 1, bindDescriptor (kzalloc kernel sizeofFileDescriptor).2 slot
        (kzalloc kernel sizeofFileDescriptor).1 p) := by
  unfold openDescriptor makeNewFileDescriptor bindDescriptor
  rw [free]
  generalize kzalloc kernel sizeofFileDescriptor = fd
  have record : (storeSlot (storeFileDescriptor fd.2 fd.1 { fd.2.fileDescriptorRecords fd.1 with index := slot + 1 })
      slot fd.1).fileDescriptorRecords fd.1 = { fd.2.fileDescriptorRecords fd.1 with index := slot + 1 } := by
    rw [storeSlot_toStore]
    exact Function.update_self _ _ _
  simp only [Int.lt_irrefl, if_false, record, storeFileDescriptor_twice]
  unfold fopenResult
  rw [if_neg (by omega)]

/-- The new number resolves to the new descriptor, but for that of the last
slot. -/
theorem getFileDescriptor_bind (kernel : Kernel) {slot : Nat} (inside : slot < MAX_FILE_DESCRIPTORS) (fd p : Word) :
    getFileDescriptor (bindDescriptor kernel slot fd p) (slot + 1) =
      if slot + 1 < MAX_FILE_DESCRIPTORS then fd else 0#32 := by
  unfold getFileDescriptor
  by_cases last : slot + 1 < MAX_FILE_DESCRIPTORS
  · have index : ((slot : Int) + 1 - 1).toNat = slot := by omega
    rw [if_neg (by omega), if_pos last, bindDescriptor_fileDescriptors _ _ _ _ inside, index]
    exact Function.update_self _ _ _
  · rw [if_pos (by omega), if_neg last]

/-! ## The two parts of an open -/

/-- What `fopen` gets from the open of the file system, if it comes to that. -/
def fopenAttempt (kernel : Kernel) (fileName modeOfOperation : List Byte) : Option (Word × Kernel) :=
  match pathParse kernel fileName with
  | ([], _) => none
  | (root :: next, parsed) =>
      if (!parsed.disk.fs) = true then none
      else if getFileModeByString modeOfOperation = .invalid then none
      else fat16Open parsed root next (getFileModeByString modeOfOperation)

/-- The end of `fopen`, with what the file system has opened. -/
def fopenEnd (fdPrivateData : Word × Kernel) : Int × Kernel :=
  if isErr fdPrivateData.1 then (fopenResult (ptrErr fdPrivateData.1), fdPrivateData.2)
  else openDescriptor fdPrivateData.2 fdPrivateData.1

section Opening

variable {kernel : Kernel} {path mode : List Byte} {p : Word × Kernel}

/-- The open of the file system is called for a path with a component, on a disk with
a file system and in a mode that there is. -/
theorem fopenAttempt_some (attempt : fopenAttempt kernel path mode = some p) :
    exists root next parsed, pathParse kernel path = (root :: next, parsed) ∧ ¬ (!parsed.disk.fs) = true ∧
      getFileModeByString mode ≠ .invalid ∧ fat16Open parsed root next (getFileModeByString mode) = some p := by
  unfold fopenAttempt at attempt
  generalize pathParse kernel path = parse at *
  rcases parse with ⟨parts, parsed⟩
  cases parts with
  | nil => cases attempt
  | cons root next =>
      dsimp only at attempt
      by_cases unbound : (!parsed.disk.fs) = true
      · rw [if_pos unbound] at attempt
        cases attempt
      · rw [if_neg unbound] at attempt
        by_cases invalid : getFileModeByString mode = .invalid
        · rw [if_pos invalid] at attempt
          cases attempt
        · rw [if_neg invalid] at attempt
          exact ⟨root, next, parsed, rfl, unbound, invalid, attempt⟩

theorem fopen_of_attempt (attempt : fopenAttempt kernel path mode = some p) :
    fopen kernel path mode = some (fopenEnd p) := by
  rcases fopenAttempt_some attempt with ⟨root, next, parsed, parses, bound, valid, opens⟩
  unfold fopen
  rw [parses]
  dsimp only
  rw [if_neg bound, if_neg valid, opens]
  rfl

/-- An open ends with the parse, or with what the file system has opened. -/
theorem fopen_cases {opened : Int × Kernel} (opens : fopen kernel path mode = some opened) :
    opened = (0, (pathParse kernel path).2) ∨
      exists p, fopenAttempt kernel path mode = some p ∧ opened = fopenEnd p := by
  unfold fopen at opens
  unfold fopenAttempt
  generalize pathParse kernel path = parse at *
  rcases parse with ⟨parts, parsed⟩
  cases parts with
  | nil => exact Or.inl (Option.some.inj opens).symm
  | cons root next =>
      dsimp only at opens ⊢
      by_cases unbound : (!parsed.disk.fs) = true
      · rw [if_pos unbound] at opens
        exact Or.inl (Option.some.inj opens).symm
      · rw [if_neg unbound] at opens ⊢
        by_cases invalid : getFileModeByString mode = .invalid
        · rw [if_pos invalid] at opens
          exact Or.inl (Option.some.inj opens).symm
        · rw [if_neg invalid] at opens ⊢
          rcases Option.map_eq_some_iff.mp opens with ⟨p, found, same⟩
          exact Or.inr ⟨p, found, same.symm⟩

/-- An open of the file system that goes through has found the item of its descriptor. -/
theorem fat16Open_walks {path : PathPart} {next : List PathPart} {mode : FileMode} {opened : Word × Kernel}
    (opens : fat16Open kernel path next mode = some opened) (noError : isErr opened.1 = false) :
    exists opener item, fat16GetDirectoryEntry opener path next = some item ∧ item.1 ≠ 0#32 ∧
      opened.2 = storeFatFileDescriptor item.2 opened.1 ⟨item.1, 0#32⟩ := by
  have error : forall number : Int, 0 < number -> number ≤ MAX_ERRNO -> isErr (errPtr (- number)) ≠ false := by
    intro number positive known
    rw [isErr_errPtr positive known]
    exact Bool.noConfusion
  unfold fat16Open at opens
  by_cases writes : mode ≠ .read
  · rw [if_pos writes] at opens
    cases opens
    exact absurd noError (error _ (by decide) (by decide))
  · rw [if_neg writes] at opens
    by_cases refused : (kzalloc kernel 8#32).1 = 0#32
    · simp only [refused, if_true] at opens
      cases opens
      exact absurd noError (error _ (by decide) (by decide))
    · simp only [refused, if_false] at opens
      rcases Option.map_eq_some_iff.mp opens with ⟨item, walk, rfl⟩
      by_cases missing : item.1 = 0#32
      · simp only [missing, if_true] at noError
        exact absurd noError (error _ (by decide) (by decide))
      · simp only [missing, if_false]
        exact ⟨_, item, walk, missing, rfl⟩

end Opening

/-! ## An open file -/

/-- The private data of a file descriptor. -/
def fileData (kernel : Kernel) (fd : Int) : Word := (kernel.fileDescriptorRecords (getFileDescriptor kernel fd)).p

/-- The position of a file descriptor. -/
def filePosition (kernel : Kernel) (fd : Int) : Nat := (kernel.fatFileDescriptors (fileData kernel fd)).pos.toNat

/-- The length that the directory has for the file. -/
def fileLength (kernel : Kernel) (fd : Int) : Nat := (slotOf kernel (fileData kernel fd)).filesize

/-- The descriptor is that of an open regular file. -/
structure OpenFile (kernel : Kernel) (fd : Int) : Prop where
  descriptor : getFileDescriptor kernel fd ≠ 0#32
  file : (kernel.fatItems (kernel.fatFileDescriptors (fileData kernel fd)).item).type = FAT_ITEM_TYPE_FILE

theorem fileLength_lt (kernel : Kernel) (fd : Int) : fileLength kernel fd < 2 ^ 32 := by
  unfold fileLength Slot.filesize
  generalize slotOf kernel (fileData kernel fd) = slot
  have first := (slot 28).isLt
  have second := (slot 29).isLt
  have third := (slot 30).isLt
  have fourth := (slot 31).isLt
  simp only [littleEndian]
  omega

end Fs
end LarvaOS
