import LarvaOS.Fs.FileCalls
import LarvaOS.Fs.OpenDirectory
import LarvaOS.Library.Traced

namespace LarvaOS
namespace Fs

open Disk Library Memory

/-!
# The tag of an item

A `struct fat_item` holds a union, and its `type` tells which member of the union is
meant.  Each function that reads the union has to look at the type first.

The functions are instrumented here: wherever one of them reads the union, it gets the
pointer by `readUnion`, which tells the member that is read and the type that the item
has at that time.  Without what is told they are the functions of the file system.
-/

/-! ## Reads of the union -/

/-- The members of the union. -/
inductive UnionMember where
  | item
  | directory

/-- A read of a member of the union, and the type of the item. -/
structure UnionRead where
  member : UnionMember
  type : Word

/-- The type says that the union holds this member. -/
def UnionRead.Tagged (read : UnionRead) : Prop :=
  match read.member with
  | .item => read.type = FAT_ITEM_TYPE_FILE
  | .directory => read.type = FAT_ITEM_TYPE_DIRECTORY

/-- The pointer in the union of an item, read as a member. -/
def readUnion (kernel : Kernel) (item : Word) (member : UnionMember) : Traced UnionRead Word :=
  Traced.told ⟨member, (kernel.fatItems item).type⟩ (kernel.fatItems item).pointer

/-! ## The functions with their reads -/

/-- `fat16_fat_item_free`. -/
def fat16FatItemFreeTraced (kernel : Kernel) (item : Word) : Traced UnionRead Kernel :=
  if item = 0#32 then Traced.silent kernel
  else
    let type := (kernel.fatItems item).type
    let released :=
      if type = FAT_ITEM_TYPE_DIRECTORY then (readUnion kernel item .directory).map (fat16FreeDirectory kernel)
      else if type = FAT_ITEM_TYPE_FILE then (readUnion kernel item .item).map (kfree kernel)
      else Traced.silent kernel
    released.map fun kernel => kfree kernel item

/-- The loop of `fat16_get_directory_entry`. -/
def descendTraced : List PathPart -> Kernel -> Word -> Traced UnionRead (Option (Word × Kernel))
  | [], kernel, currentItem => Traced.silent (some (currentItem, kernel))
  | next :: rest, kernel, currentItem =>
      if (kernel.fatItems currentItem).type ≠ FAT_FILE_SUBDIRECTORY.setWidth 32 then Traced.silent (some (0#32, kernel))
      else
        (readUnion kernel currentItem .directory).andThen fun directory =>
          match fat16FindItemInDirectory kernel (kernel.fatDirectories directory) next.text with
          | none => Traced.silent none
          | some tmpItem =>
              (fat16FatItemFreeTraced tmpItem.2 currentItem).andThen fun freed => descendTraced rest freed tmpItem.1

/-- `fat16_get_directory_entry`. -/
def fat16GetDirectoryEntryTraced (kernel : Kernel) (path : PathPart) (next : List PathPart) :
    Traced UnionRead (Option (Word × Kernel)) :=
  match fat16FindItemInDirectory kernel (privateOf kernel).rootDir path.text with
  | none => Traced.silent none
  | some rootItem =>
      if rootItem.1 = 0#32 then Traced.silent (some (0#32, rootItem.2)) else descendTraced next rootItem.2 rootItem.1

/-- `fat16_open`. -/
def fat16OpenTraced (kernel : Kernel) (path : PathPart) (next : List PathPart) (mode : FileMode) :
    Traced UnionRead (Option (Word × Kernel)) :=
  if mode ≠ .read then Traced.silent (some (errPtr (- EROFS), kernel))
  else
    let fatFd := kzalloc kernel 8#32
    if fatFd.1 = 0#32 then Traced.silent (some (errPtr (- ENOMEM), fatFd.2))
    else
      (fat16GetDirectoryEntryTraced fatFd.2 path next).map fun entry => entry.map fun item =>
        let stored := storeFatFileDescriptor item.2 fatFd.1 ⟨item.1, 0#32⟩
        if item.1 = 0#32 then (errPtr (- EIO), kfree stored fatFd.1) else (fatFd.1, stored)

/-- `fopen`. -/
def fopenTraced (kernel : Kernel) (fileName modeOfOperation : List Byte) : Traced UnionRead (Option (Int × Kernel)) :=
  match pathParse kernel fileName with
  | ([], parsed) => Traced.silent (some (fopenResult (- EINVAL), parsed))
  | (root :: next, parsed) =>
      if !parsed.disk.fs then Traced.silent (some (fopenResult (- EIO), parsed))
      else
        let mode := getFileModeByString modeOfOperation
        if mode = .invalid then Traced.silent (some (fopenResult (- EINVAL), parsed))
        else
          (fat16OpenTraced parsed root next mode).map fun opened => opened.map fun fdPrivateData =>
            if isErr fdPrivateData.1 then (fopenResult (ptrErr fdPrivateData.1), fdPrivateData.2)
            else openDescriptor fdPrivateData.2 fdPrivateData.1

/-- The loop of `fat16_read`, which holds the pointer to the entry in a variable. -/
def readItemsOf (item size : Word) : Nat -> Kernel -> Int -> Word -> Option (Int × Kernel)
  | 0, kernel, _, _ => some (0, kernel)
  | remaining + 1, kernel, offset, out =>
      (fat16ReadInternal kernel (fat16GetFirstCluster (slotAt kernel item)) offset (wordToInt size) out).bind
        fun reading =>
          if reading.res < 0 then some (reading.res, reading.kernel)
          else readItemsOf item size remaining reading.kernel (wrapInt (offset + wordToInt size)) (out + size)

/-- `fat16_read`, which reads the union before its loop. -/
def fat16ReadTraced (kernel : Kernel) (p size nmemb out : Word) : Traced UnionRead (Option (Int × Kernel)) :=
  let fatDesc := kernel.fatFileDescriptors p
  (readUnion kernel fatDesc.item .item).map fun item =>
    (readItemsOf item size nmemb.toNat kernel (wordToInt fatDesc.pos) out).map fun read =>
      if read.1 < 0 then read else (wordToInt nmemb, read.2)

/-- `fread`. -/
def freadTraced (kernel : Kernel) (fd : Int) (ptr size nmemb : Word) : Traced UnionRead (Option (Int × Kernel)) :=
  if fd < 1 ∨ size = 0#32 ∨ nmemb = 0#32 then Traced.silent (some (- EINVAL, kernel))
  else
    let desc := getFileDescriptor kernel fd
    if desc = 0#32 then Traced.silent (some (- EINVAL, kernel))
    else fat16ReadTraced kernel (kernel.fileDescriptorRecords desc).p size nmemb ptr

/-- `fat16_seek`. -/
def fat16SeekTraced (kernel : Kernel) (p offset : Word) (seekMode : SeekMode) : Traced UnionRead (Int × Kernel) :=
  let fatDesc := kernel.fatFileDescriptors p
  if (kernel.fatItems fatDesc.item).type ≠ FAT_ITEM_TYPE_FILE then Traced.silent (- EINVAL, kernel)
  else
    (readUnion kernel fatDesc.item .item).map fun item =>
      if offset.toNat ≥ (slotAt kernel item).filesize then (- EIO, kernel)
      else
        match seekMode with
        | .set => (0, storeFatFileDescriptor kernel p { fatDesc with pos := offset })
        | .cur => (0, storeFatFileDescriptor kernel p { fatDesc with pos := fatDesc.pos + offset })
        | .other => (- EINVAL, kernel)

/-- `fseek`. -/
def fseekTraced (kernel : Kernel) (fd offset : Int) (whence : SeekMode) : Traced UnionRead (Int × Kernel) :=
  let desc := getFileDescriptor kernel fd
  if desc = 0#32 then Traced.silent (- EINVAL, kernel)
  else fat16SeekTraced kernel (kernel.fileDescriptorRecords desc).p (intToWord offset) whence

/-- `fat16_stat`. -/
def fat16StatTraced (kernel : Kernel) (p stat : Word) : Traced UnionRead (Int × Kernel) :=
  let descItem := (kernel.fatFileDescriptors p).item
  if (kernel.fatItems descItem).type ≠ FAT_ITEM_TYPE_FILE then Traced.silent (- EINVAL, kernel)
  else (readUnion kernel descItem .item).map fun item => (0, copyEntry kernel item stat)

/-- `fstat`. -/
def fstatTraced (kernel : Kernel) (fd : Int) (stat : Word) : Traced UnionRead (Int × Kernel) :=
  let desc := getFileDescriptor kernel fd
  if desc = 0#32 then Traced.silent (- EINVAL, kernel)
  else fat16StatTraced kernel (kernel.fileDescriptorRecords desc).p stat

/-- `fat16_close`. -/
def fat16CloseTraced (kernel : Kernel) (p : Word) : Traced UnionRead Kernel :=
  (fat16FatItemFreeTraced kernel (kernel.fatFileDescriptors p).item).map fun freed => kfree freed p

/-- `fclose`. -/
def fcloseTraced (kernel : Kernel) (fd : Int) : Traced UnionRead (Int × Kernel) :=
  let desc := getFileDescriptor kernel fd
  if desc = 0#32 then Traced.silent (- EINVAL, kernel)
  else
    (fat16CloseTraced kernel (kernel.fileDescriptorRecords desc).p).map fun closed => (0, releaseFileDescriptor closed desc)

/-- A call with its reads. -/
def FileCall.traced (kernel : Kernel) : FileCall -> Traced UnionRead (Option (Int × Kernel))
  | .fopen fileName modeOfOperation => fopenTraced kernel fileName modeOfOperation
  | .fread fd ptr size nmemb => freadTraced kernel fd ptr size nmemb
  | .fseek fd offset whence => (fseekTraced kernel fd offset whence).map some
  | .fstat fd stat => (fstatTraced kernel fd stat).map some
  | .fclose fd => (fcloseTraced kernel fd).map some

/-! ## Without the reads -/

theorem fat16FatItemFreeTraced_value (kernel : Kernel) (item : Word) :
    (fat16FatItemFreeTraced kernel item).value = fat16FatItemFree kernel item := by
  unfold fat16FatItemFreeTraced fat16FatItemFree
  by_cases null : item = 0#32
  · rw [if_pos null, if_pos null]
    rfl
  · rw [if_neg null, if_neg null]
    by_cases directory : (kernel.fatItems item).type = FAT_ITEM_TYPE_DIRECTORY
    · simp only [directory, if_true]
      rfl
    · by_cases file : (kernel.fatItems item).type = FAT_ITEM_TYPE_FILE
      · simp only [if_neg directory, if_pos file]
        rfl
      · simp only [if_neg directory, if_neg file]
        rfl

theorem descendTraced_value (next : List PathPart) (kernel : Kernel) (currentItem : Word) :
    (descendTraced next kernel currentItem).value = descend next kernel currentItem := by
  induction next generalizing kernel currentItem with
  | nil => rfl
  | cons next rest inductionHypothesis =>
      rw [descendTraced, descend]
      by_cases stops : (kernel.fatItems currentItem).type ≠ FAT_FILE_SUBDIRECTORY.setWidth 32
      · rw [if_pos stops, if_pos stops]
        rfl
      · rw [if_neg stops, if_neg stops]
        dsimp only [readUnion, Traced.andThen_value, Traced.told_value]
        cases fat16FindItemInDirectory kernel (kernel.fatDirectories (kernel.fatItems currentItem).pointer) next.text with
        | none => rfl
        | some tmpItem =>
            rw [Option.bind_some, ← fat16FatItemFreeTraced_value]
            exact inductionHypothesis _ _

theorem fat16GetDirectoryEntryTraced_value (kernel : Kernel) (path : PathPart) (next : List PathPart) :
    (fat16GetDirectoryEntryTraced kernel path next).value = fat16GetDirectoryEntry kernel path next := by
  unfold fat16GetDirectoryEntryTraced fat16GetDirectoryEntry
  cases fat16FindItemInDirectory kernel (privateOf kernel).rootDir path.text with
  | none => rfl
  | some rootItem =>
      rw [Option.bind_some]
      by_cases missing : rootItem.1 = 0#32
      · simp only [missing, if_true]
        rfl
      · simp only [missing, if_false]
        exact descendTraced_value next rootItem.2 rootItem.1

theorem fat16OpenTraced_value (kernel : Kernel) (path : PathPart) (next : List PathPart) (mode : FileMode) :
    (fat16OpenTraced kernel path next mode).value = fat16Open kernel path next mode := by
  unfold fat16OpenTraced fat16Open
  by_cases writes : mode ≠ .read
  · rw [if_pos writes, if_pos writes]
    rfl
  · rw [if_neg writes, if_neg writes]
    by_cases refused : (kzalloc kernel 8#32).1 = 0#32
    · simp only [refused, if_true]
      rfl
    · simp only [refused, if_false, Traced.map_value, fat16GetDirectoryEntryTraced_value]

theorem fopenTraced_value (kernel : Kernel) (fileName modeOfOperation : List Byte) :
    (fopenTraced kernel fileName modeOfOperation).value = fopen kernel fileName modeOfOperation := by
  unfold fopenTraced fopen
  rcases pathParse kernel fileName with ⟨parts, parsed⟩
  cases parts with
  | nil => rfl
  | cons root next =>
      dsimp only
      cases parsed.disk.fs with
      | false => rfl
      | true =>
          by_cases invalid : getFileModeByString modeOfOperation = .invalid
          · simp only [invalid, if_true]
            rfl
          · simp only [invalid, if_false, Bool.not_true, Bool.false_eq_true, Traced.map_value, fat16OpenTraced_value]

/-- A read leaves the items alone, and the pointer in the variable is the one in the
union to the end. -/
theorem readItemsOf_eq {item p size : Word} (remaining : Nat) {kernel : Kernel}
    (held : (kernel.fatItems (kernel.fatFileDescriptors p).item).pointer = item) (offset : Int) (out : Word) :
    readItemsOf item size remaining kernel offset out = readItems p size remaining kernel offset out := by
  induction remaining generalizing kernel offset out with
  | zero => rfl
  | succ remaining inductionHypothesis =>
      have entry : slotOf kernel p = slotAt kernel item := congrArg (slotAt kernel) held
      simp only [readItemsOf, readItems, entry]
      refine Option.bind_congr fun reading read => ?_
      have transferred := fat16ReadInternal_transferred (BitVec.toInt_lt (x := size)) read
      have later : (reading.kernel.fatItems (reading.kernel.fatFileDescriptors p).item).pointer = item := by
        rw [transferred.fatItems, transferred.fatFileDescriptors]
        exact held
      rw [inductionHypothesis later]

theorem fat16ReadTraced_value (kernel : Kernel) (p size nmemb out : Word) :
    (fat16ReadTraced kernel p size nmemb out).value = fat16Read kernel p size nmemb out := by
  unfold fat16ReadTraced fat16Read
  dsimp only
  rw [Traced.map_value, readUnion, Traced.told_value, readItemsOf_eq nmemb.toNat rfl]

theorem freadTraced_value (kernel : Kernel) (fd : Int) (ptr size nmemb : Word) :
    (freadTraced kernel fd ptr size nmemb).value = fread kernel fd ptr size nmemb := by
  unfold freadTraced fread
  by_cases asked : fd < 1 ∨ size = 0#32 ∨ nmemb = 0#32
  · rw [if_pos asked, if_pos asked]
    rfl
  · rw [if_neg asked, if_neg asked]
    by_cases refused : getFileDescriptor kernel fd = 0#32
    · simp only [refused, if_true]
      rfl
    · simp only [refused, if_false]
      exact fat16ReadTraced_value kernel _ size nmemb ptr

theorem fseekTraced_value (kernel : Kernel) (fd offset : Int) (whence : SeekMode) :
    (fseekTraced kernel fd offset whence).value = fseek kernel fd offset whence := by
  unfold fseekTraced fseek
  by_cases refused : getFileDescriptor kernel fd = 0#32
  · simp only [refused, if_true]
    rfl
  · simp only [refused, if_false]
    unfold fat16SeekTraced fat16Seek
    dsimp only
    split
    · rfl
    · rfl

theorem fstatTraced_value (kernel : Kernel) (fd : Int) (stat : Word) :
    (fstatTraced kernel fd stat).value = fstat kernel fd stat := by
  unfold fstatTraced fstat
  by_cases refused : getFileDescriptor kernel fd = 0#32
  · simp only [refused, if_true]
    rfl
  · simp only [refused, if_false]
    unfold fat16StatTraced fat16Stat
    dsimp only
    split
    · rfl
    · rfl

theorem fcloseTraced_value (kernel : Kernel) (fd : Int) : (fcloseTraced kernel fd).value = fclose kernel fd := by
  unfold fcloseTraced fclose
  by_cases refused : getFileDescriptor kernel fd = 0#32
  · simp only [refused, if_true]
    rfl
  · simp only [refused, if_false, Traced.map_value, fat16CloseTraced, fat16Close, fat16FatItemFreeTraced_value]

/-- Without the reads a call is the call. -/
theorem FileCall.traced_value (kernel : Kernel) (call : FileCall) : (call.traced kernel).value = call.run kernel := by
  cases call with
  | fopen fileName modeOfOperation => exact fopenTraced_value kernel fileName modeOfOperation
  | fread fd ptr size nmemb => exact freadTraced_value kernel fd ptr size nmemb
  | fseek fd offset whence => exact congrArg some (fseekTraced_value kernel fd offset whence)
  | fstat fd stat => exact congrArg some (fstatTraced_value kernel fd stat)
  | fclose fd => exact congrArg some (fcloseTraced_value kernel fd)

/-! ## The promise and the condition -/

/-- The type of the item behind a descriptor. -/
def itemType (kernel : Kernel) (fd : Int) : Word :=
  (kernel.fatItems (kernel.fatFileDescriptors (fileData kernel fd)).item).type

/-- The descriptor was opened on a directory. -/
structure OpenDirectory (kernel : Kernel) (fd : Int) : Prop where
  descriptor : getFileDescriptor kernel fd ≠ 0#32
  directory : itemType kernel fd = FAT_ITEM_TYPE_DIRECTORY

/-- What is promised of a call: it reads the union by its tag, and it does not read a
directory as a file. -/
structure KeepsToTags (kernel : Kernel) (call : FileCall) : Prop where
  tagged : (call.traced kernel).Each UnionRead.Tagged
  refuses : forall fd ptr size nmemb, call = .fread fd ptr size nmemb -> OpenDirectory kernel fd ->
    exists res after, call.run kernel = some (res, after) ∧ res < 0 ∧ after.bytes = kernel.bytes

/-- The call is no read that gets to the item of something else than a file. -/
def ReadsFiles (kernel : Kernel) : FileCall -> Prop
  | .fread fd _ size nmemb =>
      1 ≤ fd -> size ≠ 0#32 -> nmemb ≠ 0#32 -> getFileDescriptor kernel fd ≠ 0#32 -> itemType kernel fd = FAT_ITEM_TYPE_FILE
  | _ => True

/-! ## The calls that look first -/

theorem readUnion_item {kernel : Kernel} {item : Word} (file : (kernel.fatItems item).type = FAT_ITEM_TYPE_FILE) :
    (readUnion kernel item .item).Each UnionRead.Tagged :=
  Traced.each_told (show UnionRead.Tagged ⟨.item, (kernel.fatItems item).type⟩ from file) _

theorem readUnion_directory {kernel : Kernel} {item : Word}
    (directory : (kernel.fatItems item).type = FAT_ITEM_TYPE_DIRECTORY) :
    (readUnion kernel item .directory).Each UnionRead.Tagged :=
  Traced.each_told (show UnionRead.Tagged ⟨.directory, (kernel.fatItems item).type⟩ from directory) _

theorem fat16FatItemFreeTraced_tagged (kernel : Kernel) (item : Word) :
    (fat16FatItemFreeTraced kernel item).Each UnionRead.Tagged := by
  unfold fat16FatItemFreeTraced
  by_cases null : item = 0#32
  · rw [if_pos null]
    exact Traced.each_silent kernel
  · rw [if_neg null]
    refine Traced.Each.map ?_ _
    by_cases directory : (kernel.fatItems item).type = FAT_ITEM_TYPE_DIRECTORY
    · rw [if_pos directory]
      exact (readUnion_directory directory).map _
    · rw [if_neg directory]
      by_cases file : (kernel.fatItems item).type = FAT_ITEM_TYPE_FILE
      · rw [if_pos file]
        exact (readUnion_item file).map _
      · rw [if_neg file]
        exact Traced.each_silent kernel

theorem fseekTraced_tagged (kernel : Kernel) (fd offset : Int) (whence : SeekMode) :
    (fseekTraced kernel fd offset whence).Each UnionRead.Tagged := by
  unfold fseekTraced fat16SeekTraced
  dsimp only
  split
  · exact Traced.each_silent _
  · split
    · exact Traced.each_silent _
    · rename_i file
      exact (readUnion_item (not_not.mp file)).map _

theorem fstatTraced_tagged (kernel : Kernel) (fd : Int) (stat : Word) :
    (fstatTraced kernel fd stat).Each UnionRead.Tagged := by
  unfold fstatTraced fat16StatTraced
  dsimp only
  split
  · exact Traced.each_silent _
  · split
    · exact Traced.each_silent _
    · rename_i file
      exact (readUnion_item (not_not.mp file)).map _

theorem fcloseTraced_tagged (kernel : Kernel) (fd : Int) : (fcloseTraced kernel fd).Each UnionRead.Tagged := by
  unfold fcloseTraced
  dsimp only
  split
  · exact Traced.each_silent _
  · exact ((fat16FatItemFreeTraced_tagged kernel _).map _).map _

/-- An item that was just made is no directory for the walk, which stops at it. -/
theorem descendTraced_made {guard : Extent -> Prop} {first kernel : Kernel} {item : Word}
    (safe : SafeItem guard first kernel item) (next : List PathPart) :
    (descendTraced next kernel item).Each UnionRead.Tagged := by
  cases next with
  | nil => exact Traced.each_silent _
  | cons part rest =>
      have stops : (kernel.fatItems item).type ≠ FAT_FILE_SUBDIRECTORY.setWidth 32 := by
        rcases safe.kind with directory | file
        · rw [directory]
          decide
        · rw [file]
          decide
      rw [descendTraced, if_pos stops]
      exact Traced.each_silent _

theorem fat16GetDirectoryEntryTraced_tagged {kernel : Kernel} (kernelHeap : kernel.heap.IsKernelHeap) (path : PathPart)
    (next : List PathPart) : (fat16GetDirectoryEntryTraced kernel path next).Each UnionRead.Tagged := by
  unfold fat16GetDirectoryEntryTraced
  cases search : fat16FindItemInDirectory kernel (privateOf kernel).rootDir path.text with
  | none => exact Traced.each_silent _
  | some rootItem =>
      dsimp only
      by_cases missing : rootItem.1 = 0#32
      · rw [if_pos missing]
        exact Traced.each_silent _
      · rw [if_neg missing]
        have made := searchSlots_keeps kernelHeap (KeepsObjects.refl (fun _ => False) kernel)
          (fun nonNull => absurd rfl nonNull) search
        exact descendTraced_made (made.2 missing) next

theorem fat16OpenTraced_tagged {kernel : Kernel} (kernelHeap : kernel.heap.IsKernelHeap) (path : PathPart)
    (next : List PathPart) (mode : FileMode) : (fat16OpenTraced kernel path next mode).Each UnionRead.Tagged := by
  unfold fat16OpenTraced
  dsimp only
  split
  · exact Traced.each_silent _
  · split
    · exact Traced.each_silent _
    · exact (fat16GetDirectoryEntryTraced_tagged (kzalloc_kernelHeap kernelHeap 8#32) path next).map _

theorem fopenTraced_tagged {kernel : Kernel} (kernelHeap : kernel.heap.IsKernelHeap) (fileName modeOfOperation : List Byte) :
    (fopenTraced kernel fileName modeOfOperation).Each UnionRead.Tagged := by
  have parsedHeap := pathParse_kernelHeap kernelHeap fileName
  unfold fopenTraced
  rcases result : pathParse kernel fileName with ⟨parts, parsed⟩
  rw [result] at parsedHeap
  cases parts with
  | nil => exact Traced.each_silent _
  | cons root next =>
      dsimp only at parsedHeap ⊢
      split
      · exact Traced.each_silent _
      · split
        · exact Traced.each_silent _
        · exact (fat16OpenTraced_tagged parsedHeap root next _).map _

/-! ## The call that does not -/

/-- What a read has to get through before it reads the union. -/
def ReachesUnion (kernel : Kernel) (fd : Int) (size nmemb : Word) : Prop :=
  1 ≤ fd ∧ size ≠ 0#32 ∧ nmemb ≠ 0#32 ∧ getFileDescriptor kernel fd ≠ 0#32

theorem ReachesUnion.events {kernel : Kernel} {fd : Int} {size nmemb : Word} (reaches : ReachesUnion kernel fd size nmemb)
    (ptr : Word) : (freadTraced kernel fd ptr size nmemb).events = [⟨.item, itemType kernel fd⟩] := by
  rcases reaches with ⟨positive, sized, counted, accepted⟩
  have goesOn : ¬ (fd < 1 ∨ size = 0#32 ∨ nmemb = 0#32) := by
    rintro (below | empty | none)
    · exact Int.not_lt.mpr positive below
    · exact sized empty
    · exact counted none
  rw [freadTraced, if_neg goesOn]
  dsimp only
  rw [if_neg accepted]
  rfl

theorem freadTraced_refuses {kernel : Kernel} {fd : Int} {size nmemb : Word} (refused : ¬ ReachesUnion kernel fd size nmemb)
    (ptr : Word) : freadTraced kernel fd ptr size nmemb = Traced.silent (some (- EINVAL, kernel)) := by
  unfold freadTraced
  dsimp only
  split
  · rfl
  · rename_i goesOn
    rcases not_or.mp goesOn with ⟨positive, rest⟩
    rcases not_or.mp rest with ⟨sized, counted⟩
    refine if_pos ?_
    by_contra accepted
    exact refused ⟨Int.not_lt.mp positive, sized, counted, accepted⟩

/-- A read meets the promise exactly if it gets to the item of a file only. -/
theorem fread_keepsToTags_iff (kernel : Kernel) (fd : Int) (ptr size nmemb : Word) :
    KeepsToTags kernel (.fread fd ptr size nmemb) ↔
      (ReachesUnion kernel fd size nmemb -> itemType kernel fd = FAT_ITEM_TYPE_FILE) := by
  constructor
  · intro keeps reaches
    refine keeps.tagged ⟨.item, itemType kernel fd⟩ ?_
    change _ ∈ (freadTraced kernel fd ptr size nmemb).events
    rw [reaches.events ptr]
    exact List.mem_singleton_self _
  · intro file
    by_cases reaches : ReachesUnion kernel fd size nmemb
    · constructor
      · intro read member
        change read ∈ (freadTraced kernel fd ptr size nmemb).events at member
        rw [reaches.events ptr] at member
        rw [List.mem_singleton.mp member]
        exact file reaches
      · intro fd' ptr' size' nmemb' same opened
        cases same
        exact absurd ((file reaches).symm.trans opened.directory) file_ne_directory
    · have refuses := freadTraced_refuses reaches ptr
      constructor
      · intro read member
        change read ∈ (freadTraced kernel fd ptr size nmemb).events at member
        rw [refuses] at member
        exact nomatch member
      · intro fd' ptr' size' nmemb' same opened
        cases same
        refine ⟨- EINVAL, kernel, ?_, by decide, rfl⟩
        rw [← FileCall.traced_value]
        exact congrArg Traced.value refuses

/-! ## Runs -/

/-- A call meets the promise exactly if it reads files only. -/
theorem keepsToTags_iff {kernel : Kernel} (kernelHeap : kernel.heap.IsKernelHeap) (call : FileCall) :
    KeepsToTags kernel call ↔ ReadsFiles kernel call := by
  cases call with
  | fopen fileName modeOfOperation =>
      exact ⟨fun _ => trivial, fun _ => ⟨fopenTraced_tagged kernelHeap fileName modeOfOperation,
        fun _ _ _ _ impossible => nomatch impossible⟩⟩
  | fseek fd offset whence =>
      exact ⟨fun _ => trivial, fun _ => ⟨(fseekTraced_tagged kernel fd offset whence).map some,
        fun _ _ _ _ impossible => nomatch impossible⟩⟩
  | fstat fd stat =>
      exact ⟨fun _ => trivial, fun _ => ⟨(fstatTraced_tagged kernel fd stat).map some,
        fun _ _ _ _ impossible => nomatch impossible⟩⟩
  | fclose fd =>
      exact ⟨fun _ => trivial, fun _ => ⟨(fcloseTraced_tagged kernel fd).map some,
        fun _ _ _ _ impossible => nomatch impossible⟩⟩
  | fread fd ptr size nmemb =>
      rw [fread_keepsToTags_iff]
      exact ⟨fun file positive sized counted accepted => file ⟨positive, sized, counted, accepted⟩,
        fun file reaches => file reaches.1 reaches.2.1 reaches.2.2.1 reaches.2.2.2⟩

/-- In every run, the calls keep to the tags exactly if no read gets to a directory. -/
theorem everyCall_keepsToTags_iff {kernel : Kernel} (kernelHeap : kernel.heap.IsKernelHeap) (calls : List FileCall) :
    EveryCall KeepsToTags kernel calls ↔ EveryCall ReadsFiles kernel calls := by
  have preserved : forall state call, PoolKept state ->
      (forall current, state = some current -> ReadsFiles current call) -> PoolKept (callStep state call) :=
    fun _ call pool _ => pool.callStep call
  refine Run.everywhere_iff preserved (fun state call pool => ?_) _ calls ?_
  · constructor
    · exact fun keeps current same => (keepsToTags_iff (pool current same) call).mp (keeps current same)
    · exact fun reads current same => (keepsToTags_iff (pool current same) call).mpr (reads current same)
  · intro current same
    obtain rfl := Option.some.inj same
    exact kernelHeap

/-- The run that opens the directory of the volume, reads from it and closes it. -/
def directoryRun : List FileCall :=
  [.fopen [forwardSlash, 0x44#8] [0x72#8], .fread 1 0x00400000#32 1#32 1#32, .fclose 1]

/-- The promise for that run. -/
theorem everyCall_keepsToTags_iff_tree : exists booted,
    boot (Kernel.loaded Store.blank treeVolume.sectors fun _ => 0#8) (fun _ => 0#8) = some booted ∧
      (EveryCall KeepsToTags booted directoryRun ↔ EveryCall ReadsFiles booted directoryRun) := by
  rcases treeVolume_opens with ⟨booted, _, boots, _⟩
  exact ⟨booted, boots, everyCall_keepsToTags_iff (boot_booted boots).kernelHeap directoryRun⟩

/-- The read from the directory takes its record for the entry of a file. -/
theorem everyCall_keepsToTags_directory : exists booted,
    boot (Kernel.loaded Store.blank treeVolume.sectors fun _ => 0#8) (fun _ => 0#8) = some booted ∧
      ¬ EveryCall KeepsToTags booted directoryRun := by
  rcases treeVolume_opens with ⟨booted, opened, boots, opens, accepted, directoryOpened⟩
  refine ⟨booted, boots, fun keeps => ?_⟩
  have stepped : callStep (some booted) (.fopen [forwardSlash, 0x44#8] [0x72#8]) = some opened :=
    congrArg (Option.map Prod.snd) opens
  have read := keeps.2.1 opened stepped
  have reaches : ReachesUnion opened 1 1#32 1#32 := ⟨by decide, by decide, by decide, accepted⟩
  have file := (fread_keepsToTags_iff opened 1 0x00400000#32 1#32 1#32).mp read reaches
  exact file_ne_directory (file.symm.trans directoryOpened.directory)

end Fs
end LarvaOS
