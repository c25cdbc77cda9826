import LarvaOS.Fs.Fat16

namespace LarvaOS
namespace Fs

open Memory

/-!
# The file system interface

The table of file descriptors maps the number of a file to a record in memory.
A slot holds the number one below that of the file, and the record repeats the
number.

The kernel has one disk, whose number is 0, and one file system.  `fopen` hence
always finds the disk, and finds a file system when the disk was resolved.  The
calls that read a chain of clusters or scan a directory have the value `none`
where the operations behind them do.
-/

def MAX_FILE_DESCRIPTORS : Nat := 512

/-- The size of `struct file_descriptor`. -/
def sizeofFileDescriptor : Word := 16#32

/-! ## The table -/

/-- A change of the file descriptor at an address. -/
def storeFileDescriptor (kernel : Kernel) (address : Word) (record : FileDescriptor) : Kernel :=
  kernel.withStore
    { kernel.toStore with fileDescriptorRecords := Function.update kernel.fileDescriptorRecords address record }

/-- A change of the table.  An index outside the table names another word of
the kernel's data. -/
def storeSlot (kernel : Kernel) (slot : Int) (pointer : Word) : Kernel :=
  if 0 ≤ slot ∧ slot < MAX_FILE_DESCRIPTORS then
    { kernel with fileDescriptors := Function.update kernel.fileDescriptors slot.toNat pointer }
  else kernel

/-- The lowest slot that is empty. -/
def freeSlot (fileDescriptors : Nat -> Word) : Option Nat :=
  (List.range MAX_FILE_DESCRIPTORS).find? fun slot => fileDescriptors slot = 0#32

/-- `make_new_file_descriptor`: the result, the descriptor and the kernel.  A
descriptor that the heap refuses is numbered at address 0. -/
def makeNewFileDescriptor (kernel : Kernel) : Int × Word × Kernel :=
  match freeSlot kernel.fileDescriptors with
  | none => (- ENOMEM, 0#32, kernel)
  | some slot =>
      let fd := kzalloc kernel sizeofFileDescriptor
      let numbered := storeFileDescriptor fd.2 fd.1 { fd.2.fileDescriptorRecords fd.1 with index := slot + 1 }
      (0, fd.1, storeSlot numbered slot fd.1)

/-- `release_file_descriptor`. -/
def releaseFileDescriptor (kernel : Kernel) (fd : Word) : Kernel :=
  kfree (storeSlot kernel ((kernel.fileDescriptorRecords fd).index - 1) 0#32) fd

/-- `get_file_descriptor`. -/
def getFileDescriptor (kernel : Kernel) (index : Int) : Word :=
  if index ≤ 0 ∨ index ≥ MAX_FILE_DESCRIPTORS then 0#32 else kernel.fileDescriptors (index - 1).toNat

/-- `get_file_mode_by_string` compares one character. -/
def getFileModeByString (str : List Byte) : FileMode :=
  if str.head? = some 0x72#8 then .read
  else if str.head? = some 0x77#8 then .write
  else if str.head? = some 0x61#8 then .append
  else .invalid

/-- `fs_init`, as far as it is not about the table of file systems. -/
def fsInit (kernel : Kernel) : Kernel := { kernel with fileDescriptors := fun _ => 0#32 }

/-- `disk_init`.  The disk has a file system when it was resolved. -/
def diskInit (kernel : Kernel) : Option Kernel :=
  (fat16Resolve (withDisk kernel ⟨false, 0#32⟩)).map fun resolved =>
    withDisk resolved.2 { resolved.2.disk with fs := decide (resolved.1 = 0) }

/-! ## Opening -/

/-- The result of `fopen`, which is never negative. -/
def fopenResult (res : Int) : Int := if res < 0 then 0 else res

/-- The end of `fopen`: a descriptor for the private data of the file system. -/
def openDescriptor (kernel : Kernel) (fdPrivateData : Word) : Int × Kernel :=
  let fd := makeNewFileDescriptor kernel
  if fd.1 < 0 then (fopenResult fd.1, fd.2.2)
  else
    let record := fd.2.2.fileDescriptorRecords fd.2.1
    (fopenResult record.index, storeFileDescriptor fd.2.2 fd.2.1 { record with p := fdPrivateData })

/-- `fopen`. -/
def fopen (kernel : Kernel) (fileName modeOfOperation : List Byte) : Option (Int × Kernel) :=
  match pathParse kernel fileName with
  | ([], parsed) => some (fopenResult (- EINVAL), parsed)
  | (root :: next, parsed) =>
      if !parsed.disk.fs then some (fopenResult (- EIO), parsed)
      else
        let mode := getFileModeByString modeOfOperation
        if mode = .invalid then some (fopenResult (- EINVAL), parsed)
        else
          (fat16Open parsed root next mode).map fun fdPrivateData =>
            if isErr fdPrivateData.1 then (fopenResult (ptrErr fdPrivateData.1), fdPrivateData.2)
            else openDescriptor fdPrivateData.2 fdPrivateData.1

/-! ## Reading, seeking and closing -/

/-- `fread`. -/
def fread (kernel : Kernel) (fd : Int) (ptr size nmemb : Word) : Option (Int × Kernel) :=
  if fd < 1 ∨ size = 0#32 ∨ nmemb = 0#32 then some (- EINVAL, kernel)
  else
    let desc := getFileDescriptor kernel fd
    if desc = 0#32 then some (- EINVAL, kernel)
    else fat16Read kernel (kernel.fileDescriptorRecords desc).p size nmemb ptr

/-- `fseek`. -/
def fseek (kernel : Kernel) (fd : Int) (offset : Int) (whence : SeekMode) : Int × Kernel :=
  let desc := getFileDescriptor kernel fd
  if desc = 0#32 then (- EINVAL, kernel)
  else fat16Seek kernel (kernel.fileDescriptorRecords desc).p (intToWord offset) whence

/-- `fstat`. -/
def fstat (kernel : Kernel) (fd : Int) (stat : Word) : Int × Kernel :=
  let desc := getFileDescriptor kernel fd
  if desc = 0#32 then (- EINVAL, kernel)
  else fat16Stat kernel (kernel.fileDescriptorRecords desc).p stat

/-- `fclose`. -/
def fclose (kernel : Kernel) (fd : Int) : Int × Kernel :=
  let desc := getFileDescriptor kernel fd
  if desc = 0#32 then (- EINVAL, kernel)
  else (0, releaseFileDescriptor (fat16Close kernel (kernel.fileDescriptorRecords desc).p) desc)

/-! ## Uses of an open file -/

/-- A call that uses an open file. -/
inductive FileUse where
  | fread (ptr size nmemb : Word)
  | fseek (offset : Int) (whence : SeekMode)
  | fstat (stat : Word)

/-- The kernel after one use of a file, whatever its result. -/
def useFile (kernel : Kernel) (fd : Int) : FileUse -> Option Kernel
  | .fread ptr size nmemb => (fread kernel fd ptr size nmemb).map Prod.snd
  | .fseek offset whence => some (fseek kernel fd offset whence).2
  | .fstat stat => some (fstat kernel fd stat).2

/-- The kernel after a list of uses. -/
def useFileAll (kernel : Kernel) (fd : Int) : List FileUse -> Option Kernel
  | [] => some kernel
  | use :: rest => (useFile kernel fd use).bind fun used => useFileAll used fd rest

end Fs
end LarvaOS
