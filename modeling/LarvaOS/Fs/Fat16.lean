import LarvaOS.Fs.Fat16Directory
import LarvaOS.Fs.PathParser

namespace LarvaOS
namespace Fs

open Disk Libc Memory

/-!
# The FAT16 file system

The operations behind `struct filesystem`.  An operation that scans a directory
has the value `none` when the scan never ends, and one that reads a chain when
it divides by the size of an empty cluster.
-/

/-! ## Resolving the disk -/

/-- The size of `struct fat_private_data`. -/
def sizeofPrivateData : Word := 92#32

/-- A new stream, kept in a field of the private data. -/
def keepNewStream (kernel : Kernel) (fatPrivate : Word) (field : Word -> FatPrivateData -> FatPrivateData) : Kernel :=
  let stream := createDiskStream kernel
  modifyPrivate stream.2 fatPrivate (field stream.1)

/-- `fat16_init_private_data`. -/
def fat16InitPrivateData (kernel : Kernel) (fatPrivate : Word) : Kernel :=
  let cleared := kernel.withStore (kernel.toStore.fillZero fatPrivate sizeofPrivateData)
  let cluster := keepNewStream cleared fatPrivate fun stream record => { record with clusterReadStream := stream }
  let fat := keepNewStream cluster fatPrivate fun stream record => { record with fatReadStream := stream }
  keepNewStream fat fatPrivate fun stream record => { record with directoryStream := stream }

/-- A change of `struct disk`. -/
def withDisk (kernel : Kernel) (disk : DiskRecord) : Kernel := { kernel with disk := disk }

/-- The end of `fat16_resolve`. -/
def finishResolve (kernel : Kernel) (stream fatPrivate : Word) (res : Int) : Int × Kernel :=
  let kernel := if stream ≠ 0#32 then releaseDiskStream kernel stream else kernel
  if res < 0 then
    let kernel := kfree kernel fatPrivate
    (res, withDisk kernel { kernel.disk with fsPrivateData := 0#32 })
  else (res, kernel)

/-- The header of the private data, from the bytes that were read. -/
def headerOf (bytes : List Byte) : Nat -> Byte := fun place => bytes.getD place 0#8

/-- The part of `fat16_resolve` after the stream was created. -/
def resolveWith (kernel : Kernel) (stream fatPrivate : Word) : Option (Int × Kernel) :=
  let transfer := diskStreamRead kernel stream fatHeaderSize
  if transfer.1.result ≠ 0 then some (finishResolve transfer.2 stream fatPrivate (- EIO))
  else
    let read := modifyPrivate transfer.2 fatPrivate ({ · with header := headerOf transfer.1.bytes })
    if FatHeader.signature (read.fatPrivates fatPrivate).header ≠ FAT16_SIGNATURE then
      some (finishResolve read stream fatPrivate (- EIO))
    else
      (fat16GetRootDirectory read fatPrivate).map fun root =>
        finishResolve root.2 stream fatPrivate (if root.1 ≠ 0 then - EIO else 0)

/-- `fat16_resolve`. -/
def fat16Resolve (kernel : Kernel) : Option (Int × Kernel) :=
  let fatPrivate := kzalloc kernel sizeofPrivateData
  let initialized := fat16InitPrivateData fatPrivate.2 fatPrivate.1
  let bound := withDisk initialized ⟨true, fatPrivate.1⟩
  let stream := createDiskStream bound
  if stream.1 = 0#32 then some (finishResolve stream.2 stream.1 fatPrivate.1 (- ENOMEM))
  else resolveWith stream.2 stream.1 fatPrivate.1

/-! ## Opening -/

/-- The loop of `fat16_get_directory_entry`.  The type of an item is compared
with an attribute of a directory entry. -/
def descend : List PathPart -> Kernel -> Word -> Option (Word × Kernel)
  | [], kernel, currentItem => some (currentItem, kernel)
  | next :: rest, kernel, currentItem =>
      if (kernel.fatItems currentItem).type ≠ FAT_FILE_SUBDIRECTORY.setWidth 32 then some (0#32, kernel)
      else
        let directory := kernel.fatDirectories (kernel.fatItems currentItem).pointer
        (fat16FindItemInDirectory kernel directory next.text).bind fun tmpItem =>
          descend rest (fat16FatItemFree tmpItem.2 currentItem) tmpItem.1

/-- `fat16_get_directory_entry`, for a path of at least one part. -/
def fat16GetDirectoryEntry (kernel : Kernel) (path : PathPart) (next : List PathPart) : Option (Word × Kernel) :=
  (fat16FindItemInDirectory kernel (privateOf kernel).rootDir path.text).bind fun rootItem =>
    if rootItem.1 = 0#32 then some (0#32, rootItem.2) else descend next rootItem.2 rootItem.1

/-- The modes of `fopen`. -/
inductive FileMode where
  | read
  | write
  | append
  | invalid
deriving DecidableEq

/-- A change of the FAT descriptor at an address. -/
def storeFatFileDescriptor (kernel : Kernel) (address : Word) (record : FatFileDescriptor) : Kernel :=
  kernel.withStore
    { kernel.toStore with fatFileDescriptors := Function.update kernel.fatFileDescriptors address record }

/-- `fat16_open`, for a path of at least one part. -/
def fat16Open (kernel : Kernel) (path : PathPart) (next : List PathPart) (mode : FileMode) : Option (Word × Kernel) :=
  if mode ≠ .read then some (errPtr (- EROFS), kernel)
  else
    let fatFd := kzalloc kernel 8#32
    if fatFd.1 = 0#32 then some (errPtr (- ENOMEM), fatFd.2)
    else
      (fat16GetDirectoryEntry fatFd.2 path next).map fun item =>
        let stored := storeFatFileDescriptor item.2 fatFd.1 ⟨item.1, 0#32⟩
        if item.1 = 0#32 then (errPtr (- EIO), kfree stored fatFd.1) else (fatFd.1, stored)

/-! ## Reading, seeking and closing -/

/-- The slot that a descriptor reads, whatever the union of its item holds. -/
def slotOf (kernel : Kernel) (p : Word) : Slot :=
  slotAt kernel (kernel.fatItems (kernel.fatFileDescriptors p).item).pointer

/-- The loop of `fat16_read`. -/
def readItems (p size : Word) : Nat -> Kernel -> Int -> Word -> Option (Int × Kernel)
  | 0, kernel, _, _ => some (0, kernel)
  | remaining + 1, kernel, offset, out =>
      (fat16ReadInternal kernel (fat16GetFirstCluster (slotOf kernel p)) offset (wordToInt size) out).bind
        fun reading =>
          if reading.res < 0 then some (reading.res, reading.kernel)
          else readItems p size remaining reading.kernel (wrapInt (offset + wordToInt size)) (out + size)

/-- `fat16_read`. -/
def fat16Read (kernel : Kernel) (p size nmemb out : Word) : Option (Int × Kernel) :=
  let offset := wordToInt (kernel.fatFileDescriptors p).pos
  (readItems p size nmemb.toNat kernel offset out).map fun read =>
    if read.1 < 0 then read else (wordToInt nmemb, read.2)

/-- The modes of `fseek`. -/
inductive SeekMode where
  | set
  | cur
  | other
deriving DecidableEq

/-- `fat16_seek`.  Seeking from the end is not implemented. -/
def fat16Seek (kernel : Kernel) (p offset : Word) (seekMode : SeekMode) : Int × Kernel :=
  let fatDesc := kernel.fatFileDescriptors p
  if (kernel.fatItems fatDesc.item).type ≠ FAT_ITEM_TYPE_FILE then (- EINVAL, kernel)
  else if offset.toNat ≥ (slotOf kernel p).filesize then (- EIO, kernel)
  else
    match seekMode with
    | .set => (0, storeFatFileDescriptor kernel p { fatDesc with pos := offset })
    | .cur => (0, storeFatFileDescriptor kernel p { fatDesc with pos := fatDesc.pos + offset })
    | .other => (- EINVAL, kernel)

/-- The bytes from an address up to a NUL, in memory that goes round. -/
def cString (bytes : Word -> Byte) : Nat -> Word -> List Byte
  | 0, _ => []
  | length + 1, address =>
      if bytes address = 0#8 then [] else bytes address :: cString bytes length (address + 1#32)

/-- `strcpy`. -/
def strcpy (kernel : Kernel) (d s : Word) : Kernel := storeBytes kernel d (cString kernel.bytes (2 ^ 32) s ++ [0#8])

/-- The bytes of a field, copied to the same field of another structure. -/
def copyField (kernel : Kernel) (d s : Word) (size : Nat) : Kernel :=
  storeBytes kernel d ((List.range size).map fun place => kernel.bytes (s + BitVec.ofNat 32 place))

/-- The part of `fat16_stat` that copies an entry into the structure. -/
def copyEntry (kernel : Kernel) (item stat : Word) : Kernel :=
  let kernel := strcpy kernel (stat + 4#32) item
  let kernel := strcpy kernel (stat + 12#32) (item + 8#32)
  let kernel :=
    if kernel.bytes (item + 11#32) &&& FAT_FILE_READ_ONLY ≠ 0#8 then
      storeBytes kernel (stat + 15#32) [kernel.bytes (stat + 15#32) ||| 0x01#8]
    else storeBytes kernel (stat + 15#32) [0x00#8]
  let kernel := copyField kernel (stat + 16#32) (item + 12#32) 1
  let kernel := copyField kernel (stat + 18#32) (item + 14#32) 2
  let kernel := copyField kernel (stat + 20#32) (item + 16#32) 2
  let kernel := copyField kernel (stat + 22#32) (item + 18#32) 2
  let kernel := copyField kernel (stat + 24#32) (item + 22#32) 2
  let kernel := copyField kernel (stat + 26#32) (item + 24#32) 2
  copyField kernel (stat + 28#32) (item + 28#32) 4

/-- `fat16_stat`, into the structure at `stat`. -/
def fat16Stat (kernel : Kernel) (p stat : Word) : Int × Kernel :=
  let descItem := kernel.fatItems (kernel.fatFileDescriptors p).item
  if descItem.type ≠ FAT_ITEM_TYPE_FILE then (- EINVAL, kernel) else (0, copyEntry kernel descItem.pointer stat)

/-- `fat16_close`.  Its result is always 0. -/
def fat16Close (kernel : Kernel) (p : Word) : Kernel :=
  kfree (fat16FatItemFree kernel (kernel.fatFileDescriptors p).item) p

end Fs
end LarvaOS
