import LarvaOS.Fs.Fat16Volume
import LarvaOS.Libc.Strings

namespace LarvaOS
namespace Fs

open Disk Libc Memory

/-!
# Directories of a FAT16 volume

A directory is counted by reading one slot of 32 bytes after the other until a
slot begins with `0x00`.  The loop has no other end, and it is given the number
of reads after which the position of the stream has gone through all its values.

The count skips deleted slots, while the slots are copied into memory as they
are and searched from the first one on.
-/

def FAT_ITEM_TYPE_DIRECTORY : Word := 0#32
def FAT_ITEM_TYPE_FILE : Word := 1#32
def FAT_FILE_READ_ONLY : Byte := 0x01#8
def FAT_FILE_SUBDIRECTORY : Byte := 0x10#8

/-- The first byte of a slot that was deleted. -/
def slotDeleted : Byte := 0xE5#8

/-- The size of `struct fat_directory_item`. -/
def slotSize : Nat := 32

/-! ## Slots -/

/-- The bytes of one slot. -/
abbrev Slot := Nat -> Byte

namespace Slot

variable (slot : Slot)

def filename : List Byte := (List.range 8).map slot
def ext : List Byte := (List.range 3).map fun place => slot (8 + place)
def attributeByte : Byte := slot 11
def high16BitsFirstCluster : Int := halfWordAt slot 20
def low16BitsFirstCluster : Int := halfWordAt slot 26
def filesize : Nat := littleEndian [slot 28, slot 29, slot 30, slot 31]

/-- The entry is the entry of a directory. -/
def isSubdirectory : Bool := attributeByte slot &&& FAT_FILE_SUBDIRECTORY ≠ 0#8

end Slot

/-- The slot that is stored at an address. -/
def slotAt (kernel : Kernel) (address : Word) : Slot := fun place => kernel.bytes (address + BitVec.ofNat 32 place)

/-- `fat16_to_proper_string`, on the bytes of the field. -/
def fat16ToProperString (field : List Byte) : List Byte := field.takeWhile fun c => c ≠ 0x00#8 ∧ c ≠ 0x20#8

/-- `fat16_get_full_relative_filename`. -/
def fat16GetFullRelativeFilename (slot : Slot) : List Byte :=
  fat16ToProperString slot.filename ++
    if slot 8 ≠ 0x00#8 ∧ slot 8 ≠ 0x20#8 then 0x2E#8 :: fat16ToProperString slot.ext else []

/-- `fat16_get_first_cluster`. -/
def fat16GetFirstCluster (slot : Slot) : Int :=
  wordToInt (intToWord slot.high16BitsFirstCluster ||| intToWord slot.low16BitsFirstCluster)

/-! ## Counting -/

/-- The loop of `fat16_get_total_items_for_directory`, for a number of reads. -/
def countItems (stream : Word) : Nat -> Kernel -> Int -> Option (Int × Kernel)
  | 0, _, _ => none
  | reads + 1, kernel, total =>
      let item := diskStreamRead kernel stream slotSize
      if item.1.result ≠ 0 then some (- EIO, item.2)
      else if item.1.bytes.headD 0#8 = slotDeleted then countItems stream reads item.2 total
      else if item.1.bytes.headD 0#8 = 0x00#8 then some (total, item.2)
      else countItems stream reads item.2 (total + 1)

/-- The number of reads after which the position is where it began. -/
def scanReads : Nat := 2 ^ 27

/-- `fat16_get_total_items_for_directory`.  A scan that never ends has the value
`none`. -/
def fat16GetTotalItemsForDirectory (kernel : Kernel) (directoryStartSector : Int) : Option (Int × Kernel) :=
  let directoryStartPos := wrapInt (directoryStartSector * DISK_SECTOR_SIZE)
  let stream := (privateOf kernel).directoryStream
  countItems stream scanReads (diskStreamSeek kernel stream directoryStartPos) 0

/-! ## The root directory -/

/-- The first sector of the root directory. -/
def rootDirSectorPos (header : Nat -> Byte) : Int :=
  FatHeader.fatCopies header * FatHeader.sectorsPerFat header + FatHeader.reservedSectors header

/-- The size of the root directory in bytes. -/
def rootDirSize (header : Nat -> Byte) : Int := FatHeader.rootDirEntries header * slotSize

/-- A change of the private data at an address. -/
def modifyPrivate (kernel : Kernel) (address : Word) (change : FatPrivateData -> FatPrivateData) : Kernel :=
  kernel.withStore
    { kernel.toStore with fatPrivates := Function.update kernel.fatPrivates address (change (kernel.fatPrivates address)) }

section Modifying

variable (kernel : Kernel) (address : Word) (change : FatPrivateData -> FatPrivateData)

@[simp] theorem modifyPrivate_heap : (modifyPrivate kernel address change).heap = kernel.heap := rfl

@[simp] theorem modifyPrivate_toGlobals : (modifyPrivate kernel address change).toGlobals = kernel.toGlobals := rfl

@[simp] theorem modifyPrivate_bytes : (modifyPrivate kernel address change).bytes = kernel.bytes := rfl

theorem modifyPrivate_self :
    (modifyPrivate kernel address change).fatPrivates address = change (kernel.fatPrivates address) := by
  unfold modifyPrivate
  exact Function.update_self _ _ _

end Modifying

/-- The part of `fat16_get_root_directory` after the scan: the slots are read
into a buffer, and the directory is described. -/
def loadRootDirectory (kernel : Kernel) (fatPrivate : Word) (totalItems : Int) : Int × Kernel :=
  let header := (kernel.fatPrivates fatPrivate).header
  let dir := kzalloc kernel (intToWord (rootDirSize header))
  if dir.1 = 0#32 then (- ENOMEM, dir.2)
  else
    let stream := (dir.2.fatPrivates fatPrivate).directoryStream
    let sought := diskStreamSeek dir.2 stream (fat16SectorToAbsolute (rootDirSectorPos header))
    let transfer := diskStreamRead sought stream (rootDirSize header)
    if transfer.1.result ≠ 0 then (- EIO, transfer.2)
    else
      (0, modifyPrivate (storeBytes transfer.2 dir.1 transfer.1.bytes) fatPrivate fun record =>
        { record with
          rootDir :=
            { item := dir.1
              total := totalItems
              sectorPos := rootDirSectorPos header
              endingSectorPos := rootDirSectorPos header + (rootDirSize header).tdiv DISK_SECTOR_SIZE } })

/-- `fat16_get_root_directory`, on the root directory of the private data. -/
def fat16GetRootDirectory (kernel : Kernel) (fatPrivate : Word) : Option (Int × Kernel) :=
  (fat16GetTotalItemsForDirectory kernel (rootDirSectorPos (kernel.fatPrivates fatPrivate).header)).map
    fun totalItems => loadRootDirectory totalItems.2 fatPrivate totalItems.1

/-! ## Subdirectories -/

/-- A change of the directory at an address. -/
def storeDirectory (kernel : Kernel) (address : Word) (directory : FatDirectory) : Kernel :=
  kernel.withStore { kernel.toStore with fatDirectories := Function.update kernel.fatDirectories address directory }

/-- `fat16_free_directory`. -/
def fat16FreeDirectory (kernel : Kernel) (directory : Word) : Kernel :=
  if directory = 0#32 then kernel
  else
    let item := (kernel.fatDirectories directory).item
    let kernel := if item ≠ 0#32 then kfree kernel item else kernel
    kfree kernel directory

/-- The size of a directory's slots in bytes. -/
def directorySize (totalItems : Int) : Int := wrapInt (totalItems * slotSize)

/-- The buffer for the slots of a directory, whose record is filled in. -/
def slotBuffer (kernel : Kernel) (directory : Word) (totalItems : Int) : Word × Kernel :=
  let counted := storeDirectory kernel directory { kernel.fatDirectories directory with total := totalItems }
  let items := kzalloc counted (intToWord (directorySize totalItems))
  (items.1, storeDirectory items.2 directory { items.2.fatDirectories directory with item := items.1 })

/-- The part of `fat16_load_fat_directory` after the scan. -/
def loadSlots (kernel : Kernel) (directory : Word) (cluster totalItems : Int) : Option (Word × Kernel) :=
  let items := slotBuffer kernel directory totalItems
  if items.1 = 0#32 then some (directory, fat16FreeDirectory items.2 directory)
  else
    (fat16ReadInternal items.2 cluster 0x00 (directorySize totalItems) items.1).map fun reading =>
      (directory, if reading.res < 0 then fat16FreeDirectory reading.kernel directory else reading.kernel)

/-- `fat16_load_fat_directory`.  After an error it returns the pointer to the
directory that it has freed. -/
def fat16LoadFatDirectory (kernel : Kernel) (slot : Slot) : Option (Word × Kernel) :=
  if !slot.isSubdirectory then some (0#32, fat16FreeDirectory kernel 0#32)
  else
    let directory := kzalloc kernel 16#32
    if directory.1 = 0#32 then some (0#32, fat16FreeDirectory directory.2 0#32)
    else
      let cluster := fat16GetFirstCluster slot
      let clusterSector := fat16ClusterToSector (privateOf directory.2) cluster
      (fat16GetTotalItemsForDirectory directory.2 clusterSector).bind fun totalItems =>
        loadSlots totalItems.2 directory.1 cluster totalItems.1

/-! ## Items -/

/-- `fat16_clone_directory_item`. -/
def fat16CloneDirectoryItem (kernel : Kernel) (slot : Slot) : Word × Kernel :=
  let itemCopy := kzalloc kernel 32#32
  if itemCopy.1 = 0#32 then itemCopy
  else (itemCopy.1, storeBytes itemCopy.2 itemCopy.1 ((List.range slotSize).map slot))

/-- A change of the item at an address. -/
def storeItem (kernel : Kernel) (address : Word) (item : FatItem) : Kernel :=
  kernel.withStore { kernel.toStore with fatItems := Function.update kernel.fatItems address item }

/-- `fat16_make_new_fat_item_for_directory_item`. -/
def fat16MakeNewFatItemForDirectoryItem (kernel : Kernel) (slot : Slot) : Option (Word × Kernel) :=
  let fItem := kzalloc kernel 8#32
  if fItem.1 = 0#32 then some fItem
  else if slot.isSubdirectory then
    (fat16LoadFatDirectory fItem.2 slot).map fun directory =>
      (fItem.1, storeItem directory.2 fItem.1 ⟨directory.1, FAT_ITEM_TYPE_DIRECTORY⟩)
  else
    let item := fat16CloneDirectoryItem fItem.2 slot
    some (fItem.1, storeItem item.2 fItem.1 ⟨item.1, FAT_ITEM_TYPE_FILE⟩)

/-- The indexes of the slots that a search looks at. -/
def visitedSlots (directory : FatDirectory) : List Nat := List.range directory.total.toNat

/-- The address of a slot of a directory. -/
def slotAddress (directory : FatDirectory) (index : Nat) : Word :=
  directory.item + BitVec.ofNat 32 (slotSize * index)

/-- The loop of `fat16_find_item_in_directory`.  A later match replaces an
earlier one. -/
def searchSlots (directory : FatDirectory) (name : List Byte) : List Nat -> Kernel -> Word -> Option (Word × Kernel)
  | [], kernel, item => some (item, kernel)
  | index :: rest, kernel, item =>
      let slot := slotAt kernel (slotAddress directory index)
      if strcasecmp (fat16GetFullRelativeFilename slot) name = 0 then
        (fat16MakeNewFatItemForDirectoryItem kernel slot).bind fun made =>
          searchSlots directory name rest made.2 made.1
      else searchSlots directory name rest kernel item

/-- `fat16_find_item_in_directory`. -/
def fat16FindItemInDirectory (kernel : Kernel) (directory : FatDirectory) (name : List Byte) :
    Option (Word × Kernel) :=
  searchSlots directory name (visitedSlots directory) kernel 0#32

/-- `fat16_fat_item_free`. -/
def fat16FatItemFree (kernel : Kernel) (item : Word) : Kernel :=
  if item = 0#32 then kernel
  else
    let record := kernel.fatItems item
    let kernel :=
      if record.type = FAT_ITEM_TYPE_DIRECTORY then fat16FreeDirectory kernel record.pointer
      else if record.type = FAT_ITEM_TYPE_FILE then kfree kernel record.pointer
      else kernel
    kfree kernel item

end Fs
end LarvaOS
