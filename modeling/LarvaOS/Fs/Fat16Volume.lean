import LarvaOS.Disk.Stream

namespace LarvaOS
namespace Fs

open Disk

/-!
# The FAT16 volume

The private data of the file system holds the boot sector's header, the root
directory and three streams.  The table of clusters is read two bytes at a
time, and a file is read cluster by cluster; each step of the recursion walks
the chain from the first cluster again.

A header with no sectors in a cluster makes the source divide by zero, and a
function that would do so has the value `none`.
-/

def FAT16_SIGNATURE : Byte := 0x29#8
def FAT16_FAT_ENTRY_SIZE : Int := 0x02
def FAT16_BAD_SECTOR : Int := 0xFF7

/-! ## The header -/

/-- The value of bytes with the least significant one first. -/
def littleEndian : List Byte -> Nat
  | [] => 0
  | byte :: rest => byte.toNat + 256 * littleEndian rest

/-- A field of two bytes of a packed structure. -/
def halfWordAt (bytes : Nat -> Byte) (offset : Nat) : Int :=
  littleEndian [bytes offset, bytes (offset + 1)]

/-- The size of `struct fat_h`. -/
def fatHeaderSize : Nat := 62

namespace FatHeader

variable (header : Nat -> Byte)

def sectorsPerCluster : Int := (header 13).toNat
def reservedSectors : Int := halfWordAt header 14
def fatCopies : Int := (header 16).toNat
def rootDirEntries : Int := halfWordAt header 17
def sectorsPerFat : Int := halfWordAt header 22
def signature : Byte := header 38

end FatHeader

/-- The private data of the disk. -/
def privateOf (kernel : Kernel) : FatPrivateData := kernel.fatPrivates kernel.disk.fsPrivateData

/-- The size of a cluster in bytes. -/
def sizeOfClusterBytes (fatPrivate : FatPrivateData) : Int :=
  FatHeader.sectorsPerCluster fatPrivate.header * DISK_SECTOR_SIZE

/-- `fat16_sector_to_absolute`. -/
def fat16SectorToAbsolute (sector : Int) : Int := wrapInt (sector * DISK_SECTOR_SIZE)

/-- `fat16_cluster_to_sector`. -/
def fat16ClusterToSector (fatPrivate : FatPrivateData) (cluster : Int) : Int :=
  wrapInt (fatPrivate.rootDir.endingSectorPos + (cluster - 2) * FatHeader.sectorsPerCluster fatPrivate.header)

/-- `fat16_get_first_fat_sector`. -/
def fat16GetFirstFatSector (fatPrivate : FatPrivateData) : Word :=
  intToWord (FatHeader.reservedSectors fatPrivate.header)

/-! ## The file allocation table -/

/-- The position at which the entry of a cluster is read. -/
def fatEntryPosition (fatPrivate : FatPrivateData) (cluster : Int) : Int :=
  let fatTablePosition := fat16GetFirstFatSector fatPrivate * intToWord DISK_SECTOR_SIZE
  wordToInt (fatTablePosition * intToWord (cluster * FAT16_FAT_ENTRY_SIZE))

/-- `fat16_get_fat_entry`. -/
def fat16GetFatEntry (kernel : Kernel) (cluster : Int) : Int × Kernel :=
  let stream := (privateOf kernel).fatReadStream
  if stream = 0#32 then (- EIO, kernel)
  else
    let kernel := diskStreamSeek kernel stream (fatEntryPosition (privateOf kernel) cluster)
    let transfer := diskStreamRead kernel stream 2
    if transfer.1.result < 0 then (transfer.1.result, transfer.2)
    else (littleEndian transfer.1.bytes, transfer.2)

/-- The entries at which `fat16_get_cluster_for_offset` gives up. -/
def chainStops (entry : Int) : Bool :=
  entry == 0xFF8 || entry == 0xFFF || entry == FAT16_BAD_SECTOR || entry == 0xFF0 || entry == 0xFF6 || entry == 0x00

/-- The loop of `fat16_get_cluster_for_offset`, for a way to look entries up.
The argument counts the clusters that are still ahead. -/
def followClusters {State : Type} (getFatEntry : State -> Int -> Int × State) : Nat -> State -> Int -> Int × State
  | 0, state, clusterToUse => (clusterToUse, state)
  | ahead + 1, state, clusterToUse =>
      let entry := getFatEntry state clusterToUse
      if chainStops entry.1 then (- EIO, entry.2) else followClusters getFatEntry ahead entry.2 entry.1

/-- `fat16_get_cluster_for_offset`, for a way to look entries up. -/
def clusterForOffset (getFatEntry : Kernel -> Int -> Int × Kernel) (kernel : Kernel) (startingCluster offset : Int) :
    Option (Int × Kernel) :=
  let size := sizeOfClusterBytes (privateOf kernel)
  if size = 0 then none
  else
    let clustersAhead := offset.tdiv size
    some (followClusters getFatEntry clustersAhead.toNat kernel startingCluster)

/-- `fat16_get_cluster_for_offset`. -/
def fat16GetClusterForOffset (kernel : Kernel) (startingCluster offset : Int) : Option (Int × Kernel) :=
  clusterForOffset fat16GetFatEntry kernel startingCluster offset

/-! ## Reading a chain of clusters -/

/-- Bytes stored one after the other from an address on. -/
def storeBytes (kernel : Kernel) (address : Word) (bytes : List Byte) : Kernel :=
  kernel.withStore
    { kernel.toStore with
      bytes := fun place => (bytes[(place - address).toNat]?).getD (kernel.bytes place) }

section Storing

variable (kernel : Kernel) (address : Word) (bytes : List Byte)

@[simp] theorem storeBytes_heap : (storeBytes kernel address bytes).heap = kernel.heap := rfl

@[simp] theorem storeBytes_toGlobals : (storeBytes kernel address bytes).toGlobals = kernel.toGlobals := rfl

@[simp] theorem storeBytes_fatPrivates : (storeBytes kernel address bytes).fatPrivates = kernel.fatPrivates := rfl

theorem storeBytes_bytes (place : Word) :
    (storeBytes kernel address bytes).bytes place =
      (bytes[(place - address).toNat]?).getD (kernel.bytes place) := rfl

end Storing

/-- What a read of a chain comes to: its result, the position and the length of
each request that it makes to the stream, and the kernel. -/
structure Reading where
  res : Int
  requests : List (Int × Int)
  kernel : Kernel

/-- The position in the volume of a byte of a cluster. -/
def clusterPosition (fatPrivate : FatPrivateData) (cluster offsetFromCluster : Int) : Int :=
  let startingSector := fat16ClusterToSector fatPrivate cluster
  wrapInt (wrapInt (startingSector * DISK_SECTOR_SIZE) + offsetFromCluster)

/-- The length of the next request. -/
def chunkLength (size total : Int) : Int := if total > size then size else total

/-- The request of one call of `fat16_read_internal_from_stream`. -/
def readChunk (kernel : Kernel) (stream : Word) (position totalToRead : Int) (out : Word) : Reading :=
  let sought := diskStreamSeek kernel stream position
  let transfer := diskStreamRead sought stream totalToRead
  if transfer.1.result < 0 then ⟨transfer.1.result, [(position, totalToRead)], transfer.2⟩
  else ⟨transfer.1.result, [(position, totalToRead)], storeBytes transfer.2 out transfer.1.bytes⟩

/-- A request followed by the rest of a read. -/
def Reading.andThen (first rest : Reading) : Reading where
  res := rest.res
  requests := first.requests ++ rest.requests
  kernel := rest.kernel

/-- `fat16_read_internal_from_stream`, with at most `more` recursive calls. -/
def readClusters : Nat -> Kernel -> Word -> Int -> Int -> Int -> Word -> Option Reading
  | more, kernel, stream, cluster, offset, total, out =>
      match fat16GetClusterForOffset kernel cluster offset with
      | none => none
      | some clusterToUse =>
          if clusterToUse.1 < 0 then some ⟨clusterToUse.1, [], clusterToUse.2⟩
          else
            let fatPrivate := privateOf clusterToUse.2
            let size := sizeOfClusterBytes fatPrivate
            let position := clusterPosition fatPrivate clusterToUse.1 (offset.tmod size)
            let totalToRead := chunkLength size total
            let chunk := readChunk clusterToUse.2 stream position totalToRead out
            if chunk.res < 0 then some chunk
            else
              match more with
              | 0 => some chunk
              | more + 1 =>
                  if total - totalToRead > 0 then
                    (readClusters more chunk.kernel stream cluster (wrapInt (offset + totalToRead))
                      (total - totalToRead) (out + intToWord totalToRead)).map chunk.andThen
                  else some chunk

/-- `fat16_read_internal_from_stream`.  Each recursive call has fewer bytes
left, since a cluster is not empty. -/
def fat16ReadInternalFromStream (kernel : Kernel) (stream : Word) (cluster offset total : Int) (out : Word) :
    Option Reading :=
  readClusters total.toNat kernel stream cluster offset total out

/-- `fat16_read_internal`. -/
def fat16ReadInternal (kernel : Kernel) (startingCluster offset total : Int) (out : Word) : Option Reading :=
  fat16ReadInternalFromStream kernel (privateOf kernel).clusterReadStream startingCluster offset total out

end Fs
end LarvaOS
