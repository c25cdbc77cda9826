import LarvaOS.Fs.DirectorySearch
import LarvaOS.Fs.Fat16Requests

namespace LarvaOS
namespace Fs

open Library Disk Memory

/-!
# A mounted disk

Once the disk was accepted, the private data and the slots of the root directory
lie in allocations that nothing releases.  Whatever is done by requests to the
heap, and keeps what is allocated, leaves the file system as it was.
-/

/-- The disk is mounted: its clusters are not empty, the private data lies in an
allocation, and the root directory is in memory. -/
structure MountedRoot (kernel : Kernel) (mark : Nat) : Prop where
  kernelHeap : kernel.heap.IsKernelHeap
  fatPrivate : exists extent, kernel.heap.Owns extent ∧ kernel.heap.InExtent extent kernel.disk.fsPrivateData
  sized : sizeOfClusterBytes (privateOf kernel) ≠ 0
  root : RootLoaded (storedRoot (driveOf kernel) (privateOf kernel).header) mark kernel (privateOf kernel).rootDir

/-- The private data lie in an allocation, whatever they are. -/
structure VolumeHeld (kernel : Kernel) : Prop where
  kernelHeap : kernel.heap.IsKernelHeap
  fatPrivate : exists extent, kernel.heap.Owns extent ∧ kernel.heap.InExtent extent kernel.disk.fsPrivateData

/-- The private data lie in an allocation, and the root directory is in memory. -/
structure RootHeld (kernel : Kernel) (mark : Nat) : Prop where
  held : VolumeHeld kernel
  root : RootLoaded (storedRoot (driveOf kernel) (privateOf kernel).header) mark kernel (privateOf kernel).rootDir

theorem MountedRoot.held {kernel : Kernel} {mark : Nat} (mounted : MountedRoot kernel mark) : VolumeHeld kernel :=
  ⟨mounted.kernelHeap, mounted.fatPrivate⟩

/-- Such private data stay while the allocations are kept. -/
theorem VolumeHeld.privateOf_keep {kernel after : Kernel} (held : VolumeHeld kernel)
    (keeps : KeepsObjects (fun _ => True) kernel after) (disk : after.disk.fsPrivateData = kernel.disk.fsPrivateData) :
    privateOf after = privateOf kernel := by
  rcases held.fatPrivate with ⟨extent, owned, inside⟩
  unfold privateOf
  rw [disk]
  exact (keeps.same extent trivial owned _ inside).fatPrivates

/-- A mounted disk stays mounted while its allocations are kept. -/
theorem MountedRoot.keep {kernel after : Kernel} {mark : Nat} (mounted : MountedRoot kernel mark)
    (keeps : KeepsObjects (fun _ => True) kernel after) (disk : after.disk.fsPrivateData = kernel.disk.fsPrivateData)
    (drive : driveOf after = driveOf kernel) : MountedRoot after mark := by
  have fatPrivate := mounted.held.privateOf_keep keeps disk
  rcases mounted.fatPrivate with ⟨extent, owned, inside⟩
  rcases mounted.root.owned with ⟨guard, slots⟩
  refine ⟨mounted.kernelHeap.samePool keeps.pool,
    ⟨extent, keeps.owns extent trivial owned, ?_⟩, ?_, ?_, ⟨guard, ?_⟩, ?_⟩
  · rw [disk]
    exact keeps.pool.inExtent.mpr inside
  · rw [fatPrivate]
    exact mounted.sized
  · rw [drive, fatPrivate]
    exact mounted.root.total
  · rw [fatPrivate]
    intro index below place within
    rcases slots index below place within with ⟨other, guarded, otherOwned, otherInside⟩
    exact ⟨other, guarded, keeps.owns other trivial otherOwned, keeps.pool.inExtent.mpr otherInside⟩
  · rw [drive, fatPrivate]
    intro index below place within
    rcases slots index below place within with ⟨other, _, otherOwned, otherInside⟩
    exact (keeps.same other trivial otherOwned _ otherInside).bytes.trans (mounted.root.same index below place within)

/-- A mounted disk stays mounted while neither the bytes nor the private data change. -/
theorem MountedRoot.of_same {kernel after : Kernel} {mark : Nat} (mounted : MountedRoot kernel mark)
    (heap : after.heap = kernel.heap) (bytes : after.bytes = kernel.bytes) (privates : after.fatPrivates = kernel.fatPrivates)
    (disk : after.disk.fsPrivateData = kernel.disk.fsPrivateData) (drive : driveOf after = driveOf kernel) :
    MountedRoot after mark := by
  have fatPrivate : privateOf after = privateOf kernel := by
    unfold privateOf
    rw [disk, privates]
  refine ⟨heap ▸ mounted.kernelHeap, ?_, ?_, ?_, ?_, ?_⟩
  · rw [heap, disk]
    exact mounted.fatPrivate
  · rw [fatPrivate]
    exact mounted.sized
  · rw [drive, fatPrivate]
    exact mounted.root.total
  · rw [fatPrivate]
    unfold SlotsOwned
    rw [heap]
    exact mounted.root.owned
  · rw [drive, fatPrivate]
    unfold memorySlot slotAt
    rw [bytes]
    exact mounted.root.same

theorem searchFrom_requests {directory : FatDirectory} {name : List Byte} {indexes : List Nat} {search found : Search}
    (same : searchFrom directory name indexes search = some found) : Requests search.kernel found.kernel := by
  have source := searchFrom_eq_searchSlots directory name indexes search
  rw [same] at source
  exact searchSlots_requests (Requests.refl search.kernel) source.symm

/-- The kernel has changed by requests, and everything that was allocated is as
it was. -/
structure Later (kernel current : Kernel) : Prop where
  keeps : KeepsObjects (fun _ => True) kernel current
  requests : Requests kernel current

theorem Later.refl (kernel : Kernel) : Later kernel kernel := ⟨KeepsObjects.refl _ kernel, Requests.refl kernel⟩

namespace Later

variable {kernel current : Kernel}

theorem drive (later : Later kernel current) : driveOf current = driveOf kernel := driveOf_congr later.requests.toGlobals

section Held

variable (held : VolumeHeld kernel) (later : Later kernel current)
include held later

theorem fatPrivate : privateOf current = privateOf kernel :=
  held.privateOf_keep later.keeps (congrArg (fun globals => globals.disk.fsPrivateData) later.requests.toGlobals)

theorem kzalloc (size : Word) : Later kernel (Memory.kzalloc current size).2 :=
  ⟨later.keeps.kzalloc held.kernelHeap.wellPlaced size, later.requests.kzalloc size⟩

theorem volumeHeld : VolumeHeld current := by
  rcases held.fatPrivate with ⟨extent, owned, inside⟩
  refine ⟨held.kernelHeap.samePool later.keeps.pool, extent, later.keeps.owns extent trivial owned, ?_⟩
  rw [congrArg (fun globals => globals.disk.fsPrivateData) later.requests.toGlobals]
  exact later.keeps.pool.inExtent.mpr inside

theorem sameVolume : SameVolume kernel current := ⟨later.fatPrivate held, later.drive⟩

theorem make {slot : Slot} {made : Word × Kernel} (same : fat16MakeNewFatItemForDirectoryItem current slot = some made) :
    Later kernel made.2 :=
  ⟨(fat16MakeNewFatItemForDirectoryItem_keeps held.kernelHeap later.keeps same).1,
    fat16MakeNewFatItemForDirectoryItem_requests later.requests same⟩

end Held

/-- The slots of a directory stay as they are. -/
theorem sameSlot {guard : Extent -> Prop} {directory : FatDirectory} (owned : SlotsOwned guard kernel directory)
    (later : Later kernel current) {index : Nat} (inside : index < directory.total.toNat) :
    SameSlot (memorySlot current directory index) (memorySlot kernel directory index) := by
  intro place within
  rcases owned index inside place within with ⟨extent, _, extentOwned, inExtent⟩
  exact (later.keeps.same extent trivial extentOwned _ inExtent).bytes

theorem slots {mark : Nat} (mounted : MountedRoot kernel mark) (later : Later kernel current) {index : Nat}
    (inside : index < (privateOf kernel).rootDir.total.toNat) :
    SameSlot (memorySlot current (privateOf kernel).rootDir index)
      (memorySlot kernel (privateOf kernel).rootDir index) := by
  rcases mounted.root.owned with ⟨guard, owned⟩
  exact later.sameSlot owned inside

end Later

/-- What was resolved is known as long as the volume stays the same. -/
theorem Resolved.later {kernel resolved after : Kernel} (volume : Resolved kernel resolved)
    (same : SameVolume resolved after) : Resolved kernel after := by
  refine ⟨same.drive.trans volume.drive, ?_, volume.signature, ?_⟩
  · rw [same.fatPrivate]
    exact volume.header
  · rw [same.fatPrivate]
    exact volume.rootDir

/-! ## Mounting -/

theorem SameHeader.storedRoot {header header' : Nat -> Byte} (same : SameHeader header header') (drive : Drive) :
    Fs.storedRoot drive header = Fs.storedRoot drive header' := by
  unfold Fs.storedRoot
  rw [same.rootDirStart, same.rootDirEntries]

theorem SameHeader.rootEnds {header header' : Nat -> Byte} (same : SameHeader header header') {drive : Drive}
    {mark : Nat} (ends : RootEnds drive header' mark) : RootEnds drive header mark := by
  refine ⟨?_, ?_, ?_⟩
  · rw [same.storedRoot]
    exact ends.first
  · rw [same.storedRoot]
    exact ends.inside
  · rw [same.rootDirStart, same.rootDirSize]
    exact ends.bound

theorem fat16GetRootDirectory_owns {kernel : Kernel} (placed : kernel.heap.WellPlaced) {fatPrivate : Word}
    {loaded : Int × Kernel} (root : fat16GetRootDirectory kernel fatPrivate = some loaded) {extent : Extent}
    (owned : kernel.heap.Owns extent) : loaded.2.heap.Owns extent := by
  rcases fat16GetRootDirectory_some root with ⟨mark, _, rfl⟩
  rw [loadRootDirectory_heap]
  have placed' : (rootScanned kernel (kernel.fatPrivates fatPrivate).header mark).heap.WellPlaced := placed
  have owned' : (rootScanned kernel (kernel.fatPrivates fatPrivate).header mark).heap.Owns extent := owned
  exact (keeps_kzalloc (fun _ => True) placed' _).owns extent trivial owned'

/-- A new stream has an allocation apart from the others. -/
theorem createDiskStream_apart {kernel : Kernel} (placed : kernel.heap.WellPlaced) {extent : Extent}
    (owned : kernel.heap.Owns extent) (created : (createDiskStream kernel).1 ≠ 0#32) :
    exists stream, (createDiskStream kernel).2.heap.Owns extent ∧ (createDiskStream kernel).2.heap.Owns stream ∧
      extent.Apart stream ∧ kernel.heap.SamePool (createDiskStream kernel).2.heap ∧
        (createDiskStream kernel).1 = (createDiskStream kernel).2.heap.addressOf stream.first := by
  unfold createDiskStream at *
  rw [diskStreamSeek_heap]
  rcases (KeepsObjects.refl (fun _ => True) kernel).acquired placed created with ⟨stream, acquired, _, apart⟩
  have kept := keeps_kzalloc (fun _ => True) placed 8#32
  exact ⟨stream, kept.owns extent trivial owned, acquired.owned, apart extent owned, kept.pool, acquired.address⟩

/-- The private data and the stream for the boot sector have an allocation each. -/
theorem bootStream_apart {kernel : Kernel} (placed : kernel.heap.WellPlaced) (served : privatePointer kernel ≠ 0#32)
    (created : (bootStream kernel).1 ≠ 0#32) :
    exists fatPrivate stream, (bootStream kernel).2.heap.Owns fatPrivate ∧ (bootStream kernel).2.heap.Owns stream ∧
      fatPrivate.Apart stream ∧ privatePointer kernel = (bootStream kernel).2.heap.addressOf fatPrivate.first ∧
        (bootStream kernel).1 = (bootStream kernel).2.heap.addressOf stream.first := by
  have holds := boundDisk_holds placed
  unfold bootStream at *
  rcases holds.held with null | ⟨fatPrivate, owned, address⟩
  · exact absurd null served
  · rcases createDiskStream_apart holds.placed owned created with ⟨stream, kept, streamOwned, apart, pool, streamAddress⟩
    exact ⟨fatPrivate, stream, kept, streamOwned, apart, address.trans (pool.addressOf _).symm, streamAddress⟩

theorem isKernelHeap_of_kfree {kernel : Kernel} {pointer : Word} (freed : (kfree kernel pointer).heap.IsKernelHeap) :
    kernel.heap.IsKernelHeap := ⟨freed.start, freed.total⟩

/-- The release of an allocation apart from the private data and from the slots
of the root directory leaves both in memory. -/
theorem rootHeld_kfree {kernel : Kernel} (kernelHeap : kernel.heap.IsKernelHeap) {pointer : Word} {freed : Extent}
    (fatPrivate : exists extent, kernel.heap.Owns extent ∧ extent.Apart freed ∧
      kernel.disk.fsPrivateData = kernel.heap.addressOf extent.first)
    (owned : kernel.heap.Owns freed) (address : pointer = kernel.heap.addressOf freed.first) {mark : Nat}
    (root : RootLoaded (storedRoot (driveOf kernel) (privateOf kernel).header) mark kernel (privateOf kernel).rootDir)
    (slots : SlotsOwned (fun other => other.Apart freed) kernel (privateOf kernel).rootDir) :
    RootHeld (kfree kernel pointer) mark := by
  have kept := kfree_keepsApart kernelHeap owned address
  have placed := kernelHeap.wellPlaced
  refine ⟨⟨⟨kernelHeap.start, kernelHeap.total⟩, ?_⟩, root.total, ⟨fun other => other.Apart freed, ?_⟩, root.same⟩
  · rcases fatPrivate with ⟨extent, extentOwned, apart, begins⟩
    refine ⟨extent, kept.owns extent apart extentOwned, kept.pool.inExtent.mpr ?_⟩
    change kernel.heap.InExtent extent kernel.disk.fsPrivateData
    rw [begins]
    refine placed.inExtent_of_page extentOwned ?_
    have positive := extent.nonempty
    rw [BitVec.sub_self, BitVec.toNat_ofNat]
    unfold heapBlockSizeBytes
    omega
  · intro index inside place within
    rcases slots index inside place within with ⟨extent, apart, extentOwned, inExtent⟩
    exact ⟨extent, apart, kept.owns extent apart extentOwned, kept.pool.inExtent.mpr inExtent⟩

/-- A disk that was accepted has its root directory in memory, when the private
data found room and the root directory has an end. -/
theorem fat16Resolve_rootHeld {kernel resolved : Kernel} (kernelHeap : kernel.heap.IsKernelHeap)
    (accepted : fat16Resolve kernel = some (0, resolved)) (served : privatePointer kernel ≠ 0#32) {mark : Nat}
    (ends : RootEnds (driveOf kernel) (bootSector kernel) mark) : RootHeld resolved mark := by
  have placed := kernelHeap.wellPlaced
  have holds := bootStream_holds placed
  have resolvedHeap := kernelHeap.samePool ((fat16Resolve_mounts accepted).heap.samePool placed)
  rw [fat16Resolve_eq] at accepted
  by_cases none : (bootStream kernel).1 = 0#32
  · rw [if_pos none] at accepted
    have res : - ENOMEM = 0 := (finishResolve_failed (bootStream kernel).2 (bootStream kernel).1
      (privatePointer kernel) (by decide)).symm.trans (congrArg Prod.fst (Option.some.inj accepted))
    exact absurd res (by decide)
  · rw [if_neg none] at accepted
    rcases resolveWith_accepted none accepted with ⟨_, loaded, root, rfl⟩
    rcases bootStream_apart placed served none with ⟨fatPrivate, stream, owned, streamOwned, apart, address, streamAddress⟩
    have header := headerRead_header (bootStream kernel).2 (bootStream kernel).1 (privatePointer kernel)
      (createDiskStream_pos (boundDisk kernel))
    rw [bootSector_congr holds.drive] at header
    have readHeap := headerRead_heap (bootStream kernel).2 (bootStream kernel).1 (privatePointer kernel)
    have readHolds := headerRead_holds holds (bootStream kernel).1
    have disk := headerRead_disk kernel (bootStream kernel).1 (privatePointer kernel)
    rw [← readHeap] at owned streamOwned address streamAddress
    generalize headerRead (bootStream kernel).2 (bootStream kernel).1 (privatePointer kernel) = read at *
    rw [← readHolds.drive] at ends
    have rootEnds := header.rootEnds ends
    rcases fat16GetRootDirectory_loaded readHolds.placed readHolds.held root with ⟨globals, loadedHeader, _⟩
    rcases fat16GetRootDirectory_rootBuffer readHolds.placed root rootEnds with ⟨slots, buffer⟩
    have owns := fat16GetRootDirectory_owns readHolds.placed root owned
    have streamOwns := fat16GetRootDirectory_owns readHolds.placed root streamOwned
    have pool := fat16GetRootDirectory_pool readHolds.placed root
    have record : loaded.disk = ⟨true, privatePointer kernel⟩ := (congrArg Globals.disk globals).trans disk
    have drive : driveOf loaded = driveOf read := driveOf_congr globals
    have bound : privateOf loaded = loaded.fatPrivates (privatePointer kernel) := by
      rw [privateOf, record]
    have loadedHeap := isKernelHeap_of_kfree resolvedHeap
    refine rootHeld_kfree loadedHeap ⟨fatPrivate, owns, apart, ?_⟩ streamOwns
      (streamAddress.trans (pool.addressOf _).symm) ?_ ?_
    · rw [record]
      exact address.trans (pool.addressOf _).symm
    · rw [bound, drive, loadedHeader]
      exact ⟨buffer.total, ⟨_, buffer.owned⟩, buffer.same⟩
    · rw [bound]
      intro index inside place within
      rcases buffer.owned index inside place within with ⟨extent, rfl, extentOwned, inExtent⟩
      exact ⟨extent, (buffer.apart stream streamOwned).symm, extentOwned, inExtent⟩

/-- It is mounted, when its clusters are not empty. -/
theorem fat16Resolve_mountedRoot {kernel resolved : Kernel} (kernelHeap : kernel.heap.IsKernelHeap)
    (accepted : fat16Resolve kernel = some (0, resolved)) (served : privatePointer kernel ≠ 0#32)
    (sized : FatHeader.sectorsPerCluster (bootSector kernel) ≠ 0) {mark : Nat}
    (ends : RootEnds (driveOf kernel) (bootSector kernel) mark) : MountedRoot resolved mark := by
  have volume := fat16Resolve_resolved kernelHeap.wellPlaced accepted
  rcases fat16Resolve_rootHeld kernelHeap accepted served ends with ⟨⟨resolvedHeap, fatPrivate⟩, root⟩
  refine ⟨resolvedHeap, fatPrivate, ?_, root⟩
  rw [sizeOfClusterBytes, volume.header.sectorsPerCluster]
  unfold DISK_SECTOR_SIZE
  omega

end Fs
end LarvaOS
