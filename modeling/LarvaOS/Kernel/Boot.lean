import LarvaOS.Fs.File
import LarvaOS.Fs.Mounted
import LarvaOS.Memory.PagingSpec

namespace LarvaOS

open Disk Fs Library Memory

/-!
# Booting

`arch::initialize` creates the kernel heap, mounts the disk and builds the
address space of the kernel.  What it does besides concerns no state of this
model.  A disk whose root directory has no end keeps the kernel from booting.

A booted kernel has an entry table that encodes the allocations of the boot, no
open file, no process and no task.
-/

/-- `vfs::initialize`. -/
def vfsInitialize (kernel : Kernel) : Option Kernel := diskInit (fsInit kernel)

/-- `vm::initialize`. -/
def vmInitialize (kernel : Kernel) : Kernel :=
  let kvm := makeNew4GBVirtualMemoryAddressSpace kernel 0b00000111#8
  switchToKernelPage (pagingInstallKernelPage kvm.2 kvm.1)

/-- `arch::initialize`, up to the first process. -/
def boot (kernel : Kernel) (entries : Int -> Byte) : Option Kernel :=
  (vfsInitialize (kheapInit kernel entries)).map vmInitialize

/-! ## The heap -/

theorem switchToPage_heap (kernel : Kernel) (directory : Word) : (switchToPage kernel directory).heap = kernel.heap := rfl

theorem pagingInstallKernelPage_heap (kernel : Kernel) (kernelPage : Word) :
    (pagingInstallKernelPage kernel kernelPage).heap = kernel.heap := by
  unfold pagingInstallKernelPage
  split <;> rfl

theorem vmInitialize_heap (kernel : Kernel) :
    (vmInitialize kernel).heap = (makeNew4GBVirtualMemoryAddressSpace kernel 0b00000111#8).2.heap := by
  unfold vmInitialize switchToKernelPage
  rw [switchToPage_heap, pagingInstallKernelPage_heap]

theorem diskInit_mounts {kernel mounted : Kernel} (result : diskInit kernel = some mounted) : Mounts kernel mounted := by
  unfold diskInit at result
  rcases Option.map_eq_some_iff.mp result with ⟨resolved, resolve, rfl⟩
  exact ((Mounts.withDisk kernel _).trans (fat16Resolve_mounts resolve)).trans (Mounts.withDisk _ _)

/-! ## A booted kernel -/

/-- The heap of a booted kernel, and its tables. -/
structure Booted (kernel : Kernel) : Prop where
  kernelHeap : kernel.heap.IsKernelHeap
  encoded : kernel.heap.Encoded
  fileDescriptors : kernel.fileDescriptors = fun _ => 0#32
  processes : kernel.processes = fun _ => 0#32
  headTask : kernel.headTask = 0#32

theorem pagingInstallKernelPage_tables (kernel : Kernel) (kernelPage : Word) :
    (switchToKernelPage (pagingInstallKernelPage kernel kernelPage)).fileDescriptors = kernel.fileDescriptors ∧
      (switchToKernelPage (pagingInstallKernelPage kernel kernelPage)).processes = kernel.processes ∧
      (switchToKernelPage (pagingInstallKernelPage kernel kernelPage)).headTask = kernel.headTask ∧
      (switchToKernelPage (pagingInstallKernelPage kernel kernelPage)).disk = kernel.disk := by
  unfold pagingInstallKernelPage
  split <;> exact ⟨rfl, rfl, rfl, rfl⟩

theorem boot_booted {store : Store} {sectors : Int -> Nat -> Byte} {stray : Int -> Byte} {entries : Int -> Byte}
    {booted : Kernel} (boots : boot (Kernel.loaded store sectors stray) entries = some booted) : Booted booted := by
  unfold boot vfsInitialize at boots
  rcases Option.map_eq_some_iff.mp boots with ⟨mounted, mounting, rfl⟩
  have kernelHeap := kheapInit_isKernelHeap (Kernel.loaded store sectors stray) entries
  have mounts := diskInit_mounts mounting
  have globals := mounts.toGlobals
  have requests : (kheapInit (Kernel.loaded store sectors stray) entries).heap.Requests mounted.heap := mounts.heap
  have space := makeNew4GB_requests mounted 0b00000111#8
  have all := requests.trans space.heap
  rw [← vmInitialize_heap] at all
  rcases all.encoded kernelHeap.wellPlaced (kheapInit_encoded _ _) with ⟨pool, encoded⟩
  unfold vmInitialize at *
  rcases pagingInstallKernelPage_tables (makeNew4GBVirtualMemoryAddressSpace mounted 0b00000111#8).2
    (makeNew4GBVirtualMemoryAddressSpace mounted 0b00000111#8).1 with ⟨files, processes, head, _⟩
  refine ⟨kernelHeap.samePool pool, encoded, ?_, ?_, ?_⟩
  · exact files.trans ((congrArg Globals.fileDescriptors space.toGlobals).trans (congrArg Globals.fileDescriptors globals))
  · exact processes.trans ((congrArg Globals.processes space.toGlobals).trans (congrArg Globals.processes globals))
  · exact head.trans ((congrArg Globals.headTask space.toGlobals).trans (congrArg Globals.headTask globals))

/-! ## Disks that let the kernel boot -/

theorem vmInitialize_room {kernel : Kernel} {first : Nat} (room : RoomFrom kernel first) (fits : first + 1026 ≤ 25600) :
    RoomFrom (vmInitialize kernel) (first + 1026) := by
  have placed := room.kernelHeap.wellPlaced
  have inside : first + 1026 ≤ kernel.heap.table.total.toNat := by
    rw [room.kernelHeap.total]
    exact fits
  rcases makeNew4GB_freeFrom placed 0b00000111#8 room.free inside with ⟨_, free⟩
  rcases (makeNew4GB_requests kernel 0b00000111#8).heap.samePool placed with pool
  refine RoomFrom.of_heap ⟨room.kernelHeap.samePool pool, free⟩ (vmInitialize_heap kernel)

/-- A disk with the signature and a root directory that has slots and an end
boots into a heap with room. -/
theorem boot_room (store : Store) {sectors : Int -> Nat -> Byte} (stray : Int -> Byte) (entries : Int -> Byte)
    (signed : FatHeader.signature (sectors 0) = FAT16_SIGNATURE) (slots : FatHeader.rootDirEntries (sectors 0) ≠ 0)
    {mark : Nat} (ends : DirectoryEnds ⟨sectors, stray⟩ (rootDirStart (sectors 0)) mark) :
    exists booted, boot (Kernel.loaded store sectors stray) entries = some booted ∧ RoomFrom booted 1543 ∧
      booted.disk.fs = true := by
  have room : RoomFrom (withDisk (fsInit (kheapInit (Kernel.loaded store sectors stray) entries)) ⟨false, 0#32⟩) 0 :=
    ⟨kheapInit_isKernelHeap _ _, kheapInit_freeFrom _ _⟩
  rcases fat16Resolve_room room signed slots ends with ⟨resolved, accepted, later⟩
  have mounting : vfsInitialize (kheapInit (Kernel.loaded store sectors stray) entries) =
      some (withDisk resolved { resolved.disk with fs := true }) := by
    unfold vfsInitialize diskInit
    rw [accepted]
    rfl
  refine ⟨_, congrArg (Option.map vmInitialize) mounting, vmInitialize_room (later.of_heap (withDisk_heap _ _))
    (by decide), ?_⟩
  have space := makeNew4GB_requests (withDisk resolved { resolved.disk with fs := true }) 0b00000111#8
  rcases pagingInstallKernelPage_tables
    (makeNew4GBVirtualMemoryAddressSpace (withDisk resolved { resolved.disk with fs := true }) 0b00000111#8).2
    (makeNew4GBVirtualMemoryAddressSpace (withDisk resolved { resolved.disk with fs := true }) 0b00000111#8).1 with
    ⟨_, _, _, disk⟩
  exact congrArg DiskRecord.fs (disk.trans (congrArg Globals.disk space.toGlobals))

theorem pagingInstallKernelPage_memory (kernel : Kernel) (kernelPage : Word) :
    (switchToKernelPage (pagingInstallKernelPage kernel kernelPage)).heap = kernel.heap ∧
      (switchToKernelPage (pagingInstallKernelPage kernel kernelPage)).toStore = kernel.toStore ∧
      driveOf (switchToKernelPage (pagingInstallKernelPage kernel kernelPage)) = driveOf kernel := by
  unfold pagingInstallKernelPage
  split <;> exact ⟨rfl, rfl, rfl⟩

theorem vmInitialize_keeps {kernel : Kernel} (placed : kernel.heap.WellPlaced) :
    KeepsObjects (fun _ => True) kernel (vmInitialize kernel) ∧ (vmInitialize kernel).disk = kernel.disk ∧
      driveOf (vmInitialize kernel) = driveOf kernel := by
  have keeps := ((Keeps.refl (fun _ => True) kernel).spaceMade placed 0b00000111#8).1
  have globals := makeNew4GB_globals kernel 0b00000111#8
  unfold vmInitialize
  generalize makeNew4GBVirtualMemoryAddressSpace kernel 0b00000111#8 = kvm at *
  rcases pagingInstallKernelPage_memory kvm.2 kvm.1 with ⟨heap, store, drive⟩
  rcases pagingInstallKernelPage_tables kvm.2 kvm.1 with ⟨_, _, _, disk⟩
  exact ⟨(keeps.globals heap store).objects, disk.trans (congrArg Globals.disk globals),
    drive.trans (driveOf_congr globals)⟩

/-- The file system of the disk, once it was resolved. -/
theorem withDisk_keeps (kernel : Kernel) (disk : DiskRecord) :
    KeepsObjects (fun _ => True) kernel (withDisk kernel disk) :=
  (KeepsObjects.refl _ kernel).of_same rfl fun _ _ => Store.SameObjects.refl _ _

/-- A disk that has a file system is mounted. -/
theorem diskInit_mountedRoot {kernel initial : Kernel} (room : RoomFrom kernel 0)
    (mounting : diskInit kernel = some initial) (fs : initial.disk.fs = true)
    (sized : FatHeader.sectorsPerCluster (bootSector kernel) ≠ 0) {mark : Nat}
    (ends : RootEnds (driveOf kernel) (bootSector kernel) mark) :
    MountedRoot initial mark ∧ Resolved kernel initial := by
  unfold diskInit at mounting
  rcases Option.map_eq_some_iff.mp mounting with ⟨resolved, resolve, rfl⟩
  have empty : RoomFrom (withDisk kernel ⟨false, 0#32⟩) 0 := room.of_heap rfl
  have succeeded : resolved.1 = 0 := of_decide_eq_true fs
  have accepted : fat16Resolve (withDisk kernel ⟨false, 0#32⟩) = some (0, resolved.2) :=
    resolve.trans (congrArg some (Prod.ext succeeded rfl))
  have volume := fat16Resolve_resolved empty.kernelHeap.wellPlaced accepted
  have mountedRoot := fat16Resolve_mountedRoot empty.kernelHeap accepted
    (empty.kzalloc sizeofPrivateData (by decide) (by decide)).1 sized ends
  exact ⟨mountedRoot.keep (withDisk_keeps _ _) rfl rfl, volume.drive, volume.header, volume.signature, volume.rootDir⟩

theorem vmInitialize_mountedRoot {kernel : Kernel} {mark : Nat} (mounted : MountedRoot kernel mark) :
    MountedRoot (vmInitialize kernel) mark ∧ SameVolume kernel (vmInitialize kernel) := by
  rcases vmInitialize_keeps mounted.kernelHeap.wellPlaced with ⟨keeps, disk, drive⟩
  generalize vmInitialize kernel = after at *
  have sameData := congrArg DiskRecord.fsPrivateData disk
  exact ⟨mounted.keep keeps sameData drive, mounted.held.privateOf_keep keeps sameData, drive⟩

/-- A disk whose root directory has slots and an end, and whose clusters are not
empty, is mounted when the kernel has booted. -/
theorem boot_mounted (store : Store) {sectors : Int -> Nat -> Byte} (stray : Int -> Byte) (entries : Int -> Byte)
    (signed : FatHeader.signature (sectors 0) = FAT16_SIGNATURE) (slots : FatHeader.rootDirEntries (sectors 0) ≠ 0)
    (sized : FatHeader.sectorsPerCluster (sectors 0) ≠ 0) {mark : Nat}
    (ends : RootEnds ⟨sectors, stray⟩ (sectors 0) mark) :
    exists booted, boot (Kernel.loaded store sectors stray) entries = some booted ∧ RoomFrom booted 1543 ∧
      booted.disk.fs = true ∧ MountedRoot booted mark ∧ Resolved (Kernel.loaded store sectors stray) booted := by
  rcases boot_room store stray entries signed slots ends.directoryEnds with ⟨booted, boots, room, fs⟩
  refine ⟨booted, boots, room, ?_⟩
  unfold boot vfsInitialize at boots
  rcases Option.map_eq_some_iff.mp boots with ⟨initial, mounting, rfl⟩
  have empty : RoomFrom (fsInit (kheapInit (Kernel.loaded store sectors stray) entries)) 0 :=
    ⟨kheapInit_isKernelHeap _ _, kheapInit_freeFrom _ _⟩
  have initialHeap := empty.kernelHeap.samePool ((diskInit_mounts mounting).heap.samePool empty.kernelHeap.wellPlaced)
  have disk := (vmInitialize_keeps initialHeap.wellPlaced).2.1
  rw [disk] at fs
  rcases diskInit_mountedRoot empty mounting fs sized ends with ⟨mounted, volume⟩
  rcases vmInitialize_mountedRoot mounted with ⟨mountedLater, same⟩
  rw [disk]
  exact ⟨fs, mountedLater, (volume.later same).drive, (volume.later same).header, volume.signature,
    (volume.later same).rootDir⟩

/-- The table of such a disk has a stream. -/
theorem boot_table {store : Store} {sectors : Int -> Nat -> Byte} {stray : Int -> Byte} {entries : Int -> Byte}
    {booted : Kernel} (boots : boot (Kernel.loaded store sectors stray) entries = some booted) (fs : booted.disk.fs = true)
    (sized : FatHeader.sectorsPerCluster (sectors 0) ≠ 0) {mark : Nat} (ends : RootEnds ⟨sectors, stray⟩ (sectors 0) mark) :
    (privateOf booted).fatReadStream ≠ 0#32 := by
  unfold boot vfsInitialize at boots
  rcases Option.map_eq_some_iff.mp boots with ⟨initial, mounting, rfl⟩
  have empty : RoomFrom (fsInit (kheapInit (Kernel.loaded store sectors stray) entries)) 0 :=
    ⟨kheapInit_isKernelHeap _ _, kheapInit_freeFrom _ _⟩
  have initialHeap := empty.kernelHeap.samePool ((diskInit_mounts mounting).heap.samePool empty.kernelHeap.wellPlaced)
  rw [(vmInitialize_keeps initialHeap.wellPlaced).2.1] at fs
  rw [(vmInitialize_mountedRoot (diskInit_mountedRoot empty mounting fs sized ends).1).2.fatPrivate]
  unfold diskInit at mounting
  rcases Option.map_eq_some_iff.mp mounting with ⟨resolved, resolve, rfl⟩
  have bare : RoomFrom (withDisk (fsInit (kheapInit (Kernel.loaded store sectors stray) entries)) ⟨false, 0#32⟩) 0 :=
    empty.of_heap rfl
  have succeeded : resolved.1 = 0 := of_decide_eq_true fs
  have accepted : fat16Resolve (withDisk (fsInit (kheapInit (Kernel.loaded store sectors stray) entries)) ⟨false, 0#32⟩) =
      some (0, resolved.2) := resolve.trans (congrArg some (Prod.ext succeeded rfl))
  have table := fat16Resolve_table bare accepted
  exact table

end LarvaOS
