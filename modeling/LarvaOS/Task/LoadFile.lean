import LarvaOS.Fs.OpenTable
import LarvaOS.Fs.ReadEnd
import LarvaOS.Fs.StringCopy
import LarvaOS.Task.ProcessSpec

namespace LarvaOS
namespace Tasks

open Disk Fs Library Memory

/-!
# A load that succeeds

The file of a volume is loaded by a booted kernel.  The record takes two blocks,
the open six, the image one, the stack four and the task 1027.

Between the open and the start of the process every change of memory is either a
request or a store below the heap or into the new image, so that the file stays
open as it was.
-/

/-! ## The length of a file -/

section Stores

variable {first current : Kernel} (kernelHeap : first.heap.IsKernelHeap)
  (reads : ReadsFresh (fun _ => True) first first current)
include kernelHeap reads

/-- A store below the heap. -/
theorem storeBytes_low {address : Word} {bytes : List Byte} (low : address.toNat + bytes.length ≤ 0x01000000) :
    ReadsFresh (fun _ => True) first first (storeBytes current address bytes) := by
  refine reads.stored fun place inside => ?_
  refine freshRange_low kernelHeap place ?_
  rw [BitVec.sub_zero]
  have bound := address.isLt
  rw [BitVec.toNat_sub] at inside
  omega

theorem strcpy_low {d s : Word} {place : Nat} (ends : current.bytes (s + BitVec.ofNat 32 place) = 0#8)
    (low : d.toNat + place + 1 ≤ 0x01000000) : ReadsFresh (fun _ => True) first first (strcpy current d s) := by
  have length := cString_length (2 ^ 32) ends
  refine storeBytes_low kernelHeap reads ?_
  rw [List.length_append, List.length_singleton]
  omega

theorem copyField_low {d : Word} (s : Word) {size : Nat} (low : d.toNat + size ≤ 0x01000000) :
    ReadsFresh (fun _ => True) first first (copyField current d s size) := by
  refine storeBytes_low kernelHeap reads ?_
  rw [List.length_map, List.length_range]
  exact low

end Stores

/-- A byte of the entry of an open file. -/
theorem ReadsFresh.entry {kernel current : Kernel} {item : Word} {slot : Slot}
    (reads : ReadsFresh (fun _ => True) kernel kernel current) (file : FileItem kernel item slot) {place : Nat}
    (within : place < slotSize) :
    current.bytes ((kernel.fatItems item).pointer + BitVec.ofNat 32 place) = slot place := by
  rcases file.copied with ⟨extent, owned, inside⟩
  exact (reads.keeps.same extent trivial owned _ (inside place within)).bytes.trans (file.same place within)

/-- The field `filesize`, as it is copied. -/
theorem statFilesize_copied {kernel : Kernel} {pointer : Word} {slot : Slot} (stat : Word)
    (entry : forall place, place < slotSize -> kernel.bytes (pointer + BitVec.ofNat 32 place) = slot place) :
    statFilesize (copyField kernel (stat + 28#32) (pointer + 28#32) 4) stat = BitVec.ofNat 32 slot.filesize := by
  have copied (place : Nat) (inside : place < 4) :
      (copyField kernel (stat + 28#32) (pointer + 28#32) 4).bytes (stat + BitVec.ofNat 32 (28 + place)) =
        slot (28 + place) := by
    have fieldPlace (base : Word) : base + BitVec.ofNat 32 (28 + place) = base + 28#32 + BitVec.ofNat 32 place := by
      rw [BitVec.ofNat_add, BitVec.add_assoc]
    rw [fieldPlace, (copyField_fills kernel _ _ (by decide)).inside place inside, ← fieldPlace]
    refine entry _ ?_
    unfold slotSize
    omega
  have bytes : ((List.range 4).map fun place =>
      (copyField kernel (stat + 28#32) (pointer + 28#32) 4).bytes (stat + BitVec.ofNat 32 (28 + place))) =
        (List.range 4).map fun place => slot (28 + place) :=
    List.map_congr_left fun place member => copied place (List.mem_range.mp member)
  unfold statFilesize
  rw [bytes]
  rfl

/-- The fields between the flags and the length. -/
def copyTimes (kernel : Kernel) (stat item : Word) : Kernel :=
  let kernel := copyField kernel (stat + 16#32) (item + 12#32) 1
  let kernel := copyField kernel (stat + 18#32) (item + 14#32) 2
  let kernel := copyField kernel (stat + 20#32) (item + 16#32) 2
  let kernel := copyField kernel (stat + 22#32) (item + 18#32) 2
  let kernel := copyField kernel (stat + 24#32) (item + 22#32) 2
  copyField kernel (stat + 26#32) (item + 24#32) 2

theorem fat16Stat_file {kernel : Kernel} {p item : Word} (stat : Word)
    (file : (kernel.fatItems (kernel.fatFileDescriptors p).item).type = FAT_ITEM_TYPE_FILE)
    (pointer : (kernel.fatItems (kernel.fatFileDescriptors p).item).pointer = item) : exists flags : Byte,
      fat16Stat kernel p stat = (0, copyField (copyTimes (storeBytes (strcpy (strcpy kernel (stat + 4#32) item)
        (stat + 12#32) (item + 8#32)) (stat + 15#32) [flags]) stat item) (stat + 28#32) (item + 28#32) 4) := by
  unfold fat16Stat copyEntry
  simp only [file, pointer, ne_eq, not_true_eq_false, if_false]
  generalize strcpy (strcpy kernel (stat + 4#32) item) (stat + 12#32) (item + 8#32) = named
  by_cases readOnly : named.bytes (item + 11#32) &&& FAT_FILE_READ_ONLY ≠ 0#8
  · refine ⟨named.bytes (stat + 15#32) ||| 0x01#8, ?_⟩
    rw [if_pos readOnly]
    rfl
  · refine ⟨0x00#8, ?_⟩
    rw [if_neg readOnly]
    rfl

section Stat

variable {kernel : Kernel} (kernelHeap : kernel.heap.IsKernelHeap)
include kernelHeap

theorem copyTimes_low {current : Kernel} (reads : ReadsFresh (fun _ => True) kernel kernel current) {stat : Word}
    (low : stat.toNat + 32 ≤ 0x01000000) (item : Word) :
    ReadsFresh (fun _ => True) kernel kernel (copyTimes current stat item) := by
  have field (offset : Nat) (small : offset ≤ 32) : (stat + BitVec.ofNat 32 offset).toNat = stat.toNat + offset := by
    rw [BitVec.toNat_add, BitVec.toNat_ofNat]
    omega
  have below (offset size : Nat) (inside : offset + size ≤ 32) :
      (stat + BitVec.ofNat 32 offset).toNat + size ≤ 0x01000000 := by
    rw [field offset (by omega)]
    omega
  have one := copyField_low kernelHeap reads (item + 12#32) (below 16 1 (by decide))
  have two := copyField_low kernelHeap one (item + 14#32) (below 18 2 (by decide))
  have three := copyField_low kernelHeap two (item + 16#32) (below 20 2 (by decide))
  have four := copyField_low kernelHeap three (item + 18#32) (below 22 2 (by decide))
  have five := copyField_low kernelHeap four (item + 22#32) (below 24 2 (by decide))
  exact copyField_low kernelHeap five (item + 24#32) (below 26 2 (by decide))

/-- The structure has the length of the file.  The name of the entry ends in
front of the field. -/
theorem fat16Stat_filesize {p : Word} {slot : Slot} (opened : FileOpened kernel p slot) (ends : slot 12 = 0#8)
    {stat : Word} (low : stat.toNat + 32 ≤ 0x01000000) : exists after, fat16Stat kernel p stat = (0, after) ∧
      ReadsFresh (fun _ => True) kernel kernel after ∧ statFilesize after stat = BitVec.ofNat 32 slot.filesize := by
  have file := opened.item
  have field (offset : Nat) (small : offset ≤ 32) : (stat + BitVec.ofNat 32 offset).toNat = stat.toNat + offset := by
    rw [BitVec.toNat_add, BitVec.toNat_ofNat]
    omega
  have reads : ReadsFresh (fun _ => True) kernel kernel kernel := ⟨Transferred.refl kernel, KeepsObjects.refl _ kernel⟩
  rcases fat16Stat_file stat file.file rfl with ⟨flags, result⟩
  have entry {current : Kernel} (reads : ReadsFresh (fun _ => True) kernel kernel current) {place : Nat}
      (within : place < slotSize) :
      current.bytes ((kernel.fatItems (kernel.fatFileDescriptors p).item).pointer + BitVec.ofNat 32 place) = slot place :=
    ReadsFresh.entry reads file within
  generalize (kernel.fatItems (kernel.fatFileDescriptors p).item).pointer = pointer at *
  have name : ReadsFresh (fun _ => True) kernel kernel (strcpy kernel (stat + 4#32) pointer) := by
    refine strcpy_low kernelHeap reads ((entry reads (by decide : 12 < slotSize)).trans ends) ?_
    rw [field 4 (by decide)]
    omega
  have ext : ReadsFresh (fun _ => True) kernel kernel
      (strcpy (strcpy kernel (stat + 4#32) pointer) (stat + 12#32) (pointer + 8#32)) := by
    refine @strcpy_low kernel _ kernelHeap name _ _ 4 ?_ ?_
    · rw [BitVec.add_assoc]
      exact (entry name (by decide : 12 < slotSize)).trans ends
    · rw [field 12 (by decide)]
      omega
  generalize strcpy (strcpy kernel (stat + 4#32) pointer) (stat + 12#32) (pointer + 8#32) = named at *
  have flagged : ReadsFresh (fun _ => True) kernel kernel (storeBytes named (stat + 15#32) [flags]) := by
    refine storeBytes_low kernelHeap ext ?_
    rw [field 15 (by decide), List.length_singleton]
    omega
  have times := copyTimes_low kernelHeap flagged low pointer
  refine ⟨_, result, copyField_low kernelHeap times _ ?_, statFilesize_copied stat fun place within => entry times within⟩
  rw [field 28 (by decide)]
  omega

theorem fstat_filesize {fd : Int} {slot : Slot} (held : HeldFile kernel fd slot) (ends : slot 12 = 0#8) {stat : Word}
    (low : stat.toNat + 32 ≤ 0x01000000) : exists after, fstat kernel fd stat = (0, after) ∧
      ReadsFresh (fun _ => True) kernel kernel after ∧ statFilesize after stat = BitVec.ofNat 32 slot.filesize := by
  have descriptor := (@HeldFile.justOpened kernel kernel fd slot held kernelHeap.wellPlaced ⟨rfl, rfl⟩).openFile.descriptor
  rcases fat16Stat_filesize kernelHeap held.opened ends low with ⟨after, result, reads, filesize⟩
  refine ⟨after, ?_, reads, filesize⟩
  unfold fstat
  rw [if_neg descriptor]
  exact result

end Stat

/-- A read into a new allocation. -/
theorem KeepsObjects.filled {guard : Extent -> Prop} {first kernel after : Kernel} (keeps : KeepsObjects guard first kernel)
    {ptr : Word} {count : Nat} {content : Nat -> Byte} (filled : Filled kernel after ptr count content)
    (fresh : FreshRange guard first ptr count) : KeepsObjects guard first after := by
  have outside := filled.bytes.outside
  rcases filled.transferred with ⟨bytes, positions, rfl⟩
  refine keeps.withStore fun place old => ⟨rfl, ?_, rfl, rfl, rfl, rfl, rfl, rfl, rfl⟩
  exact outside place (Nat.not_lt.mp fun inside => old (fresh place inside))

/-! ## The file of a hundred bytes -/

/-- What is left of a load when the image is read. -/
structure ImageLoaded (count first : Nat) (kernel loaded : Kernel) (process : Word) (extent : Extent) : Prop where
  volume : VolumeReady count first loaded
  owned : loaded.heap.Owns extent
  address : process = loaded.heap.addressOf extent.first
  image : ImageAccepted (loaded.processRecords process)
  refused : loaded.refused = kernel.refused

section Binary

variable {count first : Nat} {kernel : Kernel} (volume : VolumeReady count first kernel)
  (early : count + 1 < MAX_FILE_DESCRIPTORS) (fits : first + 7 ≤ 25600) {process : Word} {extent : Extent}
  (owned : kernel.heap.Owns extent) (address : process = kernel.heap.addressOf extent.first) {stat : Word}
  (low : stat.toNat + 32 ≤ 0x01000000)
include volume early fits owned address low

/-- The name may be any other that opens the file. -/
theorem processLoadBinary_file {filename : List Byte}
    (same : fopen kernel filename [0x72#8] = fopen kernel [forwardSlash, 0x41#8] [0x72#8]) : exists loaded,
    processLoadBinary kernel stat filename process = some (0, loaded) ∧
      ImageLoaded (count + 1) (first + 7) kernel loaded process extent := by
  have named := same
  rcases volume.fopen early (by omega) with ⟨opened, opens, openedVolume, keeps, held, unrefused⟩
  rcases fstat_filesize openedVolume.room.kernelHeap held (by decide) low with ⟨stated, stats, reads, filesize⟩
  rw [(by decide : Slot.filesize _ = 100)] at filesize
  have statedVolume := openedVolume.keep reads.keeps reads.transferred.toGlobals
    (openedVolume.room.of_heap reads.transferred.heap)
  have statedHeap := statedVolume.room.kernelHeap
  have heldStated := held.keep openedVolume.room.kernelHeap.wellPlaced reads.keeps
    (congrArg Globals.fileDescriptors reads.transferred.toGlobals)
  rcases statedVolume.room.kzalloc 100#32 (by decide) (show first + 6 + 1 ≤ 25600 by omega) with ⟨served, imageRoom⟩
  have imageKeeps := (keeps_kzalloc (fun _ => True) statedHeap.wellPlaced 100#32).objects
  rcases (KeepsObjects.refl (fun _ => True) stated).acquired statedHeap.wellPlaced served with ⟨image, acquired, enough, _⟩
  have globals := kzalloc_globals stated 100#32
  have accepted := rangeAccepted_kzalloc statedHeap served
  have counted := kzalloc_refused_count stated 100#32
  rw [if_neg served, Nat.add_zero] at counted
  generalize same : kzalloc stated 100#32 = programData at *
  have imageVolume := statedVolume.keep imageKeeps globals imageRoom
  have descriptors : programData.2.fileDescriptors = stated.fileDescriptors := congrArg Globals.fileDescriptors globals
  have justLater := (heldStated.keep statedHeap.wellPlaced imageKeeps descriptors).justOpened
    imageRoom.kernelHeap.wellPlaced ⟨rfl, rfl⟩
  have fresh := (acquired.freshRange statedHeap.wellPlaced imageKeeps.pool).mono enough
  have apart := heldStated.bufferApart statedHeap.wellPlaced imageKeeps descriptors fresh
  rcases fileVolume_fills imageVolume.volume justLater (by decide) (by decide) apart with ⟨after, freads, filled⟩
  have positive : ¬ ((count : Int) + 1 ≤ 0) := by omega
  have result : processLoadBinary kernel stat filename process = some (0, modifyProcess after process
      ({ · with physicalPointer := programData.1, size := 100#32 })) := by
    unfold processLoadBinary
    rw [named, opens, Option.bind_some]
    dsimp only
    rw [if_neg positive]
    simp only [stats, filesize, same, served, freads, Int.lt_irrefl, if_false, Option.map_some]
    rfl
  have heap := filled.transferred.heap
  have whole := keeps.trans (reads.keeps.trans imageKeeps)
  have readVolume := statedVolume.keep (KeepsObjects.filled imageKeeps filled fresh)
    (filled.transferred.toGlobals.trans globals) (imageRoom.of_heap heap)
  refine ⟨_, result, readVolume.of_same rfl rfl rfl rfl rfl rfl, ?_, ?_, ?_, ?_⟩
  · change after.heap.Owns extent
    rw [heap]
    exact whole.owns extent trivial owned
  · change process = after.heap.addressOf extent.first
    rw [heap, whole.pool.addressOf]
    exact address
  · unfold ImageAccepted
    rw [modifyProcess_record]
    exact accepted
  · change after.refused = kernel.refused
    rw [filled.transferred.refused, counted, reads.transferred.refused, unrefused]

end Binary

/-- The record of a process. -/
theorem processInit_keeps {kernel : Kernel} (placed : kernel.heap.WellPlaced)
    (served : (kzalloc kernel sizeofProcess).1 ≠ 0#32) : exists extent,
      Acquired (fun _ => True) kernel (kzalloc kernel sizeofProcess).2 (kzalloc kernel sizeofProcess).1 extent ∧
        KeepsObjects (fun _ => True) kernel (processInit (kzalloc kernel sizeofProcess).2 (kzalloc kernel sizeofProcess).1) := by
  have allocated := keeps_kzalloc (fun _ => True) placed sizeofProcess
  rcases (KeepsObjects.refl (fun _ => True) kernel).acquired placed served with ⟨extent, acquired, enough, _⟩
  exact ⟨extent, acquired,
    (keeps_fillZero allocated ((acquired.freshRange placed allocated.pool).mono enough)).objects⟩

theorem KeepsFiles.volume {count first : Nat} {kernel after : Kernel} (files : KeepsFiles kernel after)
    (volume : VolumeReady count first kernel) : VolumeReady count first after :=
  volume.of_same files.heap files.bytes files.fatPrivates files.disk files.drive files.fileDescriptors

/-! ## The load -/

section Starting

variable {count first : Nat} {kernel : Kernel} (volume : VolumeReady count first kernel) {process : Word}
include volume

/-- A new task takes 1027 blocks. -/
theorem makeNewTask_volume (process : Word) (fits : first + 1027 ≤ 25600) :
    VolumeReady count (first + 1027) (makeNewTask kernel process).2 ∧
      (makeNewTask kernel process).2.refused = kernel.refused := by
  have placed := volume.room.kernelHeap.wellPlaced
  have inside : first + 1027 ≤ kernel.heap.table.total.toNat := by
    rw [volume.room.kernelHeap.total]
    exact fits
  rcases makeNewTask_freeFrom placed process volume.room.free inside with ⟨made, free⟩
  refine ⟨?_, makeNewTask_unrefused placed process volume.room.free inside⟩
  rcases makeNewTask_spec placed process made with ⟨task, blocks, ready, complete, result⟩
  rw [result] at free ⊢
  have linked := KeepsFiles.appendTask ready (kernel.heap.addressOf task)
  generalize appendTask ready (kernel.heap.addressOf task) = appended at *
  have readyFree : ready.heap.FreeFrom (first + 1027) := linked.heap ▸ free
  exact linked.volume (volume.keep complete.keeps.objects complete.globals
    ⟨volume.room.kernelHeap.samePool complete.keeps.pool, readyFree⟩)

variable {extent : Extent} (owned : kernel.heap.Owns extent) (address : process = kernel.heap.addressOf extent.first)
  (image : ImageAccepted (kernel.processRecords process)) (slot : Nat)
include owned address image

theorem startProcess_volume (fits : first + 1027 ≤ 25600) :
    VolumeReady count (first + 1027) (startProcess kernel process slot).kernel ∧
      (startProcess kernel process slot).kernel.refused = kernel.refused := by
  have succeeds := startProcess_succeeds volume.room owned address image slot fits
  have files := KeepsFiles.startProcess succeeds.process
  rcases makeNewTask_volume volume process fits with ⟨made, unrefused⟩
  exact ⟨files.volume made, files.refused.trans unrefused⟩

theorem prepareProcess_volume (filename : List Byte) (fits : first + 1031 ≤ 25600) :
    VolumeReady count (first + 1031) (prepareProcess kernel filename process slot).kernel ∧
      (prepareProcess kernel filename process slot).kernel.refused = kernel.refused := by
  have placed := volume.room.kernelHeap.wellPlaced
  rcases volume.room.kzalloc USER_PROGRAM_STACK_SIZE (by decide) (show first + 4 ≤ 25600 by omega) with ⟨served, later⟩
  rcases prepareProcess_starts placed owned address image slot filename served with
    ⟨prepared, starts, files, preparedOwned, preparedAddress, preparedImage⟩
  have keeps := (keeps_kzalloc (fun _ => True) placed USER_PROGRAM_STACK_SIZE).objects
  have counted := kzalloc_refused_count kernel USER_PROGRAM_STACK_SIZE
  rw [if_neg served, Nat.add_zero] at counted
  have preparedVolume := files.volume (volume.keep keeps (kzalloc_globals kernel USER_PROGRAM_STACK_SIZE) later)
  rcases startProcess_volume preparedVolume preparedOwned preparedAddress preparedImage slot
    (show first + 4 + 1027 ≤ 25600 by omega) with ⟨started, unrefused⟩
  rw [starts]
  exact ⟨started, unrefused.trans (files.refused.trans counted)⟩

end Starting

/-- The file is loaded into a free slot. -/
theorem loadProcess_volume {count first : Nat} {kernel : Kernel} (volume : VolumeReady count first kernel)
    (early : count + 1 < MAX_FILE_DESCRIPTORS) (fits : first + 1040 ≤ 25600) {slot : Nat}
    (free : processGetFreeSlot kernel = some slot) {stat : Word} (low : stat.toNat + 32 ≤ 0x01000000)
    {filename : List Byte}
    (same : forall kernel, fopen kernel filename [0x72#8] = fopen kernel [forwardSlash, 0x41#8] [0x72#8]) :
    exists loading process, loadProcess kernel stat filename = some loading ∧ loading.res = 0 ∧
      loading.process = some process ∧ VolumeReady (count + 1) (first + 1040) loading.kernel ∧
        loading.kernel.refused = kernel.refused ∧ exists loaded,
          processLoadBinary (processInit (kzalloc kernel sizeofProcess).2 (kzalloc kernel sizeofProcess).1) stat filename
            (kzalloc kernel sizeofProcess).1 = some loaded ∧ 0 ≤ loaded.1 := by
  have placed := volume.room.kernelHeap.wellPlaced
  rcases volume.room.kzalloc sizeofProcess (by decide) (show first + 2 ≤ 25600 by omega) with ⟨served, later⟩
  rcases processInit_keeps placed served with ⟨extent, acquired, keeps⟩
  have globals := kzalloc_globals kernel sizeofProcess
  have counted := kzalloc_refused_count kernel sizeofProcess
  rw [if_neg served, Nat.add_zero] at counted
  unfold loadProcess
  rw [free]
  dsimp only
  unfold processLoadForSlot
  rw [if_neg (processGetFreeSlot_empty free)]
  dsimp only
  rw [if_neg served]
  generalize kzalloc kernel sizeofProcess = record at *
  have initialVolume : VolumeReady count (first + 2) (processInit record.2 record.1) :=
    volume.keep keeps globals (later.of_heap rfl)
  rcases processLoadBinary_file initialVolume early (by omega) acquired.owned acquired.address low (same _) with
    ⟨loaded, binary, image⟩
  have prepared := prepareProcess_succeeds image.volume.room image.owned image.address image.image slot filename (by omega)
  rcases prepareProcess_volume image.volume image.owned image.address image.image slot filename (by omega) with
    ⟨last, unrefused⟩
  rw [binary]
  refine ⟨_, record.1, rfl, prepared.res, prepared.process, last, ?_, _, rfl, Int.le_refl 0⟩
  exact unrefused.trans (image.refused.trans counted)

theorem boot_freeSlot {store : Store} {sectors : Int -> Nat -> Byte} {stray entries : Int -> Byte} {booted : Kernel}
    (boots : boot (Kernel.loaded store sectors stray) entries = some booted) : processGetFreeSlot booted = some 0 := by
  unfold processGetFreeSlot
  rw [(boot_booted boots).processes]
  rfl

/-- The load of that file succeeds, and leaves the file open. -/
theorem fileVolume_loads_as {stat : Word} (low : stat.toNat + 32 ≤ 0x01000000) {filename : List Byte}
    (same : forall kernel, fopen kernel filename [0x72#8] = fopen kernel [forwardSlash, 0x41#8] [0x72#8]) :
    exists booted loading process, boot fileVolume (fun _ => 0#8) = some booted ∧
      loadProcess booted stat filename = some loading ∧ loading.res = 0 ∧
        loading.process = some process ∧ booted.fileDescriptors 0 = 0#32 ∧ loading.kernel.fileDescriptors 0 ≠ 0#32 := by
  rcases fileVolume_booted with ⟨booted, boots, times⟩
  rcases loadProcess_volume times.ready (by decide) (by decide) (boot_freeSlot boots) low same with
    ⟨loading, process, loads, succeeds, stored, last, _⟩
  exact ⟨booted, loading, process, boots, loads, succeeds, stored, times.empty 0 (Nat.le_refl 0),
    last.taken 0 Nat.zero_lt_one⟩

theorem fileVolume_loads {stat : Word} (low : stat.toNat + 32 ≤ 0x01000000) : exists booted loading process,
    boot fileVolume (fun _ => 0#8) = some booted ∧
      loadProcess booted stat [forwardSlash, 0x41#8] = some loading ∧ loading.res = 0 ∧
        loading.process = some process ∧ booted.fileDescriptors 0 = 0#32 ∧ loading.kernel.fileDescriptors 0 ≠ 0#32 :=
  fileVolume_loads_as low fun _ => rfl

end Tasks
end LarvaOS
