import LarvaOS.Fs.Fat16Frame
import LarvaOS.Fs.Fat16Resolve
import LarvaOS.Memory.Requests

namespace LarvaOS
namespace Fs

open Library Disk Libc Memory

/-!
# What the file system asks of the heap

Every operation of the file system is a sequence of requests to the heap and of
stores.  It leaves the global variables of the kernel alone, and the table of
file descriptors among them.
-/

variable {first before after : Kernel}

theorem Transferred.requests (transferred : Transferred before after) : Requests before after where
  heap := by
    rw [transferred.heap]
    exact Heap.Requests.refl
  toGlobals := transferred.toGlobals
  refused := by
    rcases transferred with ⟨_, _, rfl⟩
    exact Nat.le_refl _
  records := by
    rcases transferred with ⟨_, _, rfl⟩
    exact fun _ => Or.inl rfl

/-- Nothing is guarded. -/
theorem freshRange_unguarded (kernel : Kernel) (pointer : Word) (count : Nat) :
    FreshRange (fun _ => False) kernel pointer count := fun _ _ _ impossible => absurd impossible id

theorem fat16ReadInternal_transferred {kernel : Kernel} {cluster offset total : Int} {out : Word} {reading : Reading}
    (bound : total < 2 ^ 31) (read : fat16ReadInternal kernel cluster offset total out = some reading) :
    Transferred kernel reading.kernel := by
  have reads : ReadsFresh (fun _ => False) kernel kernel kernel := ⟨Transferred.refl kernel, KeepsObjects.refl _ kernel⟩
  exact (fat16ReadInternal_readsFresh reads bound (freshRange_unguarded kernel out _) read).transferred

theorem fat16GetTotalItemsForDirectory_transferred {kernel : Kernel} {sector : Int} {counted : Int × Kernel}
    (count : fat16GetTotalItemsForDirectory kernel sector = some counted) : Transferred kernel counted.2 := by
  have reads : ReadsFresh (fun _ => False) kernel kernel kernel := ⟨Transferred.refl kernel, KeepsObjects.refl _ kernel⟩
  exact (fat16GetTotalItemsForDirectory_readsFresh reads count).transferred

/-! ## Directories and items -/

theorem fat16FreeDirectory_requests (requests : Requests first before) (directory : Word) :
    Requests first (fat16FreeDirectory before directory) := by
  unfold fat16FreeDirectory
  by_cases null : directory = 0#32
  · rw [if_pos null]
    exact requests
  · rw [if_neg null]
    by_cases none : (before.fatDirectories directory).item = 0#32
    · simp only [none, ne_eq, not_true_eq_false, if_false]
      exact requests.kfree directory
    · simp only [none, ne_eq, not_false_eq_true, if_true]
      exact (requests.kfree _).kfree directory

theorem slotBuffer_requests (requests : Requests first before) (directory : Word) (totalItems : Int) :
    Requests first (slotBuffer before directory totalItems).2 := by
  unfold slotBuffer storeDirectory
  exact ((requests.withStore _ (by rfl)).kzalloc _).withStore _ (by rfl)

theorem loadSlots_requests (requests : Requests first before) {directory : Word} {cluster totalItems : Int}
    {loaded : Word × Kernel} (load : loadSlots before directory cluster totalItems = some loaded) :
    Requests first loaded.2 := by
  have buffer := slotBuffer_requests requests directory totalItems
  unfold loadSlots at load
  by_cases refused : (slotBuffer before directory totalItems).1 = 0#32
  · simp only [refused, if_true] at load
    obtain rfl := Option.some.inj load
    exact fat16FreeDirectory_requests buffer directory
  · simp only [refused, if_false] at load
    rcases Option.map_eq_some_iff.mp load with ⟨reading, read, rfl⟩
    have transferred := fat16ReadInternal_transferred (directorySize_lt totalItems) read
    by_cases failed : reading.res < 0
    · simp only [failed, if_true]
      exact fat16FreeDirectory_requests (buffer.trans transferred.requests) directory
    · simp only [failed, if_false]
      exact buffer.trans transferred.requests

theorem fat16LoadFatDirectory_requests (requests : Requests first before) {slot : Slot} {loaded : Word × Kernel}
    (load : fat16LoadFatDirectory before slot = some loaded) : Requests first loaded.2 := by
  unfold fat16LoadFatDirectory at load
  by_cases file : (!slot.isSubdirectory) = true
  · rw [if_pos file] at load
    obtain rfl := Option.some.inj load
    exact requests
  · rw [if_neg file] at load
    by_cases refused : (kzalloc before 16#32).1 = 0#32
    · simp only [refused, if_true] at load
      obtain rfl := Option.some.inj load
      exact requests.kzalloc 16#32
    · simp only [refused, if_false] at load
      rcases Option.bind_eq_some_iff.mp load with ⟨counted, count, slots⟩
      exact loadSlots_requests
        ((requests.kzalloc 16#32).trans (fat16GetTotalItemsForDirectory_transferred count).requests) slots

theorem fat16CloneDirectoryItem_requests (requests : Requests first before) (slot : Slot) :
    Requests first (fat16CloneDirectoryItem before slot).2 := by
  unfold fat16CloneDirectoryItem
  by_cases refused : (kzalloc before 32#32).1 = 0#32
  · simp only [refused, if_true]
    exact requests.kzalloc 32#32
  · simp only [refused, if_false]
    exact (requests.kzalloc 32#32).withStore _ (by rfl)

theorem fat16MakeNewFatItemForDirectoryItem_requests (requests : Requests first before) {slot : Slot}
    {made : Word × Kernel} (make : fat16MakeNewFatItemForDirectoryItem before slot = some made) :
    Requests first made.2 := by
  unfold fat16MakeNewFatItemForDirectoryItem at make
  by_cases refused : (kzalloc before 8#32).1 = 0#32
  · simp only [refused, if_true] at make
    obtain rfl := Option.some.inj make
    exact requests.kzalloc 8#32
  · simp only [refused, if_false] at make
    by_cases directory : slot.isSubdirectory = true
    · simp only [directory, if_true] at make
      rcases Option.map_eq_some_iff.mp make with ⟨loaded, load, rfl⟩
      exact (fat16LoadFatDirectory_requests (requests.kzalloc 8#32) load).withStore _ (by rfl)
    · simp only [directory, Bool.false_eq_true, if_false] at make
      obtain rfl := Option.some.inj make
      exact (fat16CloneDirectoryItem_requests (requests.kzalloc 8#32) slot).withStore _ (by rfl)

theorem searchSlots_requests (requests : Requests first before) {directory : FatDirectory} {name : List Byte}
    {indexes : List Nat} {item : Word} {found : Word × Kernel}
    (search : searchSlots directory name indexes before item = some found) : Requests first found.2 := by
  induction indexes generalizing before item with
  | nil =>
      obtain rfl := Option.some.inj search
      exact requests
  | cons index rest inductionHypothesis =>
      rw [searchSlots] at search
      by_cases isMatch : strcasecmp (fat16GetFullRelativeFilename (slotAt before (slotAddress directory index))) name = 0
      · simp only [isMatch, if_true] at search
        rcases Option.bind_eq_some_iff.mp search with ⟨made, make, later⟩
        exact inductionHypothesis (fat16MakeNewFatItemForDirectoryItem_requests requests make) later
      · simp only [isMatch, if_false] at search
        exact inductionHypothesis requests search

theorem fat16FatItemFree_requests (requests : Requests first before) (item : Word) :
    Requests first (fat16FatItemFree before item) := by
  unfold fat16FatItemFree
  by_cases null : item = 0#32
  · rw [if_pos null]
    exact requests
  · rw [if_neg null]
    refine Requests.kfree ?_ item
    by_cases directory : (before.fatItems item).type = FAT_ITEM_TYPE_DIRECTORY
    · rw [if_pos directory]
      exact fat16FreeDirectory_requests requests _
    · rw [if_neg directory]
      by_cases file : (before.fatItems item).type = FAT_ITEM_TYPE_FILE
      · rw [if_pos file]
        exact requests.kfree _
      · rw [if_neg file]
        exact requests

/-! ## The operations -/

theorem descend_requests (requests : Requests first before) {next : List PathPart} {currentItem : Word}
    {found : Word × Kernel} (walk : descend next before currentItem = some found) : Requests first found.2 := by
  induction next generalizing before currentItem with
  | nil =>
      obtain rfl := Option.some.inj walk
      exact requests
  | cons part rest inductionHypothesis =>
      rw [descend] at walk
      by_cases stops : (before.fatItems currentItem).type ≠ FAT_FILE_SUBDIRECTORY.setWidth 32
      · rw [if_pos stops] at walk
        obtain rfl := Option.some.inj walk
        exact requests
      · rw [if_neg stops] at walk
        rcases Option.bind_eq_some_iff.mp walk with ⟨tmpItem, search, later⟩
        exact inductionHypothesis (fat16FatItemFree_requests (searchSlots_requests requests search) currentItem) later

theorem fat16GetDirectoryEntry_requests (requests : Requests first before) {path : PathPart} {next : List PathPart}
    {found : Word × Kernel} (walk : fat16GetDirectoryEntry before path next = some found) : Requests first found.2 := by
  unfold fat16GetDirectoryEntry at walk
  rcases Option.bind_eq_some_iff.mp walk with ⟨rootItem, search, later⟩
  have searched := searchSlots_requests requests search
  by_cases missing : rootItem.1 = 0#32
  · rw [if_pos missing] at later
    obtain rfl := Option.some.inj later
    exact searched
  · rw [if_neg missing] at later
    exact descend_requests searched later

theorem fat16Open_requests (requests : Requests first before) {path : PathPart} {next : List PathPart}
    {mode : FileMode} {opened : Word × Kernel} (result : fat16Open before path next mode = some opened) :
    Requests first opened.2 := by
  unfold fat16Open at result
  by_cases writes : mode ≠ .read
  · rw [if_pos writes] at result
    obtain rfl := Option.some.inj result
    exact requests
  · rw [if_neg writes] at result
    by_cases refused : (kzalloc before 8#32).1 = 0#32
    · simp only [refused, if_true] at result
      obtain rfl := Option.some.inj result
      exact requests.kzalloc 8#32
    · simp only [refused, if_false] at result
      rcases Option.map_eq_some_iff.mp result with ⟨item, walk, rfl⟩
      have stored := (fat16GetDirectoryEntry_requests (requests.kzalloc 8#32) walk).withStore
      by_cases missing : item.1 = 0#32
      · simp only [missing, if_true]
        exact (stored _ (by rfl)).kfree _
      · simp only [missing, if_false]
        exact stored _ (by rfl)

theorem fat16Close_requests (requests : Requests first before) (p : Word) : Requests first (fat16Close before p) :=
  (fat16FatItemFree_requests requests _).kfree p

/-! ## Resolving the disk -/

/-- The kernel has changed by requests, by stores and in its disk. -/
structure Mounts (before after : Kernel) : Prop where
  heap : before.heap.Requests after.heap
  toGlobals : after.toGlobals = { before.toGlobals with disk := after.disk }

theorem Mounts.trans (left : Mounts first before) (right : Mounts before after) : Mounts first after where
  heap := left.heap.trans right.heap
  toGlobals := by
    rw [right.toGlobals, left.toGlobals]

theorem Mounts.withDisk (kernel : Kernel) (disk : DiskRecord) : Mounts kernel (withDisk kernel disk) :=
  ⟨Heap.Requests.refl, rfl⟩

theorem requests_mounts (requests : Requests before after) : Mounts before after where
  heap := requests.heap
  toGlobals := by
    rw [requests.toGlobals]

theorem createDiskStream_requests (requests : Requests first before) : Requests first (createDiskStream before).2 :=
  (requests.kzalloc 8#32).withStore _ (by rfl)

theorem keepNewStream_requests (requests : Requests first before) (fatPrivate : Word)
    (field : Word -> FatPrivateData -> FatPrivateData) : Requests first (keepNewStream before fatPrivate field) :=
  (createDiskStream_requests requests).withStore _ (by rfl)

theorem fat16InitPrivateData_requests (requests : Requests first before) (fatPrivate : Word) :
    Requests first (fat16InitPrivateData before fatPrivate) := by
  unfold fat16InitPrivateData
  exact keepNewStream_requests (keepNewStream_requests (keepNewStream_requests (requests.fillZero _ _) _ _) _ _) _ _

theorem loadRootDirectory_requests (kernel : Kernel) (fatPrivate : Word) (totalItems : Int) :
    Requests kernel (loadRootDirectory kernel fatPrivate totalItems).2 := by
  have requests := (Requests.refl kernel).kzalloc (intToWord (rootDirSize (kernel.fatPrivates fatPrivate).header))
  unfold loadRootDirectory
  by_cases refused : (kzalloc kernel (intToWord (rootDirSize (kernel.fatPrivates fatPrivate).header))).1 = 0#32
  · simp only [refused, if_true]
    exact requests
  · simp only [refused, diskStreamRead_result, ne_eq, not_true_eq_false, if_false]
    exact ((((requests.withStore _ (by rfl)).withStore _ (by rfl)).withStore _ (by rfl)).withStore _ (by rfl))

theorem fat16GetRootDirectory_requests {kernel : Kernel} {fatPrivate : Word} {loaded : Int × Kernel}
    (root : fat16GetRootDirectory kernel fatPrivate = some loaded) : Requests kernel loaded.2 := by
  unfold fat16GetRootDirectory at root
  rcases Option.map_eq_some_iff.mp root with ⟨counted, count, rfl⟩
  exact (fat16GetTotalItemsForDirectory_transferred count).requests.trans (loadRootDirectory_requests _ _ _)

theorem finishResolve_mounts (kernel : Kernel) (stream fatPrivate : Word) (res : Int) :
    Mounts kernel (finishResolve kernel stream fatPrivate res).2 := by
  unfold finishResolve
  have released : Requests kernel (if stream ≠ 0#32 then releaseDiskStream kernel stream else kernel) := by
    by_cases created : stream ≠ 0#32
    · rw [if_pos created]
      exact (Requests.refl kernel).kfree stream
    · rw [if_neg created]
      exact Requests.refl kernel
  by_cases failed : res < 0
  · simp only [failed, if_true]
    exact (requests_mounts (released.kfree fatPrivate)).trans (Mounts.withDisk _ _)
  · simp only [failed, if_false]
    exact requests_mounts released

theorem resolveWith_mounts {kernel : Kernel} {stream fatPrivate : Word} {resolved : Int × Kernel}
    (result : resolveWith kernel stream fatPrivate = some resolved) : Mounts kernel resolved.2 := by
  unfold resolveWith at result
  have transferred := Transferred.read kernel stream fatHeaderSize
  simp only [diskStreamRead_result, ne_eq, not_true_eq_false, if_false] at result
  generalize diskStreamRead kernel stream fatHeaderSize = transfer at *
  have read := requests_mounts (transferred.requests.trans ((Requests.refl transfer.2).withStore
    (modifyPrivate transfer.2 fatPrivate ({ · with header := headerOf transfer.1.bytes })).toStore rfl))
  change Mounts kernel (modifyPrivate transfer.2 fatPrivate ({ · with header := headerOf transfer.1.bytes })) at read
  generalize modifyPrivate transfer.2 fatPrivate ({ · with header := headerOf transfer.1.bytes }) = header at *
  by_cases unsigned : ¬ FatHeader.signature (header.fatPrivates fatPrivate).header = FAT16_SIGNATURE
  · rw [if_pos unsigned] at result
    obtain rfl := Option.some.inj result
    exact read.trans (finishResolve_mounts _ _ _ _)
  · rw [if_neg unsigned] at result
    rcases Option.map_eq_some_iff.mp result with ⟨root, load, rfl⟩
    exact (read.trans (requests_mounts (fat16GetRootDirectory_requests load))).trans (finishResolve_mounts _ _ _ _)

theorem fat16Resolve_mounts {kernel : Kernel} {resolved : Int × Kernel} (result : fat16Resolve kernel = some resolved) :
    Mounts kernel resolved.2 := by
  have initialized : Requests kernel (fat16InitPrivateData (kzalloc kernel sizeofPrivateData).2 (privatePointer kernel)) :=
    fat16InitPrivateData_requests ((Requests.refl kernel).kzalloc sizeofPrivateData) _
  have bound : Mounts kernel (boundDisk kernel) := (requests_mounts initialized).trans (Mounts.withDisk _ _)
  have stream : Mounts kernel (bootStream kernel).2 :=
    bound.trans (requests_mounts (createDiskStream_requests (Requests.refl (boundDisk kernel))))
  rw [fat16Resolve_eq] at result
  by_cases refused : (bootStream kernel).1 = 0#32
  · rw [if_pos refused] at result
    obtain rfl := Option.some.inj result
    exact stream.trans (finishResolve_mounts _ _ _ _)
  · rw [if_neg refused] at result
    exact stream.trans (resolveWith_mounts result)

end Fs
end LarvaOS
