import LarvaOS.Fs.Fat16Requests
import LarvaOS.Fs.File
import LarvaOS.Fs.PathSpec

namespace LarvaOS
namespace Fs

open Library Disk Memory

/-!
# What opening and closing a file releases

Whatever `fat16_open` allocates, closing the file follows pointers to fresh
memory only.  Some of them may be stale: after an error in the middle of a
directory its item points to memory that was released before.  Such a release
takes away no guarded allocation, as long as none of these begins the pool.

A request that is served in between may clear what a stale pointer points to.
The pointers in it are then null, which is fresh as well.
-/

/-! ## Cleared objects -/

/-- A cleared range holds what it held before, or zeros. -/
theorem fillZero_cases {Object : Type} (zero : Object) (pointer size : Word) (objects : Word -> Object)
    (address : Word) :
    fillZero zero pointer size objects address = objects address ∨ fillZero zero pointer size objects address = zero := by
  unfold fillZero
  by_cases inside : (address - pointer).toNat < size.toNat
  · rw [if_pos inside]
    exact Or.inr rfl
  · rw [if_neg inside]
    exact Or.inl rfl

/-- The memory after a request. -/
theorem kzalloc_store (kernel : Kernel) (size : Word) :
    (kzalloc kernel size).2.toStore = kernel.toStore ∨
      (kzalloc kernel size).2.toStore = kernel.toStore.fillZero (kzalloc kernel size).1 size := by
  unfold kzalloc kmalloc
  by_cases refused : (malloc kernel.heap size).1 = 0#32
  · left
    simp only [refused, if_true]
  · right
    simp only [refused, if_false]
    rfl

section Clearing

variable (kernel : Kernel) (size address : Word)

theorem kzalloc_fatItems :
    (kzalloc kernel size).2.fatItems address = kernel.fatItems address ∨
      (kzalloc kernel size).2.fatItems address = FatItem.zero := by
  rcases kzalloc_store kernel size with same | cleared
  · exact Or.inl (congrFun (congrArg Store.fatItems same) address)
  · rw [cleared]
    exact fillZero_cases _ _ _ _ _

theorem kzalloc_fatDirectories :
    (kzalloc kernel size).2.fatDirectories address = kernel.fatDirectories address ∨
      (kzalloc kernel size).2.fatDirectories address = FatDirectory.zero := by
  rcases kzalloc_store kernel size with same | cleared
  · exact Or.inl (congrFun (congrArg Store.fatDirectories same) address)
  · rw [cleared]
    exact fillZero_cases _ _ _ _ _

theorem kzalloc_fatFileDescriptors :
    (kzalloc kernel size).2.fatFileDescriptors address = kernel.fatFileDescriptors address ∨
      (kzalloc kernel size).2.fatFileDescriptors address = FatFileDescriptor.zero := by
  rcases kzalloc_store kernel size with same | cleared
  · exact Or.inl (congrFun (congrArg Store.fatFileDescriptors same) address)
  · rw [cleared]
    exact fillZero_cases _ _ _ _ _

end Clearing

section Guarding

variable {guard : Extent -> Prop} {first before : Kernel}

theorem storeFatFileDescriptor_keeps (keeps : KeepsObjects guard first before) {address : Word}
    (fresh : Fresh guard first address) (record : FatFileDescriptor) :
    KeepsObjects guard first (storeFatFileDescriptor before address record) := by
  refine keeps.withStore fun place old => ⟨rfl, rfl, rfl, rfl, rfl, ?_, rfl, rfl, rfl⟩
  have apart : place ≠ address := fun same => old (same ▸ fresh)
  exact Function.update_of_ne apart _ _

/-- A request leaves a safe item safe. -/
theorem SafeItem.kzalloc (placed : first.heap.WellPlaced) {item : Word} (safe : SafeItem guard first before item)
    (size : Word) : SafeItem guard first (Memory.kzalloc before size).2 item := by
  have null : Fresh guard first 0#32 := fresh_null placed
  rcases kzalloc_fatItems before size item with same | cleared
  · refine ⟨safe.fresh, ?_, ?_, ?_⟩
    · rw [same]
      exact safe.kind
    · rw [same]
      exact safe.pointer
    · rw [same]
      intro directory nonNull
      rcases kzalloc_fatDirectories before size (before.fatItems item).pointer with kept | emptied
      · rw [kept]
        exact safe.slots directory nonNull
      · rw [emptied]
        exact null
  · refine ⟨safe.fresh, ?_, ?_, ?_⟩
    · rw [cleared]
      exact Or.inl rfl
    · rw [cleared]
      exact null
    · rw [cleared]
      exact fun _ nonNull => absurd rfl nonNull

/-- What closing a file follows is fresh. -/
structure SafeFile (guard : Extent -> Prop) (first kernel : Kernel) (p : Word) : Prop where
  fresh : Fresh guard first p
  item : (kernel.fatFileDescriptors p).item ≠ 0#32 -> SafeItem guard first kernel (kernel.fatFileDescriptors p).item

theorem SafeFile.kzalloc (placed : first.heap.WellPlaced) {p : Word} (safe : SafeFile guard first before p)
    (size : Word) : SafeFile guard first (Memory.kzalloc before size).2 p := by
  refine ⟨safe.fresh, ?_⟩
  rcases kzalloc_fatFileDescriptors before size p with same | cleared
  · rw [same]
    exact fun nonNull => (safe.item nonNull).kzalloc placed size
  · rw [cleared]
    exact fun nonNull => absurd rfl nonNull

/-! ## Releasing -/

variable (kernelHeap : first.heap.IsKernelHeap) (encoded : first.heap.Encoded)
  (later : forall extent, guard extent -> extent.first ≠ 0)
include kernelHeap encoded later

theorem kfree_keepsFresh (keeps : KeepsObjects guard first before) (requests : first.heap.Requests before.heap) {pointer : Word}
    (fresh : Fresh guard first pointer) : KeepsObjects guard first (kfree before pointer) :=
  keeps.kfree_fresh kernelHeap.wellPlaced (requests.encoded kernelHeap.wellPlaced encoded).2 later fresh

theorem fat16FreeDirectory_keepsFresh (keeps : KeepsObjects guard first before) (requests : first.heap.Requests before.heap)
    {directory : Word} (fresh : Fresh guard first directory)
    (slots : directory ≠ 0#32 -> Fresh guard first (before.fatDirectories directory).item) :
    KeepsObjects guard first (fat16FreeDirectory before directory) := by
  unfold fat16FreeDirectory
  by_cases null : directory = 0#32
  · rw [if_pos null]
    exact keeps
  · rw [if_neg null]
    by_cases none : (before.fatDirectories directory).item = 0#32
    · simp only [none, ne_eq, not_true_eq_false, if_false]
      exact kfree_keepsFresh kernelHeap encoded later keeps requests fresh
    · simp only [none, ne_eq, not_false_eq_true, if_true]
      have released := kfree_keepsFresh kernelHeap encoded later keeps requests (slots null)
      exact kfree_keepsFresh kernelHeap encoded later released (requests.free _) fresh

theorem fat16FatItemFree_keepsFresh (keeps : KeepsObjects guard first before) (requests : first.heap.Requests before.heap)
    {item : Word} (safe : item ≠ 0#32 -> SafeItem guard first before item) :
    KeepsObjects guard first (fat16FatItemFree before item) := by
  unfold fat16FatItemFree
  by_cases null : item = 0#32
  · rw [if_pos null]
    exact keeps
  · rw [if_neg null]
    have found := safe null
    by_cases directory : (before.fatItems item).type = FAT_ITEM_TYPE_DIRECTORY
    · simp only [directory, if_true]
      have released := fat16FreeDirectory_keepsFresh kernelHeap encoded later keeps requests found.pointer
        (found.slots directory)
      exact kfree_keepsFresh kernelHeap encoded later released 
        (requests.trans (fat16FreeDirectory_requests (Requests.refl _) _).heap) found.fresh
    · have file := found.kind.resolve_left directory
      simp only [file, file_ne_directory, if_false, if_true]
      have released := kfree_keepsFresh kernelHeap encoded later keeps requests found.pointer
      exact kfree_keepsFresh kernelHeap encoded later released (requests.free _) found.fresh

theorem fat16Close_keeps (keeps : KeepsObjects guard first before) (requests : first.heap.Requests before.heap) {p : Word}
    (safe : SafeFile guard first before p) : KeepsObjects guard first (fat16Close before p) :=
  kfree_keepsFresh kernelHeap encoded later
    (fat16FatItemFree_keepsFresh kernelHeap encoded later keeps requests safe.item)
    (requests.trans (fat16FatItemFree_requests (Requests.refl _) _).heap) safe.fresh

/-! ## Opening -/

omit kernelHeap encoded later in
/-- A safe item is no directory for the walk, which stops at it. -/
theorem SafeItem.descend_stops {item : Word} (safe : SafeItem guard first before item) (part : PathPart)
    (rest : List PathPart) : descend (part :: rest) before item = some (0#32, before) := by
  have stops : (before.fatItems item).type ≠ FAT_FILE_SUBDIRECTORY.setWidth 32 := by
    rcases safe.kind with directory | file
    · rw [directory]
      decide
    · rw [file]
      decide
  rw [descend, if_pos stops]

omit kernelHeap encoded later in
theorem descend_keeps (keeps : KeepsObjects guard first before) {next : List PathPart} {item : Word}
    (safe : SafeItem guard first before item) {found : Word × Kernel}
    (walk : descend next before item = some found) :
    KeepsObjects guard first found.2 ∧ (found.1 ≠ 0#32 -> SafeItem guard first found.2 found.1) := by
  cases next with
  | nil =>
      obtain rfl := Option.some.inj walk
      exact ⟨keeps, fun _ => safe⟩
  | cons part rest =>
      rw [safe.descend_stops] at walk
      obtain rfl := Option.some.inj walk
      exact ⟨keeps, fun nonNull => absurd rfl nonNull⟩

omit encoded later in
theorem fat16GetDirectoryEntry_keeps (keeps : KeepsObjects guard first before) {path : PathPart} {next : List PathPart}
    {found : Word × Kernel} (walk : fat16GetDirectoryEntry before path next = some found) :
    KeepsObjects guard first found.2 ∧ (found.1 ≠ 0#32 -> SafeItem guard first found.2 found.1) := by
  unfold fat16GetDirectoryEntry at walk
  rcases Option.bind_eq_some_iff.mp walk with ⟨rootItem, search, rest⟩
  rcases searchSlots_keeps kernelHeap keeps (fun nonNull => absurd rfl nonNull) search with ⟨searched, safe⟩
  by_cases missing : rootItem.1 = 0#32
  · rw [if_pos missing] at rest
    obtain rfl := Option.some.inj rest
    exact ⟨searched, fun nonNull => absurd rfl nonNull⟩
  · rw [if_neg missing] at rest
    exact descend_keeps searched (safe missing) rest

theorem fat16Open_keeps (keeps : KeepsObjects guard first before) (requests : first.heap.Requests before.heap) {path : PathPart}
    {next : List PathPart} {mode : FileMode} {opened : Word × Kernel}
    (result : fat16Open before path next mode = some opened) :
    KeepsObjects guard first opened.2 ∧ (isErr opened.1 = false -> SafeFile guard first opened.2 opened.1) := by
  have placed := kernelHeap.wellPlaced
  have allocated := keeps.kzalloc placed 8#32
  unfold fat16Open at result
  by_cases writes : mode ≠ .read
  · rw [if_pos writes] at result
    obtain rfl := Option.some.inj result
    have refusal : isErr (errPtr (- EROFS)) = true := isErr_errPtr (by decide) (by decide)
    exact ⟨keeps, fun noError => absurd (refusal.symm.trans noError) Bool.noConfusion⟩
  · rw [if_neg writes] at result
    by_cases refused : (kzalloc before 8#32).1 = 0#32
    · simp only [refused, if_true] at result
      obtain rfl := Option.some.inj result
      have refusal : isErr (errPtr (-ENOMEM)) = true := isErr_errPtr (by decide) (by decide)
      exact ⟨allocated, fun noError => absurd (refusal.symm.trans noError) Bool.noConfusion⟩
    · simp only [refused, if_false] at result
      rcases Option.map_eq_some_iff.mp result with ⟨item, walk, rfl⟩
      rcases fat16GetDirectoryEntry_keeps kernelHeap allocated walk with ⟨walked, safe⟩
      rcases keeps.acquired placed refused with ⟨extent, acquired, _⟩
      have fresh := acquired.fresh_pointer placed allocated.pool
      have stored : KeepsObjects guard first (storeFatFileDescriptor item.2 (kzalloc before 8#32).1 ⟨item.1, 0#32⟩) :=
        storeFatFileDescriptor_keeps walked fresh _
      have requested := requests.trans (fat16GetDirectoryEntry_requests ((Requests.refl before).kzalloc 8#32) walk).heap
      by_cases missing : item.1 = 0#32
      · rw [missing] at stored
        simp only [missing, if_true]
        have refusal : isErr (errPtr (- EIO)) = true := isErr_errPtr (by decide) (by decide)
        exact ⟨kfree_keepsFresh kernelHeap encoded later stored requested fresh,
          fun noError => absurd (refusal.symm.trans noError) Bool.noConfusion⟩
      · simp only [missing, if_false]
        refine ⟨stored, fun _ => ⟨fresh, fun _ => ?_⟩⟩
        have here : (storeFatFileDescriptor item.2 (kzalloc before 8#32).1 ⟨item.1, 0#32⟩).fatFileDescriptors
            (kzalloc before 8#32).1 = ⟨item.1, 0#32⟩ := by
          unfold storeFatFileDescriptor
          exact Function.update_self _ _ _
        rw [here]
        have found := safe missing
        exact ⟨found.fresh, found.kind, found.pointer, found.slots⟩

end Guarding

end Fs
end LarvaOS
