import LarvaOS.Fs.FileCalls
import LarvaOS.Fs.OpenFiles

namespace LarvaOS
namespace Fs

open Library Disk Memory

/-!
# What the numbers of open files resolve to

A session is a run of file calls together with a ledger: the numbers that `fopen`
has returned and that were not closed since, each with the descriptor that was
made for it.  The ledger is no part of the kernel.

The table agrees with the ledger as long as the allocations of the open files have
no block in common.  Two things break the agreement at once: the number of the last
slot is one that `get_file_descriptor` refuses, and a descriptor that the heap
refuses leaves its slot empty.
-/

/-! ## The ledger -/

/-- The descriptor that `fopen` makes. -/
def fopenDescriptor (kernel : Kernel) (fileName modeOfOperation : List Byte) : Word :=
  match fopenAttempt kernel fileName modeOfOperation with
  | none => 0#32
  | some fdPrivateData => (makeNewFileDescriptor fdPrivateData.2).2.1

/-- The ledger without a number. -/
def withoutNumber (files : List (Int × Word)) (fd : Int) : List (Int × Word) := files.filter fun file => file.1 ≠ fd

/-- The kernel, and the open numbers with their descriptors. -/
structure Session where
  kernel : Kernel
  files : List (Int × Word)

/-- The ledger after a call has returned. -/
def Session.book (session : Session) (returned : Int) : FileCall -> List (Int × Word)
  | .fopen fileName modeOfOperation =>
      if 0 < returned then (returned, fopenDescriptor session.kernel fileName modeOfOperation) :: session.files
      else session.files
  | .fclose fd => if returned = 0 then withoutNumber session.files fd else session.files
  | _ => session.files

/-- One step of a session, which is over when a call does not return. -/
def sessionStep (state : Option Session) (call : FileCall) : Option Session :=
  state.bind fun session =>
    (call.run session.kernel).map fun returned => ⟨returned.2, session.book returned.1 call⟩

/-- No number is that of two open files, an open number resolves to the descriptor
that was made for it, and every other number to `NULL`. -/
structure Session.Resolves (session : Session) : Prop where
  distinct : (session.files.map Prod.fst).Nodup
  opened : forall file, file ∈ session.files ->
    file.2 ≠ 0#32 ∧ getFileDescriptor session.kernel file.1 = file.2
  closed : forall number, number ∉ session.files.map Prod.fst -> getFileDescriptor session.kernel number = 0#32

theorem Session.Resolves.resolve {session : Session} (resolves : session.Resolves) {number : Int} {descriptor : Word}
    (member : (number, descriptor) ∈ session.files) :
    descriptor ≠ 0#32 ∧ getFileDescriptor session.kernel number = descriptor := resolves.opened (number, descriptor) member

/-! ## Opening -/

section Opening

variable {kernel : Kernel} {path mode : List Byte} {p : Word × Kernel} (kernelHeap : kernel.heap.IsKernelHeap) (fits : PathFits kernel path)
include kernelHeap fits

/-- The open of the file system takes nothing away, and a whole item is new. -/
theorem fopenAttempt_gained (attempt : fopenAttempt kernel path mode = some p) :
    KeepsObjects (fun _ => True) kernel p.2 ∧ p.2.fileDescriptors = kernel.fileDescriptors ∧
      (isErr p.1 = false -> WholeItem p.2 (p.2.fatFileDescriptors p.1).item -> exists extents,
        Gained kernel p.2 (itemObjects p.2 (p.2.fatFileDescriptors p.1).item ++ [p.1]) extents) := by
  rcases pathParse_keeps kernelHeap (KeepsObjects.refl (fun _ => True) kernel) (Requests.refl kernel) fits with
    ⟨kept, requests⟩
  rcases fopenAttempt_some attempt with ⟨root, next, parsed, parses, _, _, opens⟩
  rw [parses] at kept requests
  rcases fat16Open_gained kernelHeap kept opens with ⟨walked, gained⟩
  exact ⟨walked, congrArg Globals.fileDescriptors (fat16Open_requests requests opens).toGlobals, gained⟩

/-- What an open does to the allocations, and to the table: it fails, or it binds a
new descriptor to the lowest empty slot. -/
theorem fopen_outcome {opened : Int × Kernel} (opens : fopen kernel path mode = some opened) :
    (opened.1 = 0 ∧ KeepsObjects (fun _ => True) kernel opened.2 ∧
      opened.2.fileDescriptors = kernel.fileDescriptors) ∨
    exists p slot, fopenAttempt kernel path mode = some p ∧ isErr p.1 = false ∧
      freeSlot p.2.fileDescriptors = some slot ∧
      opened = ((slot : Int) + 1, bindDescriptor (kzalloc p.2 sizeofFileDescriptor).2 slot
        (kzalloc p.2 sizeofFileDescriptor).1 p.1) := by
  rcases fopen_cases opens with rfl | ⟨p, attempt, rfl⟩
  · rcases pathParse_keeps kernelHeap (KeepsObjects.refl (fun _ => True) kernel) (Requests.refl kernel) fits with
      ⟨kept, requests⟩
    exact Or.inl ⟨rfl, kept, congrArg Globals.fileDescriptors requests.toGlobals⟩
  · rcases fopenAttempt_gained kernelHeap fits attempt with ⟨keeps, table, _⟩
    unfold fopenEnd
    cases failed : isErr p.1 with
    | true =>
        rw [if_pos rfl, fopenResult_ptrErr failed]
        exact Or.inl ⟨rfl, keeps, table⟩
    | false =>
        rw [if_neg Bool.false_ne_true]
        cases free : freeSlot p.2.fileDescriptors with
        | none =>
            rw [openDescriptor_full free]
            exact Or.inl ⟨rfl, keeps, table⟩
        | some slot => exact Or.inr ⟨p, slot, attempt, failed, free, openDescriptor_free free p.1⟩

/-- An open takes nothing away. -/
theorem fopen_keeps {opened : Int × Kernel} (opens : fopen kernel path mode = some opened) :
    KeepsObjects (fun _ => True) kernel opened.2 := by
  have placed := kernelHeap.wellPlaced
  rcases fopen_outcome kernelHeap fits opens with ⟨_, keeps, _⟩ | ⟨p, slot, attempt, _, _, rfl⟩
  · exact keeps
  · have keeps := (fopenAttempt_gained kernelHeap fits attempt).1
    have fresh := keeps.fresh ((freshRange_kzalloc (fun _ => True) (keeps.pool.wellPlaced placed) sizeofFileDescriptor).base
      (by decide))
    have allocated := keeps.kzalloc placed sizeofFileDescriptor
    generalize kzalloc p.2 sizeofFileDescriptor = fd at *
    dsimp only
    exact bindDescriptor_keeps allocated fresh slot p.1

end Opening

/-- Whatever is refused after the path is parsed is counted on top. -/
theorem fopen_counts {kernel : Kernel} {path mode : List Byte} {opened : Int × Kernel}
    (opens : fopen kernel path mode = some opened) : (pathParse kernel path).2.refused ≤ opened.2.refused := by
  rcases fopen_cases opens with rfl | ⟨p, attempt, rfl⟩
  · exact Nat.le_refl _
  · rcases fopenAttempt_some attempt with ⟨root, next, parsed, parses, _, _, fatOpens⟩
    rw [parses]
    have counted := (fat16Open_requests (Requests.refl parsed) fatOpens).refused
    unfold fopenEnd
    cases failed : isErr p.1 with
    | true =>
        rw [if_pos rfl]
        exact counted
    | false =>
        rw [if_neg Bool.false_ne_true]
        cases free : freeSlot p.2.fileDescriptors with
        | none =>
            rw [openDescriptor_full free]
            exact counted
        | some slot =>
            rw [openDescriptor_free free, bindDescriptor_refused]
            exact Nat.le_trans counted ((Requests.refl p.2).kzalloc sizeofFileDescriptor).refused

/-- The global variables are the same, but for the table of file descriptors. -/
def OnlyDescriptors (before after : Kernel) : Prop :=
  after.toGlobals = { before.toGlobals with fileDescriptors := after.fileDescriptors }

theorem OnlyDescriptors.of_globals {before after : Kernel} (same : after.toGlobals = before.toGlobals) :
    OnlyDescriptors before after := by
  unfold OnlyDescriptors
  rw [← same]

theorem OnlyDescriptors.trans {first before after : Kernel} (left : OnlyDescriptors first before)
    (right : OnlyDescriptors before after) : OnlyDescriptors first after := by
  unfold OnlyDescriptors at *
  rw [right, left]

theorem bindDescriptor_onlyDescriptors (kernel : Kernel) (slot : Nat) (fd p : Word) :
    OnlyDescriptors kernel (bindDescriptor kernel slot fd p) := by
  unfold OnlyDescriptors bindDescriptor storeSlot
  split <;> rfl

theorem fopen_onlyDescriptors {kernel : Kernel} {path mode : List Byte} (kernelHeap : kernel.heap.IsKernelHeap)
    (fits : PathFits kernel path) {opened : Int × Kernel} (opens : fopen kernel path mode = some opened) :
    OnlyDescriptors kernel opened.2 := by
  rcases fopen_requests kernelHeap fits opens with ⟨allocated, requests, rfl | ⟨slot, fd, p, _, rfl⟩⟩
  · exact OnlyDescriptors.of_globals requests.toGlobals
  · have bound := bindDescriptor_onlyDescriptors allocated slot fd p
    generalize bindDescriptor allocated slot fd p = after at bound ⊢
    exact (OnlyDescriptors.of_globals requests.toGlobals).trans bound

/-- The descriptor of the ledger is the one that was requested. -/
theorem fopenDescriptor_eq {kernel : Kernel} {path mode : List Byte} {p : Word × Kernel} {slot : Nat}
    (attempt : fopenAttempt kernel path mode = some p) (free : freeSlot p.2.fileDescriptors = some slot) :
    fopenDescriptor kernel path mode = (kzalloc p.2 sizeofFileDescriptor).1 := by
  unfold fopenDescriptor makeNewFileDescriptor
  rw [attempt]
  dsimp only
  rw [free]

/-! ## One open file -/

/-- An open file is numbered by its slot, and its objects are allocations. -/
structure FileEntry (kernel : Kernel) (number : Int) (descriptor : Word) (extents : List Extent) : Prop where
  positive : 0 < number
  below : number < MAX_FILE_DESCRIPTORS
  slot : kernel.fileDescriptors (number - 1).toNat = descriptor
  index : (kernel.fileDescriptorRecords descriptor).index = number
  objects : Allocated kernel (fileObjects kernel descriptor) extents

namespace FileEntry

variable {kernel after : Kernel} {number : Int} {descriptor : Word} {extents : List Extent}

theorem resolves (entry : FileEntry kernel number descriptor extents) :
    getFileDescriptor kernel number = descriptor := by
  have positive := entry.positive
  have below := entry.below
  rw [getFileDescriptor, if_neg (by omega)]
  exact entry.slot

theorem descriptor_mem : descriptor ∈ fileObjects kernel descriptor :=
  List.mem_append_right _ (List.mem_singleton_self descriptor)

theorem nonNull (entry : FileEntry kernel number descriptor extents) (placed : kernel.heap.WellPlaced) :
    descriptor ≠ 0#32 := by
  rcases entry.objects.exists_extent descriptor_mem with ⟨extent, _, owned, address⟩
  rw [address]
  exact placed.addressOf_ne_null owned.address_inside

/-- The entry stays while its allocations are kept and its slot is the same. -/
theorem keep {guard : Extent -> Prop} (entry : FileEntry kernel number descriptor extents)
    (placed : kernel.heap.WellPlaced) (keeps : KeepsObjects guard kernel after)
    (guarded : forall extent, extent ∈ extents -> guard extent)
    (slot : after.fileDescriptors (number - 1).toNat = kernel.fileDescriptors (number - 1).toNat) :
    FileEntry after number descriptor extents where
  positive := entry.positive
  below := entry.below
  slot := slot.trans entry.slot
  index := by
    rw [(entry.objects.same placed keeps guarded descriptor_mem).fileDescriptorRecords]
    exact entry.index
  objects := by
    rw [fileObjects_congr fun pointer member => entry.objects.same placed keeps guarded member]
    exact entry.objects.keep keeps.pool fun extent member =>
      keeps.owns extent (guarded extent member) (entry.objects.owned extent member)

end FileEntry

/-! ## The table and the ledger -/

/-- The table agrees with the ledger, and no two open files have a block in
common. -/
structure Session.Tracked (session : Session) (extentsOf : Int -> List Extent) : Prop where
  kernelHeap : session.kernel.heap.IsKernelHeap
  distinct : (session.files.map Prod.fst).Nodup
  entries : forall file, file ∈ session.files -> FileEntry session.kernel file.1 file.2 (extentsOf file.1)
  apart : forall file, file ∈ session.files -> forall other, other ∈ session.files -> file.1 ≠ other.1 ->
    forall extent, extent ∈ extentsOf file.1 -> forall elsewhere, elsewhere ∈ extentsOf other.1 -> extent.Apart elsewhere
  empty : forall slot : Nat, slot < MAX_FILE_DESCRIPTORS -> (slot : Int) + 1 ∉ session.files.map Prod.fst ->
    session.kernel.fileDescriptors slot = 0#32

namespace Session

variable {session : Session} {extentsOf : Int -> List Extent}

theorem Tracked.resolves (tracked : session.Tracked extentsOf) : session.Resolves where
  distinct := tracked.distinct
  opened := fun file member =>
    ⟨(tracked.entries file member).nonNull tracked.kernelHeap.wellPlaced, (tracked.entries file member).resolves⟩
  closed := by
    intro number absent
    by_cases outside : number ≤ 0 ∨ number ≥ MAX_FILE_DESCRIPTORS
    · rw [getFileDescriptor, if_pos outside]
    · rw [getFileDescriptor, if_neg outside]
      refine tracked.empty (number - 1).toNat (by omega) ?_
      have same : ((number - 1).toNat : Int) + 1 = number := by omega
      rw [same]
      exact absent

/-- A number that has a descriptor is in the ledger. -/
theorem Tracked.listed (tracked : session.Tracked extentsOf) {number : Int}
    (accepted : getFileDescriptor session.kernel number ≠ 0#32) :
    exists descriptor, (number, descriptor) ∈ session.files := by
  have member : number ∈ session.files.map Prod.fst := by
    by_contra absent
    exact accepted (tracked.resolves.closed number absent)
  rcases List.mem_map.mp member with ⟨file, memberFile, rfl⟩
  exact ⟨file.2, memberFile⟩

/-- Nothing changes for the table while allocations and slots are kept. -/
theorem Tracked.keep (tracked : session.Tracked extentsOf) {after : Kernel}
    (keeps : KeepsObjects (fun _ => True) session.kernel after)
    (table : after.fileDescriptors = session.kernel.fileDescriptors) :
    Session.Tracked ⟨after, session.files⟩ extentsOf where
  kernelHeap := tracked.kernelHeap.samePool keeps.pool
  distinct := tracked.distinct
  entries := fun file member => (tracked.entries file member).keep tracked.kernelHeap.wellPlaced keeps
    (fun _ _ => trivial) (congrFun table _)
  apart := tracked.apart
  empty := fun slot inside absent => (congrFun table slot).trans (tracked.empty slot inside absent)

end Session

/-! ## Calls that use an open file -/

/-- The items, directories and descriptors are the same but for positions. -/
structure SameFiles (kernel after : Kernel) : Prop where
  heap : after.heap = kernel.heap
  table : after.fileDescriptors = kernel.fileDescriptors
  records : after.fileDescriptorRecords = kernel.fileDescriptorRecords
  items : after.fatItems = kernel.fatItems
  directories : after.fatDirectories = kernel.fatDirectories
  found : forall p, (after.fatFileDescriptors p).item = (kernel.fatFileDescriptors p).item

theorem itemObjects_fields {kernel after : Kernel} (items : after.fatItems = kernel.fatItems)
    (directories : after.fatDirectories = kernel.fatDirectories) (item : Word) :
    itemObjects after item = itemObjects kernel item := by
  unfold itemObjects contentObjects directoryObjects
  rw [items, directories]

namespace SameFiles

variable {kernel after : Kernel}

theorem refl (kernel : Kernel) : SameFiles kernel kernel := ⟨rfl, rfl, rfl, rfl, rfl, fun _ => rfl⟩

theorem of_transferred (transferred : Transferred kernel after) : SameFiles kernel after := by
  rcases transferred with ⟨_, _, rfl⟩
  exact ⟨rfl, rfl, rfl, rfl, rfl, fun _ => rfl⟩

theorem storeFatFileDescriptor (p pos : Word) :
    SameFiles kernel (Fs.storeFatFileDescriptor kernel p { kernel.fatFileDescriptors p with pos := pos }) := by
  refine ⟨rfl, rfl, rfl, rfl, rfl, fun other => ?_⟩
  by_cases same : other = p
  · rw [same, storeFatFileDescriptor_self]
  · exact congrArg FatFileDescriptor.item (Function.update_of_ne same _ _)

theorem fseek (kernel : Kernel) (fd offset : Int) (whence : SeekMode) : SameFiles kernel (Fs.fseek kernel fd offset whence).2 := by
  unfold Fs.fseek
  dsimp only
  by_cases refused : getFileDescriptor kernel fd = 0#32
  · rw [if_pos refused]
    exact refl kernel
  · rw [if_neg refused]
    unfold fat16Seek
    dsimp only
    split
    · exact refl kernel
    · split
      · exact refl kernel
      · cases whence with
        | set => exact storeFatFileDescriptor _ _
        | cur => exact storeFatFileDescriptor _ _
        | other => exact refl kernel

theorem fileObjects (same : SameFiles kernel after) (descriptor : Word) :
    Fs.fileObjects after descriptor = Fs.fileObjects kernel descriptor := by
  unfold Fs.fileObjects
  dsimp only
  rw [same.records, same.found, itemObjects_fields same.items same.directories]

end SameFiles

/-- A call that only uses open files leaves the table as it is. -/
theorem Session.Tracked.used {session : Session} {extentsOf : Int -> List Extent} (tracked : session.Tracked extentsOf)
    {after : Kernel} (same : SameFiles session.kernel after) : Session.Tracked ⟨after, session.files⟩ extentsOf where
  kernelHeap := same.heap ▸ tracked.kernelHeap
  distinct := tracked.distinct
  entries := by
    intro file member
    have entry := tracked.entries file member
    refine ⟨entry.positive, entry.below, ?_, ?_, ?_⟩
    · rw [same.table]
      exact entry.slot
    · rw [same.records]
      exact entry.index
    · rw [same.fileObjects]
      exact entry.objects.of_heap same.heap
  apart := tracked.apart
  empty := fun slot inside absent => (congrFun same.table slot).trans (tracked.empty slot inside absent)

/-! ## Binding -/

/-- A new descriptor completes the allocations of a file. -/
theorem bindDescriptor_gained {first kernel : Kernel} (kernelHeap : kernel.heap.IsKernelHeap)
    (keeps : KeepsObjects (fun _ => True) first kernel) {p : Word} {extents : List Extent}
    (gained : Gained first kernel (itemObjects kernel (kernel.fatFileDescriptors p).item ++ [p]) extents)
    (served : (kzalloc kernel sizeofFileDescriptor).1 ≠ 0#32) (slot : Nat) :
    exists all, Gained first (bindDescriptor (kzalloc kernel sizeofFileDescriptor).2 slot
      (kzalloc kernel sizeofFileDescriptor).1 p) (fileObjects (bindDescriptor (kzalloc kernel sizeofFileDescriptor).2 slot
        (kzalloc kernel sizeofFileDescriptor).1 p) (kzalloc kernel sizeofFileDescriptor).1) all := by
  have placed := kernelHeap.wellPlaced
  have later := (keeps_kzalloc (fun _ => True) placed sizeofFileDescriptor).objects
  rcases (KeepsObjects.refl (fun _ => True) kernel).acquired placed served with ⟨extent, acquired, _⟩
  have whole := gained.append keeps later (Gained.of_acquired acquired)
  generalize kzalloc kernel sizeofFileDescriptor = fd at *
  have store := bindDescriptor_toStore fd.2 slot fd.1 p
  have same : forall pointer, pointer ∈ itemObjects kernel (kernel.fatFileDescriptors p).item ++ [p] ->
      kernel.toStore.SameObjects fd.2.toStore pointer := fun pointer member =>
    gained.allocated.same placed later (fun _ _ => trivial) member
  have found : (bindDescriptor fd.2 slot fd.1 p).fatFileDescriptors p = kernel.fatFileDescriptors p := by
    rw [store]
    exact (same p (List.mem_append_right _ (List.mem_singleton_self p))).fatFileDescriptors
  have objects : fileObjects (bindDescriptor fd.2 slot fd.1 p) fd.1 =
      itemObjects kernel (kernel.fatFileDescriptors p).item ++ [p] ++ [fd.1] := by
    have items : (bindDescriptor fd.2 slot fd.1 p).fatItems = fd.2.fatItems := by rw [store]
    have directories : (bindDescriptor fd.2 slot fd.1 p).fatDirectories = fd.2.fatDirectories := by rw [store]
    unfold fileObjects
    dsimp only
    rw [bindDescriptor_record]
    dsimp only
    rw [found, itemObjects_fields items directories,
      itemObjects_congr fun pointer member => same pointer (List.mem_append_left _ member)]
  rw [objects]
  exact ⟨_, whole.of_heap (bindDescriptor_heap _ _ _ _)⟩

theorem Session.Tracked.bound {session : Session} {extentsOf : Int -> List Extent} (tracked : session.Tracked extentsOf)
    {p : Word × Kernel} {slot : Nat} (free : freeSlot session.kernel.fileDescriptors = some slot)
    (keeps : KeepsObjects (fun _ => True) session.kernel p.2)
    (table : p.2.fileDescriptors = session.kernel.fileDescriptors) {extents : List Extent}
    (gained : Gained session.kernel p.2 (itemObjects p.2 (p.2.fatFileDescriptors p.1).item ++ [p.1]) extents)
    (early : slot + 1 < MAX_FILE_DESCRIPTORS) (served : (kzalloc p.2 sizeofFileDescriptor).1 ≠ 0#32) :
    exists all, Session.Tracked ⟨bindDescriptor (kzalloc p.2 sizeofFileDescriptor).2 slot
        (kzalloc p.2 sizeofFileDescriptor).1 p.1,
      ((slot : Int) + 1, (kzalloc p.2 sizeofFileDescriptor).1) :: session.files⟩
        (Function.update extentsOf ((slot : Int) + 1) all) := by
  have placed := tracked.kernelHeap.wellPlaced
  have later := tracked.kernelHeap.samePool keeps.pool
  rcases freeSlot_some free with ⟨inside, emptySlot⟩
  rcases bindDescriptor_gained later keeps gained served slot with ⟨all, whole⟩
  rcases keeps.acquired placed served with ⟨extent, acquired, _⟩
  have allocated := keeps.kzalloc placed sizeofFileDescriptor
  have fresh := acquired.fresh_pointer placed allocated.pool
  have globals := congrArg Globals.fileDescriptors (kzalloc_globals p.2 sizeofFileDescriptor)
  generalize kzalloc p.2 sizeofFileDescriptor = fd at *
  have kept := bindDescriptor_keeps allocated fresh slot p.1
  have slots : (bindDescriptor fd.2 slot fd.1 p.1).fileDescriptors =
      Function.update session.kernel.fileDescriptors slot fd.1 := by
    rw [bindDescriptor_fileDescriptors _ _ _ _ inside, globals, table]
  have record := bindDescriptor_record fd.2 slot fd.1 p.1
  generalize bindDescriptor fd.2 slot fd.1 p.1 = after at *
  have absent : (slot : Int) + 1 ∉ session.files.map Prod.fst := by
    intro listed
    rcases List.mem_map.mp listed with ⟨file, member, number⟩
    have entry := tracked.entries file member
    have taken := entry.slot
    rw [number, Int.add_sub_cancel, Int.toNat_natCast, emptySlot] at taken
    exact entry.nonNull placed taken.symm
  have different : forall file, file ∈ session.files -> file.1 ≠ (slot : Int) + 1 := by
    intro file member same
    exact absent (List.mem_map.mpr ⟨file, member, same⟩)
  have others : forall file, file ∈ session.files ->
      Function.update extentsOf ((slot : Int) + 1) all file.1 = extentsOf file.1 := fun file member =>
    Function.update_of_ne (different file member) _ _
  have newApart : forall file, file ∈ session.files -> forall old, old ∈ extentsOf file.1 -> forall extent,
      extent ∈ all -> old.Apart extent := by
    intro file member old memberOld extent memberNew
    exact whole.fresh extent memberNew old trivial ((tracked.entries file member).objects.owned old memberOld)
  refine ⟨all, tracked.kernelHeap.samePool kept.pool, List.nodup_cons.mpr ⟨absent, tracked.distinct⟩, ?_, ?_, ?_⟩
  · intro file member
    rcases List.mem_cons.mp member with rfl | old
    · refine ⟨by omega, by omega, ?_, ?_, ?_⟩
      · change after.fileDescriptors ((slot : Int) + 1 - 1).toNat = fd.1
        rw [slots, Int.add_sub_cancel, Int.toNat_natCast]
        exact Function.update_self _ _ _
      · exact congrArg FileDescriptor.index record
      · rw [Function.update_self]
        exact whole.allocated
    · rw [others file old]
      refine (tracked.entries file old).keep placed kept (fun _ _ => trivial) ?_
      have positive := (tracked.entries file old).positive
      have apart := different file old
      rw [slots]
      exact Function.update_of_ne (by omega) _ _
  · intro file member other memberOther apart block memberBlock elsewhere memberElsewhere
    rcases List.mem_cons.mp member with rfl | old
    · rcases List.mem_cons.mp memberOther with rfl | oldOther
      · exact absurd rfl apart
      · rw [Function.update_self] at memberBlock
        rw [others other oldOther] at memberElsewhere
        exact (newApart other oldOther elsewhere memberElsewhere block memberBlock).symm
    · rw [others file old] at memberBlock
      rcases List.mem_cons.mp memberOther with rfl | oldOther
      · rw [Function.update_self] at memberElsewhere
        exact newApart file old block memberBlock elsewhere memberElsewhere
      · rw [others other oldOther] at memberElsewhere
        exact tracked.apart file old other oldOther apart block memberBlock elsewhere memberElsewhere
  · intro index below unlisted
    change after.fileDescriptors index = 0#32
    have notNew := List.ne_of_not_mem_cons unlisted
    have notOld := List.not_mem_of_not_mem_cons unlisted
    rw [slots, Function.update_of_ne (fun same => notNew (congrArg (fun place : Nat => (place : Int) + 1) same))]
    exact tracked.empty index below notOld

/-! ## Closing -/

theorem mem_withoutNumber {files : List (Int × Word)} {fd : Int} {file : Int × Word} :
    file ∈ withoutNumber files fd ↔ file ∈ files ∧ file.1 ≠ fd := by
  rw [withoutNumber, List.mem_filter, decide_eq_true_iff]

/-- Closing keeps what is apart from the file. -/
theorem FileEntry.fclose_keeps {kernel : Kernel} (kernelHeap : kernel.heap.IsKernelHeap) {fd : Int} {descriptor : Word}
    {extents : List Extent} (entry : FileEntry kernel fd descriptor extents)
    (accepted : getFileDescriptor kernel fd ≠ 0#32) :
    KeepsObjects (fun extent => forall gone, gone ∈ extents -> extent.Apart gone) kernel (fclose kernel fd).2 := by
  rw [fclose_eq accepted, entry.resolves]
  refine (entry.objects.releaseAll_keeps kernelHeap).of_same (storeSlot_heap _ _ _) fun _ _ => ?_
  rw [storeSlot_toStore]
  exact Store.SameObjects.refl _ _

theorem Session.Tracked.closed {session : Session} {extentsOf : Int -> List Extent} (tracked : session.Tracked extentsOf)
    {fd : Int} (accepted : getFileDescriptor session.kernel fd ≠ 0#32) :
    Session.Tracked ⟨(fclose session.kernel fd).2, withoutNumber session.files fd⟩ extentsOf := by
  rcases tracked.listed accepted with ⟨descriptor, member⟩
  have entry := tracked.entries _ member
  have resolved : getFileDescriptor session.kernel fd = descriptor := entry.resolves
  have index : (session.kernel.fileDescriptorRecords descriptor).index = fd := entry.index
  have positive : 0 < fd := entry.positive
  have below : fd < MAX_FILE_DESCRIPTORS := entry.below
  have table : (fclose session.kernel fd).2.fileDescriptors =
      Function.update session.kernel.fileDescriptors (fd - 1).toNat 0#32 := by
    have slot : ((fd - 1).toNat : Int) = fd - 1 := by omega
    rw [fclose_eq accepted, resolved, index, ← slot, storeSlot_fileDescriptors _ _ (by omega), releaseAll_toGlobals,
      Int.toNat_natCast]
  have keeps := entry.fclose_keeps tracked.kernelHeap accepted
  dsimp only at keeps
  generalize (fclose session.kernel fd).2 = after at *
  refine ⟨tracked.kernelHeap.samePool keeps.pool, ?_, ?_, ?_, ?_⟩
  · exact tracked.distinct.sublist (List.filter_sublist.map Prod.fst)
  · intro file memberFile
    rcases mem_withoutNumber.mp memberFile with ⟨memberOld, different⟩
    have old := tracked.entries file memberOld
    have oldPositive := old.positive
    refine old.keep tracked.kernelHeap.wellPlaced keeps
      (tracked.apart file memberOld (fd, descriptor) member different) ?_
    rw [table]
    exact Function.update_of_ne (by omega) _ _
  · intro file memberFile other memberOther
    exact tracked.apart file (mem_withoutNumber.mp memberFile).1 other (mem_withoutNumber.mp memberOther).1
  · intro slot inside absent
    change after.fileDescriptors slot = 0#32
    rw [table]
    by_cases here : slot = (fd - 1).toNat
    · rw [here]
      exact Function.update_self _ _ _
    · rw [Function.update_of_ne here]
      refine tracked.empty slot inside fun listed => absent ?_
      rcases List.mem_map.mp listed with ⟨file, memberFile, number⟩
      exact List.mem_map.mpr ⟨file, mem_withoutNumber.mpr ⟨memberFile, by omega⟩, number⟩

/-! ## Sessions -/

/-- A call that opens a file leaves it with allocations of its own: no component of
the path is stored over the entry table, and the item that is found is whole. -/
def OpensApart (kernel : Kernel) : FileCall -> Prop
  | .fopen fileName modeOfOperation =>
      PathFits kernel fileName ∧ forall p, fopenAttempt kernel fileName modeOfOperation = some p -> isErr p.1 = false ->
        freeSlot kernel.fileDescriptors ≠ none -> WholeItem p.2 (p.2.fatFileDescriptors p.1).item
  | _ => True

/-- A call that opens a file finds a slot before the last one empty, and the heap
serves its descriptor. -/
def OpensAccepted (kernel : Kernel) : FileCall -> Prop
  | .fopen fileName modeOfOperation =>
      forall p, fopenAttempt kernel fileName modeOfOperation = some p -> isErr p.1 = false ->
        forall slot, freeSlot kernel.fileDescriptors = some slot ->
          slot + 1 < MAX_FILE_DESCRIPTORS ∧ (kzalloc p.2 sizeofFileDescriptor).1 ≠ 0#32
  | _ => True

/-- The property holds of every call of a session, in the kernel that it is made in. -/
def EveryCallOf (property : Kernel -> FileCall -> Prop) (kernel : Kernel) (calls : List FileCall) : Prop :=
  Run.Everywhere sessionStep (fun state call => forall session, state = some session -> property session.kernel call)
    (some ⟨kernel, []⟩) calls

/-- Every kernel that is reached agrees with the ledger. -/
def ResolvesThroughout (kernel : Kernel) (calls : List FileCall) : Prop :=
  Run.Throughout sessionStep (fun state => forall session, state = some session -> session.Resolves)
    (some ⟨kernel, []⟩) calls

/-- The state of a session that is not over is tracked. -/
def TrackedState (state : Option Session) : Prop :=
  forall session, state = some session -> exists extentsOf, session.Tracked extentsOf

/-- What a step comes to. -/
theorem sessionStep_some {state : Option Session} {call : FileCall} {after : Session}
    (step : sessionStep state call = some after) : exists session returned, state = some session ∧
      call.run session.kernel = some returned ∧ after = ⟨returned.2, session.book returned.1 call⟩ := by
  rcases Option.bind_eq_some_iff.mp step with ⟨session, here, returns⟩
  rcases Option.map_eq_some_iff.mp returns with ⟨returned, run, rfl⟩
  exact ⟨session, returned, here, run, rfl⟩

theorem Session.Tracked.fopen {session : Session} {extentsOf : Int -> List Extent} (tracked : session.Tracked extentsOf)
    {path mode : List Byte} (apart : OpensApart session.kernel (.fopen path mode))
    (accepted : OpensAccepted session.kernel (.fopen path mode)) {opened : Int × Kernel}
    (opens : Fs.fopen session.kernel path mode = some opened) :
    exists later, Session.Tracked ⟨opened.2, session.book opened.1 (.fopen path mode)⟩ later := by
  rcases fopen_outcome tracked.kernelHeap apart.1 opens with
    ⟨zero, keeps, table⟩ | ⟨p, slot, attempt, noError, free, rfl⟩
  · unfold Session.book
    dsimp only
    rw [zero, if_neg (Int.lt_irrefl 0)]
    exact ⟨extentsOf, tracked.keep keeps table⟩
  · rcases fopenAttempt_gained tracked.kernelHeap apart.1 attempt with ⟨keeps, table, gained⟩
    unfold Session.book
    dsimp only
    rw [if_pos (by omega), fopenDescriptor_eq attempt free]
    rw [table] at free
    rcases accepted p attempt noError slot free with ⟨early, served⟩
    rcases gained noError (apart.2 p attempt noError (free ▸ Option.some_ne_none slot)) with ⟨extents, whole⟩
    rcases tracked.bound free keeps table whole early served with ⟨all, bound⟩
    exact ⟨_, bound⟩

/-- A call keeps the table in agreement with the ledger. -/
theorem TrackedState.step {state : Option Session} (tracked : TrackedState state) {call : FileCall}
    (apart : forall session, state = some session -> OpensApart session.kernel call)
    (accepted : forall session, state = some session -> OpensAccepted session.kernel call) :
    TrackedState (sessionStep state call) := by
  intro after step
  rcases sessionStep_some step with ⟨session, returned, here, run, rfl⟩
  rcases tracked session here with ⟨extentsOf, old⟩
  cases call with
  | fopen path mode => exact old.fopen (apart session here) (accepted session here) run
  | fread fd ptr size nmemb => exact ⟨extentsOf, old.used (SameFiles.of_transferred (fread_transferred run))⟩
  | fseek fd offset whence =>
      obtain rfl := Option.some.inj run
      exact ⟨extentsOf, old.used (SameFiles.fseek session.kernel fd offset whence)⟩
  | fstat fd stat =>
      obtain rfl := Option.some.inj run
      exact ⟨extentsOf, old.used (SameFiles.of_transferred (fstat_transferred session.kernel fd stat))⟩
  | fclose fd =>
      obtain rfl := Option.some.inj run
      refine ⟨extentsOf, ?_⟩
      by_cases refused : getFileDescriptor session.kernel fd = 0#32
      · have nothing : fclose session.kernel fd = (- EINVAL, session.kernel) := by
          unfold fclose
          simp only [refused, if_true]
        unfold Session.book
        dsimp only
        have error : ¬ (- EINVAL : Int) = 0 := by decide
        rw [nothing, if_neg error]
        exact old
      · unfold Session.book
        dsimp only
        rw [if_pos (by rw [fclose_eq refused])]
        exact old.closed refused

/-- An open with the last slot, or without a descriptor, breaks the agreement. -/
theorem OpensAccepted.of_resolves {state : Option Session} (tracked : TrackedState state) {call : FileCall}
    (apart : forall session, state = some session -> OpensApart session.kernel call)
    (resolves : forall after, sessionStep state call = some after -> after.Resolves) :
    forall session, state = some session -> OpensAccepted session.kernel call := by
  intro session here
  cases call with
  | fopen path mode =>
      intro p attempt noError slot free
      rcases tracked session here with ⟨extentsOf, old⟩
      have table := (fopenAttempt_gained old.kernelHeap (apart session here).1 attempt).2.1
      rw [← table] at free
      have ends : fopenEnd p = ((slot : Int) + 1, bindDescriptor (kzalloc p.2 sizeofFileDescriptor).2 slot
          (kzalloc p.2 sizeofFileDescriptor).1 p.1) := by
        rw [fopenEnd, noError, if_neg Bool.false_ne_true, openDescriptor_free free]
      have run : FileCall.run session.kernel (.fopen path mode) = some (fopenEnd p) := fopen_of_attempt attempt
      have after : sessionStep state (.fopen path mode) =
          some ⟨(fopenEnd p).2, session.book (fopenEnd p).1 (.fopen path mode)⟩ := by
        rw [here, sessionStep, Option.bind_some, run, Option.map_some]
      rw [ends] at after
      have member : ((slot : Int) + 1, (kzalloc p.2 sizeofFileDescriptor).1) ∈
          session.book ((slot : Int) + 1) (.fopen path mode) := by
        unfold Session.book
        dsimp only
        rw [if_pos (by omega), fopenDescriptor_eq attempt free]
        exact List.mem_cons_self
      generalize kzalloc p.2 sizeofFileDescriptor = fd at *
      rcases (resolves _ after).resolve member with ⟨served, resolved⟩
      refine ⟨?_, served⟩
      by_contra last
      dsimp only at resolved
      rw [getFileDescriptor_bind _ (freeSlot_some free).1, if_neg last] at resolved
      exact served resolved.symm
  | fread fd ptr size nmemb => trivial
  | fseek fd offset whence => trivial
  | fstat fd stat => trivial
  | fclose fd => trivial

/-- The agreement throughout a session. -/
theorem resolvesThroughout_of_tracked {state : Option Session} (tracked : TrackedState state) (calls : List FileCall)
    (apart : Run.Everywhere sessionStep (fun state call => forall session, state = some session ->
      OpensApart session.kernel call) state calls) :
    Run.Throughout sessionStep (fun state => forall session, state = some session -> session.Resolves) state calls ↔
      Run.Everywhere sessionStep (fun state call => forall session, state = some session ->
        OpensAccepted session.kernel call) state calls := by
  refine Run.throughout_iff (fun state tracked session here => ?_) (fun state call tracked => tracked.step)
    (fun state call here free bad lawful => bad (OpensAccepted.of_resolves here free lawful)) state calls tracked apart
  rcases tracked session here with ⟨extentsOf, holds⟩
  exact holds.resolves

/-! ## The only file of a volume, opened many times -/

theorem FileItem.whole {kernel : Kernel} (placed : kernel.heap.WellPlaced) {item : Word} {slot : Slot}
    (made : FileItem kernel item slot) : WholeItem kernel item where
  entry := by
    intro _ null
    rcases made.copied with ⟨extent, owned, within⟩
    have inside := within 0 (by decide)
    rw [null] at inside
    exact @fresh_null (fun _ => True) kernel placed extent trivial owned inside
  directory := fun directory => absurd (made.file.symm.trans directory) file_ne_directory

/-- The call that opens the file. -/
abbrev opensFile : FileCall := .fopen [forwardSlash, 0x41#8] [0x72#8]

/-- A kernel with the volume.  Its heap has room, and the first slots of the table of
file descriptors are taken. -/
structure VolumeReady (count first : Nat) (kernel : Kernel) : Prop where
  mounted : MountedRoot kernel 1
  volume : Resolved fileVolume kernel
  fs : kernel.disk.fs = true
  room : RoomFrom kernel first
  taken : forall slot, slot < count -> kernel.fileDescriptors slot ≠ 0#32
  empty : forall slot, count ≤ slot -> kernel.fileDescriptors slot = 0#32

namespace VolumeReady

variable {count first : Nat} {kernel after : Kernel} (ready : VolumeReady count first kernel)
include ready

theorem storedRoot : Fs.storedRoot (driveOf kernel) (privateOf kernel).header =
    Fs.storedRoot (driveOf fileVolume) (bootSector fileVolume) := by
  rw [ready.volume.drive, ready.volume.header.storedRoot]

theorem rootFile : RootFile kernel [0x41#8] 0 := by
  have stored := ready.storedRoot
  refine RootFile.of_only ready.mounted ?_ ?_ ?_
  · rw [stored]
    decide
  · rw [stored]
    decide
  · rw [stored]
    decide

theorem freeSlot (inside : count < MAX_FILE_DESCRIPTORS) : Fs.freeSlot kernel.fileDescriptors = some count :=
  freeSlot_first inside ready.taken (ready.empty count (Nat.le_refl count))

/-- The volume is ready while allocations are kept. -/
theorem keep (keeps : KeepsObjects (fun _ => True) kernel after) (globals : after.toGlobals = kernel.toGlobals)
    {later : Nat} (room : RoomFrom after later) : VolumeReady count later after := by
  have disk := congrArg Globals.disk globals
  have drive := driveOf_congr globals
  have table := congrArg Globals.fileDescriptors globals
  refine ⟨ready.mounted.keep keeps (congrArg DiskRecord.fsPrivateData disk) drive,
    ready.volume.later ⟨ready.mounted.held.privateOf_keep keeps (congrArg DiskRecord.fsPrivateData disk), drive⟩,
    (congrArg DiskRecord.fs disk).trans ready.fs, room, fun slot below => ?_, fun slot above => ?_⟩
  · rw [table]
    exact ready.taken slot below
  · rw [table]
    exact ready.empty slot above

/-- The volume is ready while the bytes and the private data are the same. -/
theorem of_same (heap : after.heap = kernel.heap) (bytes : after.bytes = kernel.bytes)
    (privates : after.fatPrivates = kernel.fatPrivates) (disk : after.disk = kernel.disk)
    (drive : driveOf after = driveOf kernel) (table : after.fileDescriptors = kernel.fileDescriptors) :
    VolumeReady count first after := by
  have fatPrivate : privateOf after = privateOf kernel := by
    unfold privateOf
    rw [disk, privates]
  refine ⟨ready.mounted.of_same heap bytes privates (congrArg DiskRecord.fsPrivateData disk) drive,
    ready.volume.later ⟨fatPrivate, drive⟩, (congrArg DiskRecord.fs disk).trans ready.fs, ready.room.of_heap heap, ?_, ?_⟩
  · rw [table]
    exact ready.taken
  · rw [table]
    exact ready.empty

/-- The file is opened. -/
theorem fopen (early : count + 1 < MAX_FILE_DESCRIPTORS) (fits : first + 6 ≤ 25600) :
    exists opened, Fs.fopen kernel [forwardSlash, 0x41#8] [0x72#8] = some ((count : Int) + 1, opened) ∧
      VolumeReady (count + 1) (first + 6) opened ∧ KeepsObjects (fun _ => True) kernel opened ∧
      HeldFile opened (count + 1) ((Fs.storedRoot (driveOf fileVolume) (bootSector fileVolume)).slots 0) ∧
      opened.refused = kernel.refused := by
  rcases fopen_rootFile ready.mounted (AllServed.refl ready.room) fits ready.fs (by decide) (by decide) (by decide)
    ready.rootFile (ready.freeSlot (Nat.lt_of_succ_lt early)) early with
    ⟨opened, opens, just, table, room, held, keeps, disk, unrefused⟩
  have same := ready.mounted.root.same 0 ready.rootFile.below
  rw [ready.storedRoot] at same
  refine ⟨opened, opens, ⟨?_, ready.volume.later just.volume, ?_, room, ?_, ?_⟩, keeps,
    ⟨held.descriptor, held.opened.congr same⟩, unrefused⟩
  · exact ready.mounted.keep keeps (congrArg DiskRecord.fsPrivateData disk) just.volume.drive
  · rw [disk]
    exact ready.fs
  · intro slot below
    rw [table]
    by_cases last : slot = count
    · rw [last, Function.update_self]
      exact just.openFile.descriptor
    · rw [Function.update_of_ne last]
      exact ready.taken slot (by omega)
  · intro slot above
    rw [table, Function.update_of_ne (by omega)]
    exact ready.empty slot (by omega)

end VolumeReady

/-- A kernel with the volume, after the file was opened so many times. -/
structure OpenedTimes (count : Nat) (kernel : Kernel) : Prop where
  mounted : MountedRoot kernel 1
  volume : Resolved fileVolume kernel
  fs : kernel.disk.fs = true
  room : RoomFrom kernel (1543 + 6 * count)
  taken : forall slot, slot < count -> kernel.fileDescriptors slot ≠ 0#32
  empty : forall slot, count ≤ slot -> kernel.fileDescriptors slot = 0#32

theorem fileVolume_booted : exists booted, boot fileVolume (fun _ => 0#8) = some booted ∧ OpenedTimes 0 booted := by
  rcases @boot_mounted Store.blank fileSectors (fun _ => 0#8) (fun _ => 0#8) (by decide) (by decide) (by decide) 1
    fileVolume_ends with ⟨booted, boots, room, fs, mounted, volume⟩
  refine ⟨booted, boots, mounted, volume, fs, room, fun _ impossible => absurd impossible (Nat.not_lt_zero _), ?_⟩
  intro slot _
  rw [(boot_booted boots).fileDescriptors]

namespace OpenedTimes

variable {count : Nat} {kernel : Kernel} (times : OpenedTimes count kernel)
include times

theorem ready : VolumeReady count (1543 + 6 * count) kernel :=
  ⟨times.mounted, times.volume, times.fs, times.room, times.taken, times.empty⟩

/-- The file system opens the file once more. -/
theorem attempt (inside : count < MAX_FILE_DESCRIPTORS) :
    exists p, fopenAttempt kernel [forwardSlash, 0x41#8] [0x72#8] = some p ∧ isErr p.1 = false ∧
      Fs.freeSlot p.2.fileDescriptors = some count ∧ (kzalloc p.2 sizeofFileDescriptor).1 ≠ 0#32 ∧
      WholeItem p.2 (p.2.fatFileDescriptors p.1).item := by
  unfold MAX_FILE_DESCRIPTORS at inside
  have ready : AllServed kernel kernel (1543 + 6 * count) := AllServed.refl times.room
  rcases fopenAttempt_rootFile times.mounted ready (by omega) times.fs (by decide) (by decide) (by decide)
    times.ready.rootFile with ⟨p, attempt, noError, last, opened⟩
  rcases last.kzalloc times.mounted (by decide : blocksFor sizeofFileDescriptor = 1) (by omega) with ⟨served, _⟩
  have table : p.2.fileDescriptors = kernel.fileDescriptors := congrArg Globals.fileDescriptors last.later.requests.toGlobals
  refine ⟨p, attempt, noError, ?_, served, opened.item.whole last.room.kernelHeap.wellPlaced⟩
  rw [table]
  exact times.ready.freeSlot inside

theorem next (early : count + 1 < MAX_FILE_DESCRIPTORS) :
    exists opened, fopen kernel [forwardSlash, 0x41#8] [0x72#8] = some ((count : Int) + 1, opened) ∧
      OpenedTimes (count + 1) opened := by
  have fits : 1543 + 6 * count + 6 ≤ 25600 := by
    unfold MAX_FILE_DESCRIPTORS at early
    omega
  rcases times.ready.fopen early fits with ⟨opened, opens, more, _⟩
  exact ⟨opened, opens, more.mounted, more.volume, more.fs, more.room, more.taken, more.empty⟩

end OpenedTimes

/-- A session in which the file was opened so many times. -/
theorem opensFile_times {booted : Kernel} (start : OpenedTimes 0 booted) {count : Nat} (early : count < MAX_FILE_DESCRIPTORS) :
    exists session, (List.replicate count opensFile).foldl sessionStep (some ⟨booted, []⟩) = some session ∧
      OpenedTimes count session.kernel := by
  induction count with
  | zero => exact ⟨⟨booted, []⟩, rfl, start⟩
  | succ count inductionHypothesis =>
      rcases inductionHypothesis (Nat.lt_of_succ_lt early) with ⟨session, run, times⟩
      rcases times.next early with ⟨opened, opens, more⟩
      have returns : opensFile.run session.kernel = some ((count : Int) + 1, opened) := opens
      rw [List.replicate_succ', List.foldl_append, run, List.foldl_cons, List.foldl_nil, sessionStep, Option.bind_some,
        returns, Option.map_some]
      exact ⟨_, rfl, more⟩

/-! ## The numbers of open files -/

/-- In every session from an empty table on, in which each open leaves its file with
allocations of its own and finds a slot before the last and a descriptor, no number
is that of two open files, and every number resolves to the descriptor that was made
for it, or to `NULL` when it is not open.  As long as the allocations are apart, only
such opens keep it so. -/
theorem fileNumbers_resolve {kernel : Kernel} (kernelHeap : kernel.heap.IsKernelHeap)
    (empty : kernel.fileDescriptors = fun _ => 0#32) (calls : List FileCall) :
    (EveryCallOf (fun kernel call => OpensApart kernel call ∧ OpensAccepted kernel call) kernel calls ->
      ResolvesThroughout kernel calls) ∧
    (EveryCallOf OpensApart kernel calls -> ResolvesThroughout kernel calls -> EveryCallOf OpensAccepted kernel calls) := by
  have start : TrackedState (some ⟨kernel, []⟩) := by
    intro session here
    obtain rfl := Option.some.inj here
    refine ⟨fun _ => [], kernelHeap, List.nodup_nil, ?_, ?_, fun slot _ _ => congrFun empty slot⟩
    · exact fun file member => absurd member List.not_mem_nil
    · exact fun file member => absurd member List.not_mem_nil
  constructor
  · intro both
    have apart := both.imp fun state call holds session here => (holds session here).1
    have accepted := both.imp fun state call holds session here => (holds session here).2
    exact (resolvesThroughout_of_tracked start calls apart).mpr accepted
  · intro apart resolves
    exact (resolvesThroughout_of_tracked start calls apart).mp resolves

/-- While the table has room, the open of the file is apart and accepted. -/
theorem OpenedTimes.accepted {count : Nat} {kernel : Kernel} (times : OpenedTimes count kernel)
    (early : count + 1 < MAX_FILE_DESCRIPTORS) :
    OpensApart kernel opensFile ∧ OpensAccepted kernel opensFile := by
  rcases times.attempt (Nat.lt_of_succ_lt early) with ⟨p, attempt, noError, free, served, whole⟩
  refine ⟨⟨fun _ => partsFit_of_short _ _ (by decide), fun p' attempt' _ _ => ?_⟩, fun p' attempt' _ slot freeSlot => ?_⟩
  · obtain rfl := Option.some.inj (attempt.symm.trans attempt')
    exact whole
  · obtain rfl := Option.some.inj (attempt.symm.trans attempt')
    obtain rfl := Option.some.inj ((times.ready.freeSlot (Nat.lt_of_succ_lt early)).symm.trans freeSlot)
    exact ⟨early, served⟩

/-- The file is opened twice.  The second number is read, and stays open while the first
one is closed. -/
theorem fileNumbers_resolve_two : exists booted, boot fileVolume (fun _ => 0#8) = some booted ∧
    ResolvesThroughout booted [opensFile, opensFile, .fread 2 0x100000#32 1#32 1#32, .fclose 1, .fclose 2] := by
  rcases fileVolume_booted with ⟨booted, boots, times⟩
  rcases times.next (by decide) with ⟨opened, opens, once⟩
  have returns : opensFile.run booted = some (((0 : Nat) : Int) + 1, opened) := opens
  refine ⟨booted, boots, (fileNumbers_resolve (boot_booted boots).kernelHeap (boot_booted boots).fileDescriptors _).1
    ⟨?_, ?_, fun _ _ => ⟨trivial, trivial⟩, fun _ _ => ⟨trivial, trivial⟩, fun _ _ => ⟨trivial, trivial⟩, trivial⟩⟩
  · intro session here
    obtain rfl := Option.some.inj here
    exact times.accepted (by decide)
  · intro session here
    rw [sessionStep, Option.bind_some, returns, Option.map_some] at here
    obtain rfl := Option.some.inj here
    exact once.accepted (by decide)

/-- The file is opened as often as the table has slots.  The last number that is
returned does not resolve. -/
theorem fileNumbers_last : exists booted, boot fileVolume (fun _ => 0#8) = some booted ∧
    ¬ ResolvesThroughout booted (List.replicate MAX_FILE_DESCRIPTORS opensFile) := by
  rcases fileVolume_booted with ⟨booted, boots, start⟩
  refine ⟨booted, boots, fun resolves => ?_⟩
  rcases opensFile_times start (by decide : 511 < MAX_FILE_DESCRIPTORS) with ⟨session, run, times⟩
  rcases times.attempt (by decide) with ⟨p, attempt, noError, free, served, _⟩
  have ends : (fopenEnd p).1 = 512 := by
    rw [fopenEnd, noError, if_neg Bool.false_ne_true, openDescriptor_free free]
    rfl
  have returns : opensFile.run session.kernel = some (fopenEnd p) := fopen_of_attempt attempt
  have split : MAX_FILE_DESCRIPTORS = 511 + 1 := rfl
  have last := resolves.last
  rw [split, List.replicate_succ', List.foldl_append, run, List.foldl_cons, List.foldl_nil, sessionStep,
    Option.bind_some, returns, Option.map_some] at last
  have agrees := last _ rfl
  have member : ((512 : Int), fopenDescriptor session.kernel [forwardSlash, 0x41#8] [0x72#8]) ∈
      session.book (fopenEnd p).1 opensFile := by
    unfold Session.book
    dsimp only
    rw [ends, if_pos (by decide)]
    exact List.mem_cons_self
  rcases agrees.resolve member with ⟨descriptor, resolved⟩
  exact descriptor resolved.symm

end Fs
end LarvaOS
