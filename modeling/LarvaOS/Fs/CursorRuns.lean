import LarvaOS.Fs.Cursors

namespace LarvaOS
namespace Fs

open Disk Library Memory

/-!
# Sessions keep their cursors

The allocations of the open files have no block in common with each other or with the
private data of the volume.  A call hence changes the objects of one file at most, that
of its own number, and a client that keeps a cursor for each number is never wrong.
-/

/-! ## The objects of one file -/

namespace FileEntry

variable {kernel after : Kernel} {number : Int} {descriptor : Word} {extents : List Extent}
  (entry : FileEntry kernel number descriptor extents)
include entry

theorem fileData_eq : fileData kernel number = (kernel.fileDescriptorRecords descriptor).p := by
  unfold fileData
  rw [entry.resolves]

theorem fileData_mem : fileData kernel number ∈ fileObjects kernel descriptor := by
  rw [entry.fileData_eq]
  exact List.mem_append_left _ (List.mem_append_right _ (List.mem_singleton_self _))

section Found

variable (found : (kernel.fatFileDescriptors (fileData kernel number)).item ≠ 0#32)
include found

theorem item_mem : (kernel.fatFileDescriptors (fileData kernel number)).item ∈ fileObjects kernel descriptor := by
  rw [entry.fileData_eq] at found ⊢
  apply List.mem_append_left
  apply List.mem_append_left
  rw [itemObjects, if_neg found]
  exact List.mem_append_right _ (List.mem_singleton_self _)

theorem entryPointer_mem (opened : OpenFile kernel number) :
    entryPointer kernel number ∈ fileObjects kernel descriptor := by
  have file := opened.file
  unfold entryPointer
  rw [entry.fileData_eq] at found file ⊢
  apply List.mem_append_left
  apply List.mem_append_left
  rw [itemObjects, if_neg found, contentObjects, file, if_neg file_ne_directory, if_pos rfl]
  exact List.mem_append_left _ (List.mem_singleton_self _)

/-- Nothing happens to a file whose slot and allocations are kept. -/
theorem sameOpen {guard : Extent -> Prop} (placed : kernel.heap.WellPlaced) (keeps : KeepsObjects guard kernel after)
    (guarded : forall extent, extent ∈ extents -> guard extent)
    (slot : after.fileDescriptors (number - 1).toNat = kernel.fileDescriptors (number - 1).toNat) :
    SameOpen kernel after number := by
  have resolved := entry.resolves
  have later := (entry.keep placed keeps guarded slot).resolves
  have same := fun pointer member => @Allocated.same _ _ _ _ guard entry.objects placed keeps guarded pointer member
  refine ⟨later.trans resolved.symm, ?_, ?_, ?_, ?_⟩
  · unfold fileData
    rw [later, resolved, (same descriptor descriptor_mem).fileDescriptorRecords]
  · exact (same _ entry.fileData_mem).fatFileDescriptors
  · exact (same _ (entry.item_mem found)).fatItems
  · intro opened place below
    rcases entry.objects.exists_extent (entry.entryPointer_mem found opened) with ⟨extent, member, owned, address⟩
    rw [address]
    exact (keeps.same extent (guarded extent member) owned _ (inExtent_place placed owned
      (Nat.lt_trans below (by decide)))).bytes

end Found

/-- Two files that have no block in common have different descriptors in the file
system. -/
theorem fileData_ne {other : Int} {descriptor' : Word} {extents' : List Extent}
    (entry' : FileEntry kernel other descriptor' extents') (placed : kernel.heap.WellPlaced)
    (apart : forall extent, extent ∈ extents -> forall elsewhere, elsewhere ∈ extents' -> extent.Apart elsewhere) :
    fileData kernel number ≠ fileData kernel other := by
  intro same
  rcases entry.objects.exists_extent entry.fileData_mem with ⟨extent, member, owned, address⟩
  rcases entry'.objects.exists_extent entry'.fileData_mem with ⟨elsewhere, member', owned', address'⟩
  rw [same, address'] at address
  have first := placed.addressOf_injective owned'.address_inside owned.address_inside address
  have inside := inExtent_addressOf placed owned
  have outside := Heap.not_inExtent_of_apart (apart extent member elsewhere member') inside
  rw [← first] at outside
  exact outside (inExtent_addressOf placed owned')

end FileEntry

/-! ## The objects of a session -/

theorem OnlyDescriptors.disk {before after : Kernel} (only : OnlyDescriptors before after) : after.disk = before.disk := by
  have same := congrArg Globals.disk only
  exact same

theorem OnlyDescriptors.drive {before after : Kernel} (only : OnlyDescriptors before after) :
    driveOf after = driveOf before := by
  have sectors := congrArg Globals.sectors only
  have stray := congrArg Globals.stray only
  unfold driveOf
  exact congrArg₂ Drive.mk sectors stray

/-- The open files and the private data of the volume have allocations of their own, and
every open file has an item. -/
structure Session.Held (booted : Kernel) (volume : Extent) (session : Session) (extentsOf : Int -> List Extent) : Prop where
  tracked : session.Tracked extentsOf
  owned : session.kernel.heap.Owns volume
  inside : session.kernel.heap.InExtent volume session.kernel.disk.fsPrivateData
  apart : forall file, file ∈ session.files -> forall extent, extent ∈ extentsOf file.1 -> volume.Apart extent
  resolved : Resolved booted session.kernel
  found : forall file, file ∈ session.files ->
    (session.kernel.fatFileDescriptors (fileData session.kernel file.1)).item ≠ 0#32

namespace Session.Held

variable {booted : Kernel} {volume : Extent} {session : Session} {extentsOf : Int -> List Extent}
  (held : session.Held booted volume extentsOf)
include held

theorem placed : session.kernel.heap.WellPlaced := held.tracked.kernelHeap.wellPlaced

theorem volumeHeld : VolumeHeld session.kernel := ⟨held.tracked.kernelHeap, volume, held.owned, held.inside⟩

theorem listed {fd : Int} (accepted : getFileDescriptor session.kernel fd ≠ 0#32) :
    exists descriptor, (fd, descriptor) ∈ session.files := held.tracked.listed accepted

theorem entry {fd : Int} {descriptor : Word} (member : (fd, descriptor) ∈ session.files) :
    FileEntry session.kernel fd descriptor (extentsOf fd) := held.tracked.entries (fd, descriptor) member

/-- A call that only uses open files. -/
theorem used {after : Kernel} (same : SameFiles session.kernel after) (sameVolume : SameVolume session.kernel after)
    (disk : after.disk = session.kernel.disk) : Session.Held booted volume ⟨after, session.files⟩ extentsOf where
  tracked := held.tracked.used same
  owned := same.heap.symm ▸ held.owned
  inside := by
    change after.heap.InExtent volume after.disk.fsPrivateData
    rw [same.heap, disk]
    exact held.inside
  apart := held.apart
  resolved := held.resolved.later sameVolume
  found := by
    intro file member
    have data : fileData after file.1 = fileData session.kernel file.1 := by
      unfold fileData getFileDescriptor
      rw [same.table, same.records]
    change (after.fatFileDescriptors (fileData after file.1)).item ≠ 0#32
    rw [data, same.found]
    exact held.found file member

/-- The volume, while its allocation is kept. -/
theorem keptVolume {guard : Extent -> Prop} {after : Kernel} (keeps : KeepsObjects guard session.kernel after)
    (guarded : guard volume) (only : OnlyDescriptors session.kernel after) :
    after.heap.Owns volume ∧ after.heap.InExtent volume after.disk.fsPrivateData ∧ Resolved booted after := by
  have disk := only.disk
  have fatPrivate : privateOf after = privateOf session.kernel := by
    unfold privateOf
    rw [disk, (keeps.same volume guarded held.owned _ held.inside).fatPrivates]
  refine ⟨keeps.owns volume guarded held.owned, ?_, held.resolved.later ⟨fatPrivate, only.drive⟩⟩
  rw [disk]
  exact keeps.pool.inExtent.mpr held.inside

/-- The objects of the open files are kept. -/
theorem sameOpen {guard : Extent -> Prop} {after : Kernel} (keeps : KeepsObjects guard session.kernel after) {fd : Int}
    {descriptor : Word} (member : (fd, descriptor) ∈ session.files)
    (guarded : forall extent, extent ∈ extentsOf fd -> guard extent)
    (slot : after.fileDescriptors (fd - 1).toNat = session.kernel.fileDescriptors (fd - 1).toNat) :
    SameOpen session.kernel after fd :=
  (held.entry member).sameOpen (held.found _ member) held.placed keeps guarded slot

/-- A change that keeps the volume and what belongs to the files. -/
theorem kept {guard : Extent -> Prop} {after : Kernel} (keeps : KeepsObjects guard session.kernel after)
    (guarded : guard volume)
    (guardedFiles : forall file, file ∈ session.files -> forall extent, extent ∈ extentsOf file.1 -> guard extent)
    (table : after.fileDescriptors = session.kernel.fileDescriptors) (only : OnlyDescriptors session.kernel after) :
    Session.Held booted volume ⟨after, session.files⟩ extentsOf := by
  have tracked := held.tracked
  rcases held.keptVolume keeps guarded only with ⟨owned, inside, resolved⟩
  refine ⟨⟨tracked.kernelHeap.samePool keeps.pool, tracked.distinct, fun file member => ?_, tracked.apart, ?_⟩, owned, inside,
    held.apart, resolved, fun file member => ?_⟩
  · exact (tracked.entries file member).keep held.placed keeps (guardedFiles file member) (congrFun table _)
  · exact fun slot below absent => (congrFun table slot).trans (tracked.empty slot below absent)
  · have same := held.sameOpen keeps member (guardedFiles file member) (congrFun table _)
    change (after.fatFileDescriptors (fileData after file.1)).item ≠ 0#32
    rw [same.data, same.record]
    exact held.found file member

/-- An open that fails. -/
theorem refused {after : Kernel} (keeps : KeepsObjects (fun _ => True) session.kernel after)
    (table : after.fileDescriptors = session.kernel.fileDescriptors) (only : OnlyDescriptors session.kernel after) :
    Session.Held booted volume ⟨after, session.files⟩ extentsOf :=
  held.kept keeps trivial (fun _ _ _ _ => trivial) table only

end Session.Held

/-! ## Opening -/

/-- The file system leaves a new descriptor with an item, at the beginning of the file. -/
theorem fat16Open_record {kernel : Kernel} {path : PathPart} {next : List PathPart} {mode : FileMode}
    {opened : Word × Kernel} (opens : fat16Open kernel path next mode = some opened) (noError : isErr opened.1 = false) :
    (opened.2.fatFileDescriptors opened.1).item ≠ 0#32 ∧ (opened.2.fatFileDescriptors opened.1).pos = 0#32 := by
  rcases fat16Open_walks opens noError with ⟨opener, item, _, found, same⟩
  rw [same, storeFatFileDescriptor_self]
  exact ⟨found, rfl⟩

theorem fopenAttempt_record {kernel : Kernel} {path mode : List Byte} {p : Word × Kernel}
    (attempt : fopenAttempt kernel path mode = some p) (noError : isErr p.1 = false) :
    (p.2.fatFileDescriptors p.1).item ≠ 0#32 ∧ (p.2.fatFileDescriptors p.1).pos = 0#32 := by
  rcases fopenAttempt_some attempt with ⟨root, next, parsed, _, _, _, opens⟩
  exact fat16Open_record opens noError

/-- The new descriptor leads to what the file system has opened. -/
theorem bindDescriptor_found {first kernel : Kernel} (placed : kernel.heap.WellPlaced) {p : Word} {extents : List Extent}
    (gained : Gained first kernel (itemObjects kernel (kernel.fatFileDescriptors p).item ++ [p]) extents) (slot : Nat) :
    (bindDescriptor (kzalloc kernel sizeofFileDescriptor).2 slot (kzalloc kernel sizeofFileDescriptor).1 p).fatFileDescriptors p =
      kernel.fatFileDescriptors p := by
  have later := (keeps_kzalloc (fun _ => True) placed sizeofFileDescriptor).objects
  generalize kzalloc kernel sizeofFileDescriptor = fd at *
  have same := gained.allocated.same placed later (fun _ _ => trivial) (List.mem_append_right _ (List.mem_singleton_self p))
  rw [bindDescriptor_toStore]
  exact same.fatFileDescriptors

/-- What an open comes to.  The extents of the files are those from before, and new ones. -/
structure OpensBeside (booted : Kernel) (volume : Extent) (session : Session) (extentsOf : Int -> List Extent)
    (opened : Int × Kernel) (call : FileCall) : Prop where
  held : exists later, Session.Held booted volume ⟨opened.2, session.book opened.1 call⟩ later ∧
    forall file, file ∈ session.book opened.1 call -> forall extent, extent ∈ later file.1 ->
      (file ∈ session.files ∧ extent ∈ extentsOf file.1) ∨ FreshExtent (fun _ => True) session.kernel extent
  same : forall file, file ∈ session.files -> SameOpen session.kernel opened.2 file.1
  listed : forall fd, fd ∈ (session.book opened.1 call).map Prod.fst ->
    fd ∈ session.files.map Prod.fst ∨ 0 < opened.1 ∧ fd = opened.1
  fresh : 0 < opened.1 -> opened.1 ∉ session.files.map Prod.fst
  start : 0 < opened.1 -> filePosition opened.2 opened.1 = 0
  number : 0 < opened.1 -> getFileDescriptor opened.2 opened.1 ≠ 0#32

theorem Session.Held.bound {booted : Kernel} {volume : Extent} {session : Session} {extentsOf : Int -> List Extent}
    (held : session.Held booted volume extentsOf) {path mode : List Byte} {p : Word × Kernel} {slot : Nat}
    (free : freeSlot session.kernel.fileDescriptors = some slot)
    (keeps : KeepsObjects (fun _ => True) session.kernel p.2)
    (table : p.2.fileDescriptors = session.kernel.fileDescriptors) {extents : List Extent}
    (gained : Gained session.kernel p.2 (itemObjects p.2 (p.2.fatFileDescriptors p.1).item ++ [p.1]) extents)
    (early : slot + 1 < MAX_FILE_DESCRIPTORS) (served : (kzalloc p.2 sizeofFileDescriptor).1 ≠ 0#32)
    (record : (p.2.fatFileDescriptors p.1).item ≠ 0#32 ∧ (p.2.fatFileDescriptors p.1).pos = 0#32)
    (book : session.book ((slot : Int) + 1) (.fopen path mode) =
      ((slot : Int) + 1, (kzalloc p.2 sizeofFileDescriptor).1) :: session.files)
    (whole : KeepsObjects (fun _ => True) session.kernel (bindDescriptor (kzalloc p.2 sizeofFileDescriptor).2 slot
      (kzalloc p.2 sizeofFileDescriptor).1 p.1))
    (only : OnlyDescriptors session.kernel (bindDescriptor (kzalloc p.2 sizeofFileDescriptor).2 slot
      (kzalloc p.2 sizeofFileDescriptor).1 p.1)) :
    OpensBeside booted volume session extentsOf ((slot : Int) + 1, bindDescriptor (kzalloc p.2 sizeofFileDescriptor).2 slot
      (kzalloc p.2 sizeofFileDescriptor).1 p.1) (.fopen path mode) := by
  have later := held.tracked.kernelHeap.samePool keeps.pool
  rcases held.tracked.bound free keeps table gained early served with ⟨all, tracked⟩
  rcases bindDescriptor_gained later keeps gained served slot with ⟨new, complete⟩
  have found := bindDescriptor_found later.wellPlaced gained slot
  have made := bindDescriptor_record (kzalloc p.2 sizeofFileDescriptor).2 slot (kzalloc p.2 sizeofFileDescriptor).1 p.1
  generalize kzalloc p.2 sizeofFileDescriptor = fd at *
  generalize bindDescriptor fd.2 slot fd.1 p.1 = after at *
  have entry := tracked.entries ((slot : Int) + 1, fd.1) List.mem_cons_self
  have objects := entry.objects
  rw [Function.update_self] at objects
  obtain rfl := objects.unique tracked.kernelHeap.wellPlaced complete.allocated
  have absent : (slot : Int) + 1 ∉ session.files.map Prod.fst := (List.nodup_cons.mp tracked.distinct).1
  have different : forall file, file ∈ session.files -> file.1 ≠ (slot : Int) + 1 := by
    intro file member same
    exact absent (List.mem_map.mpr ⟨file, member, same⟩)
  have kept : forall file, file ∈ session.files -> SameOpen session.kernel after file.1 := by
    intro file member
    apply held.sameOpen whole member (fun _ _ => trivial)
    exact (tracked.entries file (List.mem_cons_of_mem _ member)).slot.trans (held.tracked.entries file member).slot.symm
  have data : fileData after ((slot : Int) + 1) = p.1 := by
    rw [entry.fileData_eq, made]
  rcases held.keptVolume whole trivial only with ⟨owned, inside, resolved⟩
  refine ⟨⟨Function.update extentsOf ((slot : Int) + 1) all, ?_, ?_⟩, kept, ?_, fun _ => absent, fun _ => ?_, fun _ => ?_⟩
  · rw [book]
    refine ⟨tracked, owned, inside, ?_, resolved, ?_⟩
    · intro file member extent memberExtent
      rcases List.mem_cons.mp member with rfl | old
      · rw [Function.update_self] at memberExtent
        exact complete.fresh extent memberExtent volume trivial held.owned
      · rw [Function.update_of_ne (different file old)] at memberExtent
        exact held.apart file old extent memberExtent
    · intro file member
      rcases List.mem_cons.mp member with rfl | old
      · change (after.fatFileDescriptors (fileData after ((slot : Int) + 1))).item ≠ 0#32
        rw [data, found]
        exact record.1
      · change (after.fatFileDescriptors (fileData after file.1)).item ≠ 0#32
        rw [(kept file old).data, (kept file old).record]
        exact held.found file old
  · intro file member extent memberExtent
    rw [book] at member
    rcases List.mem_cons.mp member with rfl | old
    · rw [Function.update_self] at memberExtent
      exact Or.inr (complete.fresh extent memberExtent)
    · rw [Function.update_of_ne (different file old)] at memberExtent
      exact Or.inl ⟨old, memberExtent⟩
  · intro number listed
    rw [book] at listed
    rcases List.mem_cons.mp listed with rfl | old
    · exact Or.inr ⟨entry.positive, rfl⟩
    · exact Or.inl old
  · unfold filePosition
    rw [data, found, record.2]
    rfl
  · rw [entry.resolves]
    exact entry.nonNull tracked.kernelHeap.wellPlaced

theorem Session.Held.fopen {booted : Kernel} {volume : Extent} {session : Session} {extentsOf : Int -> List Extent}
    (held : session.Held booted volume extentsOf) {path mode : List Byte}
    (apart : OpensApart session.kernel (.fopen path mode)) (accepted : OpensAccepted session.kernel (.fopen path mode))
    {opened : Int × Kernel} (opens : Fs.fopen session.kernel path mode = some opened) :
    OpensBeside booted volume session extentsOf opened (.fopen path mode) := by
  have kernelHeap := held.tracked.kernelHeap
  have whole := fopen_keeps kernelHeap apart.1 opens
  have only := fopen_onlyDescriptors kernelHeap apart.1 opens
  rcases fopen_outcome kernelHeap apart.1 opens with ⟨zero, keeps, table⟩ | ⟨p, slot, attempt, noError, free, rfl⟩
  · have none : ¬ 0 < opened.1 := by
      rw [zero]
      exact Int.lt_irrefl 0
    have book : session.book opened.1 (.fopen path mode) = session.files := if_neg none
    refine ⟨⟨extentsOf, ?_, ?_⟩, ?_, ?_, fun some => absurd some none, fun some => absurd some none, fun some => absurd some none⟩
    · rw [book]
      exact held.refused keeps table only
    · rw [book]
      exact fun file member extent memberExtent => Or.inl ⟨member, memberExtent⟩
    · exact fun file member => held.sameOpen keeps member (fun _ _ => trivial) (congrFun table _)
    · intro fd listed
      rw [book] at listed
      exact Or.inl listed
  · rcases fopenAttempt_gained kernelHeap apart.1 attempt with ⟨keeps, table, gained⟩
    have book : session.book ((slot : Int) + 1) (.fopen path mode) =
        ((slot : Int) + 1, (kzalloc p.2 sizeofFileDescriptor).1) :: session.files := by
      unfold Session.book
      dsimp only
      rw [if_pos (by omega), fopenDescriptor_eq attempt free]
    rw [table] at free
    rcases accepted p attempt noError slot free with ⟨early, served⟩
    rcases gained noError (apart.2 p attempt noError (free ▸ Option.some_ne_none slot)) with ⟨extents, new⟩
    dsimp only at whole only
    exact held.bound free keeps table new early served (fopenAttempt_record attempt noError) book whole only

/-! ## Closing -/

theorem storeSlot_onlyDescriptors (kernel : Kernel) (slot : Int) (pointer : Word) :
    OnlyDescriptors kernel (storeSlot kernel slot pointer) := by
  unfold OnlyDescriptors storeSlot
  split <;> rfl

theorem fclose_onlyDescriptors {kernel : Kernel} {fd : Int} (accepted : getFileDescriptor kernel fd ≠ 0#32) :
    OnlyDescriptors kernel (fclose kernel fd).2 := by
  have released := OnlyDescriptors.of_globals
    (releaseAll_toGlobals kernel (fileObjects kernel (getFileDescriptor kernel fd)))
  rw [fclose_eq accepted]
  exact released.trans (storeSlot_onlyDescriptors _ _ _)

/-- A file is closed beside the others. -/
theorem Session.Held.closed {booted : Kernel} {volume : Extent} {session : Session} {extentsOf : Int -> List Extent}
    (held : session.Held booted volume extentsOf) {fd : Int} (accepted : getFileDescriptor session.kernel fd ≠ 0#32) :
    Session.Held booted volume ⟨(fclose session.kernel fd).2, withoutNumber session.files fd⟩ extentsOf ∧
      forall file, file ∈ withoutNumber session.files fd -> SameOpen session.kernel (fclose session.kernel fd).2 file.1 := by
  rcases held.listed accepted with ⟨descriptor, member⟩
  have keeps := (held.entry member).fclose_keeps held.tracked.kernelHeap accepted
  have tracked := held.tracked.closed accepted
  have only := fclose_onlyDescriptors accepted
  generalize (fclose session.kernel fd).2 = after at *
  have kept : forall file, file ∈ withoutNumber session.files fd -> SameOpen session.kernel after file.1 := by
    intro file listed
    rcases mem_withoutNumber.mp listed with ⟨old, different⟩
    apply held.sameOpen keeps old (held.tracked.apart file old (fd, descriptor) member different)
    exact (tracked.entries file listed).slot.trans (held.tracked.entries file old).slot.symm
  rcases held.keptVolume keeps (held.apart _ member) only with ⟨owned, inside, resolved⟩
  refine ⟨⟨tracked, owned, inside, fun file listed => ?_, resolved, fun file listed => ?_⟩, kept⟩
  · exact held.apart file (mem_withoutNumber.mp listed).1
  · change (after.fatFileDescriptors (fileData after file.1)).item ≠ 0#32
    rw [(kept file listed).data, (kept file listed).record]
    exact held.found file (mem_withoutNumber.mp listed).1

/-! ## Using -/

section Using

variable {kernel after : Kernel}

theorem Transferred.sameVolume (transferred : Transferred kernel after) : SameVolume kernel after := by
  rcases transferred with ⟨_, _, rfl⟩
  exact ⟨rfl, rfl⟩

theorem SameOpen.of_transferred (transferred : Transferred kernel after) {fd : Int}
    (bytes : OpenFile kernel fd -> forall place, place < slotSize ->
      after.bytes (Fs.entryPointer kernel fd + BitVec.ofNat 32 place) =
        kernel.bytes (Fs.entryPointer kernel fd + BitVec.ofNat 32 place)) : SameOpen kernel after fd := by
  rcases transferred with ⟨_, _, rfl⟩
  exact ⟨rfl, rfl, rfl, rfl, bytes⟩

/-- `fstat` changes no byte but those that its accesses store to. -/
theorem fstat_kept (kernel : Kernel) (fd : Int) (stat : Word) {address : Word}
    (outside : .store address ∉ fat16StatAccesses kernel (fileData kernel fd) stat) :
    (fstat kernel fd stat).2.bytes address = kernel.bytes address := by
  unfold fstat
  dsimp only
  by_cases missing : getFileDescriptor kernel fd = 0#32
  · rw [if_pos missing]
  · rw [if_neg missing]
    exact fat16Stat_kept kernel _ stat outside

/-- A seek moves the descriptor of its own file, or nothing. -/
theorem fseek_moves (kernel : Kernel) (fd offset : Int) (whence : SeekMode) :
    (fseek kernel fd offset whence).2 = kernel ∨
      getFileDescriptor kernel fd ≠ 0#32 ∧ exists pos, (fseek kernel fd offset whence).2 = movedTo kernel fd pos := by
  unfold fseek
  dsimp only
  by_cases missing : getFileDescriptor kernel fd = 0#32
  · rw [if_pos missing]
    exact Or.inl rfl
  · rw [if_neg missing]
    unfold fat16Seek
    dsimp only
    split
    · exact Or.inl rfl
    · split
      · exact Or.inl rfl
      · cases whence with
        | set => exact Or.inr ⟨missing, _, rfl⟩
        | cur => exact Or.inr ⟨missing, _, rfl⟩
        | other => exact Or.inl rfl

theorem SameOpen.refl (kernel : Kernel) (fd : Int) : SameOpen kernel kernel fd := ⟨rfl, rfl, rfl, rfl, fun _ _ _ => rfl⟩

theorem SameOpen.movedTo {fd other : Int} (different : fileData kernel other ≠ fileData kernel fd) (pos : Word) :
    SameOpen kernel (movedTo kernel fd pos) other :=
  ⟨rfl, rfl, Function.update_of_ne different _ _, rfl, fun _ _ _ => rfl⟩

/-- A seek leads the cursor of its file where it should. -/
theorem HasCursor.fseek {fd : Int} {cursor : Cursor} (has : HasCursor kernel fd cursor) (offset : Int) (whence : SeekMode) :
    (Fs.fseek kernel fd offset whence).1 = (cursor.seek offset whence).1 ∧
      HasCursor (Fs.fseek kernel fd offset whence).2 fd (cursor.seek offset whence).2 := by
  have length : (slotOf kernel (fileData kernel fd)).filesize = cursor.entry.filesize := has.entry.filesize
  have position := has.position
  have moved : forall pos : Word, HasCursor (Fs.movedTo kernel fd pos) fd ⟨cursor.entry, pos.toNat⟩ := by
    intro pos
    refine ⟨movedTo_openFile has.opened pos, ?_, movedTo_position kernel fd pos⟩
    have same : fileSlot (Fs.movedTo kernel fd pos) fd = fileSlot kernel fd := movedTo_slotOf kernel fd pos
    rw [same]
    exact has.entry
  unfold Fs.fseek
  dsimp only
  rw [if_neg has.opened.descriptor]
  change (fat16Seek kernel (fileData kernel fd) (intToWord offset) whence).1 = _ ∧
    HasCursor (fat16Seek kernel (fileData kernel fd) (intToWord offset) whence).2 fd _
  unfold fat16Seek Cursor.seek
  dsimp only
  rw [if_neg (not_not_intro has.opened.file), length]
  by_cases beyond : cursor.entry.filesize ≤ (intToWord offset).toNat
  · rw [if_pos beyond, if_pos beyond]
    exact ⟨rfl, has⟩
  · rw [if_neg beyond, if_neg beyond]
    cases whence with
    | set => exact ⟨rfl, moved _⟩
    | cur =>
        have sum := moved ((kernel.fatFileDescriptors (fileData kernel fd)).pos + intToWord offset)
        rw [BitVec.toNat_add] at sum
        unfold filePosition at position
        rw [position] at sum
        exact ⟨rfl, sum⟩
    | other => exact ⟨rfl, has⟩

/-- A read delivers the bytes behind the cursor. -/
theorem HasCursor.fread {booted : Kernel} {fd : Int} {cursor : Cursor} {ptr size nmemb : Word}
    (has : HasCursor kernel fd cursor) (volume : Resolved booted kernel)
    (sized : FatHeader.sectorsPerCluster (bootSector booted) ≠ 0) (some : 0 < size.toNat) (items : 0 < nmemb.toNat)
    (file : StoredFile (driveOf booted) (bootSector booted) cursor.entry)
    (inside : cursor.position + size.toNat * nmemb.toNat ≤ cursor.entry.filesize)
    (finds : FindsItems (bootSector booted) kernel fd size nmemb)
    (apart : BufferApart kernel (fileData kernel fd) ptr (size.toNat * nmemb.toNat)) :
    exists after, Fs.fread kernel fd ptr size nmemb = Option.some ((nmemb.toNat : Int), after) ∧
      Fills kernel.bytes after.bytes ptr (size.toNat * nmemb.toNat) fun place =>
        storedByte (driveOf booted) (bootSector booted) cursor.entry.low16BitsFirstCluster (cursor.position + place) := by
  have within : filePosition kernel fd + size.toNat * nmemb.toNat ≤ fileLength kernel fd := by
    have length : fileLength kernel fd = cursor.entry.filesize := has.entry.filesize
    rw [length, has.position]
    exact inside
  rcases finds.freadFile volume sized some items has.opened apart (file.inKernel volume.drive has.entry) within with
    ⟨after, reads, filled⟩
  refine ⟨after, reads, filled.bytes.congr fun place _ => ?_⟩
  unfold fileByte
  rw [volume.drive, has.entry.low16BitsFirstCluster, has.position]

theorem SameFiles.openFile_iff (same : SameFiles kernel after) (fd : Int) : OpenFile after fd ↔ OpenFile kernel fd := by
  have descriptor : getFileDescriptor after fd = getFileDescriptor kernel fd := by
    unfold getFileDescriptor
    rw [same.table]
  have data : fileData after fd = fileData kernel fd := by
    unfold fileData
    rw [descriptor, same.records]
  have type : (after.fatItems (after.fatFileDescriptors (fileData after fd)).item).type =
      (kernel.fatItems (kernel.fatFileDescriptors (fileData kernel fd)).item).type := by
    rw [data, same.found, same.items]
  constructor
  · exact fun opened => ⟨descriptor ▸ opened.descriptor, type.symm.trans opened.file⟩
  · exact fun opened => ⟨descriptor.symm ▸ opened.descriptor, type.trans opened.file⟩

end Using

/-! ## Following -/

namespace FileSession

variable {files : FileSession}

/-- The cursor of one number is replaced. -/
theorem Follows.update (follows : files.Follows) {session : Session} {fd : Int} {cursor : Option Cursor}
    (same : forall other, other ≠ fd -> OpenFile files.session.kernel other ->
      SameOpen files.session.kernel session.kernel other)
    (old : forall other, other ≠ fd -> OpenFile session.kernel other -> OpenFile files.session.kernel other)
    (has : forall found, cursor = some found -> HasCursor session.kernel fd found)
    (all : OpenFile session.kernel fd -> cursor ≠ none) :
    FileSession.Follows ⟨session, Function.update files.cursors fd cursor⟩ where
  has := by
    intro other found here
    change Function.update files.cursors fd cursor other = some found at here
    by_cases own : other = fd
    · rw [own, Function.update_self] at here
      rw [own]
      exact has found here
    · rw [Function.update_of_ne own] at here
      have before := follows.has other found here
      exact (same other own before.opened).hasCursor before
  all := by
    intro other opened
    change Function.update files.cursors fd cursor other ≠ none
    by_cases own : other = fd
    · rw [own] at opened ⊢
      rw [Function.update_self]
      exact all opened
    · rw [Function.update_of_ne own]
      exact follows.all other (old other own opened)

/-- Every cursor stays. -/
theorem Follows.keep (follows : files.Follows) {session : Session}
    (same : forall fd, OpenFile files.session.kernel fd -> SameOpen files.session.kernel session.kernel fd)
    (old : forall fd, OpenFile session.kernel fd -> OpenFile files.session.kernel fd) :
    FileSession.Follows ⟨session, files.cursors⟩ where
  has := fun fd found here => (same fd (follows.has fd found here).opened).hasCursor (follows.has fd found here)
  all := fun fd opened => follows.all fd (old fd opened)

/-- What a session with cursors keeps. -/
def Kept (booted : Kernel) (volume : Extent) (files : FileSession) : Prop :=
  (exists extentsOf, files.session.Held booted volume extentsOf) ∧ files.Follows

variable {booted : Kernel} {volume : Extent} {extentsOf : Int -> List Extent}
  (held : files.session.Held booted volume extentsOf) (follows : files.Follows)
include held follows

theorem Kept.fopen {path mode : List Byte} {opened : Int × Kernel}
    (beside : OpensBeside booted volume files.session extentsOf opened (.fopen path mode)) :
    (files.after opened (.fopen path mode)).Kept booted volume := by
  rcases beside.held with ⟨later, heldAfter, _⟩
  refine ⟨⟨later, heldAfter⟩, ?_⟩
  have same : forall fd, OpenFile files.session.kernel fd -> SameOpen files.session.kernel opened.2 fd := by
    intro fd opens
    rcases held.listed opens.descriptor with ⟨descriptor, member⟩
    exact beside.same _ member
  have old : forall fd, ¬ (0 < opened.1 ∧ fd = opened.1) -> OpenFile opened.2 fd -> OpenFile files.session.kernel fd := by
    intro fd notNew opens
    rcases heldAfter.listed opens.descriptor with ⟨descriptor, member⟩
    rcases beside.listed fd (List.mem_map.mpr ⟨_, member, rfl⟩) with listed | new
    · rcases List.mem_map.mp listed with ⟨file, memberOld, rfl⟩
      exact (beside.same file memberOld).openFile_iff.mp opens
    · exact absurd new notNew
  unfold after book
  dsimp only
  by_cases some : 0 < opened.1
  · rw [if_pos some]
    refine follows.update (fun other _ => same other) (fun other different => old other fun new => different new.2) ?_ ?_
    · intro cursor new
      unfold newCursor at new
      split at new
      · next file =>
          cases new
          exact ⟨⟨beside.number some, file⟩, fun _ _ => rfl, beside.start some⟩
      · cases new
    · intro opens
      unfold newCursor
      rw [if_pos opens.file]
      exact Option.some_ne_none _
  · rw [if_neg some]
    exact follows.keep same fun fd => old fd fun new => some new.1

/-- A call that only uses open files, and moves no cursor. -/
theorem Kept.transferred {call : FileCall} {returned : Int × Kernel} (transferred : Transferred files.session.kernel returned.2)
    (entries : KeepsEntries files.session call)
    (bytes : forall address, ¬ call.StoresTo files.session.kernel address ->
      returned.2.bytes address = files.session.kernel.bytes address) :
    FileSession.Kept booted volume ⟨⟨returned.2, files.session.files⟩, files.cursors⟩ := by
  have sameFiles := SameFiles.of_transferred transferred
  refine ⟨⟨extentsOf, held.used sameFiles transferred.sameVolume (congrArg Globals.disk transferred.toGlobals)⟩, ?_⟩
  apply follows.keep
  · intro fd opened
    apply SameOpen.of_transferred transferred
    intro opened place below
    rcases held.listed opened.descriptor with ⟨descriptor, member⟩
    exact bytes _ (entries _ member opened place below)
  · exact fun fd => (sameFiles.openFile_iff fd).mp

theorem Kept.fseek (fd offset : Int) (whence : SeekMode) :
    (files.after (Fs.fseek files.session.kernel fd offset whence) (.fseek fd offset whence)).Kept booted volume := by
  have sameFiles := SameFiles.fseek files.session.kernel fd offset whence
  have own := fun cursor has => @HasCursor.fseek files.session.kernel fd cursor has offset whence
  have moves := fseek_moves files.session.kernel fd offset whence
  generalize Fs.fseek files.session.kernel fd offset whence = sought at *
  have others : SameVolume files.session.kernel sought.2 ∧ sought.2.disk = files.session.kernel.disk ∧
      forall other, other ≠ fd -> OpenFile files.session.kernel other ->
        SameOpen files.session.kernel sought.2 other := by
    rcases moves with unchanged | ⟨accepted, pos, moved⟩
    · rw [unchanged]
      exact ⟨SameVolume.refl _, rfl, fun other _ _ => SameOpen.refl _ other⟩
    · rw [moved]
      refine ⟨⟨rfl, rfl⟩, rfl, fun other different opened => ?_⟩
      rcases held.listed accepted with ⟨descriptor, member⟩
      rcases held.listed opened.descriptor with ⟨elsewhere, memberOther⟩
      apply SameOpen.movedTo
      exact (held.entry memberOther).fileData_ne (held.entry member) held.placed
        (held.tracked.apart _ memberOther _ member different)
  refine ⟨⟨extentsOf, held.used sameFiles others.1 others.2.1⟩, ?_⟩
  apply follows.update others.2.2
  · exact fun other _ => (sameFiles.openFile_iff other).mp
  · intro found here
    rcases Option.map_eq_some_iff.mp here with ⟨cursor, before, rfl⟩
    exact (own cursor (follows.has fd cursor before)).2
  · intro opened nothing
    exact follows.all fd ((sameFiles.openFile_iff fd).mp opened) (Option.map_eq_none_iff.mp nothing)

theorem Kept.fclose (fd : Int) :
    (files.after (Fs.fclose files.session.kernel fd) (.fclose fd)).Kept booted volume := by
  by_cases refused : getFileDescriptor files.session.kernel fd = 0#32
  · have nothing : Fs.fclose files.session.kernel fd = (- EINVAL, files.session.kernel) := by
      unfold Fs.fclose
      simp only [refused, if_true]
    have error : ¬ (- EINVAL : Int) = 0 := by decide
    unfold after book Session.book
    dsimp only
    rw [nothing, if_neg error, if_neg error]
    exact ⟨⟨extentsOf, held⟩, follows⟩
  · have zero : (Fs.fclose files.session.kernel fd).1 = 0 := by rw [fclose_eq refused]
    rcases held.closed refused with ⟨heldAfter, same⟩
    generalize Fs.fclose files.session.kernel fd = closed at *
    have member : forall other, OpenFile closed.2 other ->
        exists descriptor, (other, descriptor) ∈ withoutNumber files.session.files fd :=
      fun other opened => heldAfter.listed opened.descriptor
    unfold after book Session.book
    dsimp only
    rw [zero, if_pos rfl, if_pos rfl]
    refine ⟨⟨extentsOf, heldAfter⟩, ?_⟩
    apply follows.update
    · intro other different opened
      rcases held.listed opened.descriptor with ⟨descriptor, listed⟩
      exact same _ (mem_withoutNumber.mpr ⟨listed, different⟩)
    · intro other _ opened
      rcases member other opened with ⟨descriptor, listed⟩
      exact (same _ listed).openFile_iff.mp opened
    · exact fun found impossible => absurd impossible (Option.some_ne_none found).symm
    · intro opened
      rcases member fd opened with ⟨descriptor, listed⟩
      exact absurd rfl (mem_withoutNumber.mp listed).2

/-- Every call keeps the cursors. -/
theorem Kept.step {call : FileCall} (legal : CallLegal files call) {returned : Int × Kernel}
    (run : call.run files.session.kernel = some returned) : (files.after returned call).Kept booted volume := by
  cases call with
  | fopen path mode => exact Kept.fopen held follows (held.fopen legal.apart legal.accepted run)
  | fread fd ptr size nmemb =>
      apply Kept.transferred held follows (fread_transferred run) legal.entries
      exact fun address outside => fread_within run address (Nat.not_lt.mp outside)
  | fseek fd offset whence =>
      cases run
      exact Kept.fseek held follows fd offset whence
  | fstat fd stat =>
      cases run
      apply Kept.transferred held follows (fstat_transferred files.session.kernel fd stat) legal.entries
      exact fun address outside => fstat_kept files.session.kernel fd stat outside
  | fclose fd =>
      cases run
      exact Kept.fclose held follows fd

/-! ## Answering -/

theorem Kept.fread (sized : FatHeader.sectorsPerCluster (bootSector booted) ≠ 0) {fd : Int} {ptr size nmemb : Word}
    (entries : KeepsEntries files.session (.fread fd ptr size nmemb)) {returned : Int × Kernel}
    (run : Fs.fread files.session.kernel fd ptr size nmemb = some returned) :
    Answers booted files returned (.fread fd ptr size nmemb) := by
  intro cursor here some items stored inside finds
  have has := follows.has fd cursor here
  rcases stored with ⟨file⟩
  rcases held.listed has.opened.descriptor with ⟨descriptor, member⟩
  rcases has.fread held.resolved sized some items file inside finds fun place below =>
    Nat.not_lt.mp (entries _ member has.opened place below) with ⟨after, reads, fills⟩
  cases run.symm.trans reads
  exact ⟨rfl, fills⟩

/-- Every call answers as the cursors have it. -/
theorem Kept.answers (sized : FatHeader.sectorsPerCluster (bootSector booted) ≠ 0) {call : FileCall}
    (legal : CallLegal files call) {returned : Int × Kernel} (run : call.run files.session.kernel = some returned) :
    Answers booted files returned call := by
  cases call with
  | fopen path mode =>
      intro positive
      have beside := held.fopen legal.apart legal.accepted run
      by_contra known
      rcases Option.ne_none_iff_exists'.mp known with ⟨cursor, here⟩
      rcases held.listed (follows.has _ cursor here).opened.descriptor with ⟨descriptor, member⟩
      exact beside.fresh positive (List.mem_map.mpr ⟨_, member, rfl⟩)
  | fread fd ptr size nmemb => exact Kept.fread held follows sized legal.entries run
  | fseek fd offset whence =>
      cases run
      exact fun cursor here => ((follows.has fd cursor here).fseek offset whence).1
  | fstat fd stat =>
      cases run
      intro known
      rcases Option.ne_none_iff_exists'.mp known with ⟨cursor, here⟩
      exact fstat_openFile (follows.has fd cursor here).opened stat
  | fclose fd =>
      cases run
      intro known
      rcases Option.ne_none_iff_exists'.mp known with ⟨cursor, here⟩
      rw [fclose_eq (follows.has fd cursor here).opened.descriptor]

end FileSession

/-! ## Sessions -/

/-- A state of a session that keeps its cursors. -/
def KeptState (booted : Kernel) (state : Option FileSession) : Prop :=
  forall files, state = some files -> exists volume, files.Kept booted volume

theorem KeptState.step {booted : Kernel} {state : Option FileSession} (kept : KeptState booted state) {call : FileCall}
    (legal : forall files, state = some files -> CallLegal files call) : KeptState booted (fileStep state call) := by
  intro after step
  rcases Option.bind_eq_some_iff.mp step with ⟨files, here, returns⟩
  rcases Option.map_eq_some_iff.mp returns with ⟨returned, run, rfl⟩
  rcases kept files here with ⟨volume, ⟨extentsOf, held⟩, follows⟩
  exact ⟨volume, FileSession.Kept.step held follows (legal files here) run⟩

/-- A volume on which no file is open. -/
theorem KeptState.start {booted kernel : Kernel} (volume : Resolved booted kernel) (held : VolumeHeld kernel)
    (empty : kernel.fileDescriptors = fun _ => 0#32) : KeptState booted (some (FileSession.start kernel)) := by
  intro files here
  cases here
  rcases held.fatPrivate with ⟨extent, owned, inside⟩
  have none : forall fd, getFileDescriptor kernel fd = 0#32 := by
    intro fd
    unfold getFileDescriptor
    rw [empty]
    exact ite_self _
  refine ⟨extent, ⟨fun _ => [], ⟨?_, owned, inside, ?_, volume, ?_⟩⟩, ?_, ?_⟩
  · refine ⟨held.kernelHeap, List.nodup_nil, ?_, ?_, fun slot _ _ => congrFun empty slot⟩
    · exact fun file member => absurd member List.not_mem_nil
    · exact fun file member => absurd member List.not_mem_nil
  · exact fun file member => absurd member List.not_mem_nil
  · exact fun file member => absurd member List.not_mem_nil
  · exact fun fd cursor impossible => absurd impossible (Option.some_ne_none cursor).symm
  · exact fun fd opened => absurd (none fd) opened.descriptor

/-- Whatever calls follow each other on a mounted volume, in whatever order and on
however many files: as long as each open leaves its file with allocations of its own and
finds a slot before the last, and no client stores over the copy of an entry, the kernel
is where the cursors of its clients are.  A number that is opened has not been in use, a
seek leads where the cursor says, and a read delivers the bytes of the file that lie
behind it. -/
theorem openFiles_areCursors {booted kernel : Kernel} (volume : Resolved booted kernel) (held : VolumeHeld kernel)
    (sized : FatHeader.sectorsPerCluster (bootSector booted) ≠ 0) (empty : kernel.fileDescriptors = fun _ => 0#32)
    (calls : List FileCall) (legal : CallsLegal kernel calls) :
    FollowsThroughout kernel calls ∧ AnswersEverywhere booted kernel calls := by
  have start := KeptState.start volume held empty
  constructor
  · refine Run.throughout_of_invariant (fun state kept files here => ?_) (fun state call kept => kept.step) _ calls start legal
    rcases kept files here with ⟨_, _, follows⟩
    exact follows
  · refine Run.everywhere_of_invariant (fun state call kept lawful files returned here run => ?_)
      (fun state call kept => kept.step) _ calls start legal
    rcases kept files here with ⟨_, ⟨_, heldNow⟩, follows⟩
    exact FileSession.Kept.answers heldNow follows sized (lawful files here) run

/-! ## A session with two open files -/

/-- A copy of an entry lies in the heap. -/
theorem FileSession.Kept.entry_high {booted : Kernel} {volume : Extent} {files : FileSession}
    (kept : files.Kept booted volume) {file : Int × Word} (member : file ∈ files.session.files)
    (opened : OpenFile files.session.kernel file.1) {place : Nat} (below : place < slotSize) :
    0x01000000 ≤ (entryPointer files.session.kernel file.1 + BitVec.ofNat 32 place).toNat := by
  rcases kept with ⟨⟨extentsOf, held⟩, _⟩
  have entry := held.tracked.entries file member
  rcases entry.objects.exists_extent (entry.entryPointer_mem (held.found file member) opened) with
    ⟨extent, _, owned, address⟩
  have inside := (inExtent_place held.placed owned (Nat.lt_trans below (by decide))).1
  rw [held.tracked.kernelHeap.start] at inside
  rw [address]
  exact Nat.le_trans (Nat.le_add_right _ _) inside

/-- A call that opens nothing and stores below the heap. -/
theorem KeptState.legal_low {booted : Kernel} {state : Option FileSession} (kept : KeptState booted state) {call : FileCall}
    (low : forall kernel address, call.StoresTo kernel address -> address.toNat < 0x01000000)
    (apart : forall kernel, OpensApart kernel call ∧ OpensAccepted kernel call) :
    forall files, state = some files -> CallLegal files call := by
  intro files here
  rcases kept files here with ⟨volume, keptFiles⟩
  refine ⟨(apart _).1, (apart _).2, fun file member opened place below stores => ?_⟩
  have high := keptFiles.entry_high member opened below
  have lower := low _ _ stores
  omega

/-- The file is opened once more. -/
theorem OpenedTimes.legal {count : Nat} {kernel : Kernel} (times : OpenedTimes count kernel)
    (early : count + 1 < MAX_FILE_DESCRIPTORS) {files : FileSession} (here : files.session.kernel = kernel) :
    CallLegal files opensFile := by
  subst here
  rcases times.attempt (Nat.lt_of_succ_lt early) with ⟨p, attempt, noError, free, served, whole⟩
  refine ⟨⟨fun _ => partsFit_of_short _ _ (by decide), fun p' attempt' _ _ => ?_⟩, fun p' attempt' _ slot freeSlot => ?_,
    fun _ _ _ _ _ stores => stores⟩
  · cases attempt.symm.trans attempt'
    exact whole
  · cases attempt.symm.trans attempt'
    cases (times.ready.freeSlot (Nat.lt_of_succ_lt early)).symm.trans freeSlot
    exact ⟨early, served⟩

/-- The file is opened twice.  A seek on the first number and a read from the second have
nothing to do with each other. -/
theorem openFiles_areCursors_twice : exists booted, boot fileVolume (fun _ => 0#8) = some booted ∧
    FollowsThroughout booted
      [opensFile, opensFile, .fseek 1 10 .set, .fread 2 0x00100000#32 4#32 1#32, .fclose 1, .fread 2 0x00100000#32 4#32 1#32] ∧
    AnswersEverywhere fileVolume booted
      [opensFile, opensFile, .fseek 1 10 .set, .fread 2 0x00100000#32 4#32 1#32, .fclose 1, .fread 2 0x00100000#32 4#32 1#32] := by
  rcases fileVolume_booted with ⟨booted, boots, times⟩
  have empty := (boot_booted boots).fileDescriptors
  rcases times.next (by decide) with ⟨once, opens, timesOnce⟩
  have first : fileStep (some (FileSession.start booted)) opensFile =
      some ((FileSession.start booted).after (((0 : Nat) : Int) + 1, once) opensFile) := by
    have run : opensFile.run booted = some (((0 : Nat) : Int) + 1, once) := opens
    unfold fileStep FileSession.start
    rw [Option.bind_some, run, Option.map_some]
  have start := KeptState.start times.volume times.mounted.held empty
  have legalFirst : forall files, some (FileSession.start booted) = some files -> CallLegal files opensFile := by
    intro files here
    cases here
    exact times.legal (by decide) rfl
  have kept := start.step legalFirst
  have legalSecond : forall files, fileStep (some (FileSession.start booted)) opensFile = some files ->
      CallLegal files opensFile := by
    intro files here
    rw [first] at here
    cases here
    exact timesOnce.legal (by decide) rfl
  have keptTwice := kept.step legalSecond
  have none : forall kernel address, (FileCall.fseek 1 10 .set).StoresTo kernel address -> address.toNat < 0x01000000 :=
    fun _ _ stores => stores.elim
  have closes : forall kernel address, (FileCall.fclose 1).StoresTo kernel address -> address.toNat < 0x01000000 :=
    fun _ _ stores => stores.elim
  have reads : forall kernel address, (FileCall.fread 2 0x00100000#32 4#32 1#32).StoresTo kernel address ->
      address.toNat < 0x01000000 := by
    intro kernel address stores
    have inside : (address - 0x00100000#32).toNat < 4 := stores
    bv_omega
  have legalSeek := keptTwice.legal_low none fun kernel => ⟨trivial, trivial⟩
  have keptSeek := keptTwice.step legalSeek
  have legalRead := keptSeek.legal_low reads fun kernel => ⟨trivial, trivial⟩
  have keptRead := keptSeek.step legalRead
  have legalClose := keptRead.legal_low closes fun kernel => ⟨trivial, trivial⟩
  have legalLast := (keptRead.step legalClose).legal_low reads fun kernel => ⟨trivial, trivial⟩
  exact ⟨booted, boots, openFiles_areCursors times.volume times.mounted.held (by decide) empty _
    ⟨legalFirst, legalSecond, legalSeek, legalRead, legalClose, legalLast, trivial⟩⟩

end Fs
end LarvaOS
