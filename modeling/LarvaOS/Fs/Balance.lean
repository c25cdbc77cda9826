import LarvaOS.Fs.FatTable
import LarvaOS.Fs.FileTable
import LarvaOS.Fs.OpenRoot

namespace LarvaOS
namespace Fs

open Library Memory

/-!
# The balance of opening and closing

An `fopen` that fails, and a file that is opened, used and closed, should leave
the two tables of the kernel as they were: the entry table of the heap and the
table of file descriptors.

No function releases the nodes of a path.  As soon as one component was copied,
the copy or its node stays taken: of the two allocations at least one does not
begin the pool, and nothing that is released afterwards touches it.  The balance
holds only for paths that allocate nothing.
-/

/-- The entry table and the table of file descriptors are the same. -/
structure SameTables (before after : Kernel) : Prop where
  entries : forall block : Nat, block < before.heap.table.total.toNat ->
    after.heap.table.entries block = before.heap.table.entries block
  descriptors : forall slot, slot < MAX_FILE_DESCRIPTORS -> after.fileDescriptors slot = before.fileDescriptors slot

/-- `get_file_descriptor` accepts the number. -/
def Accepts (kernel : Kernel) (fd : Int) : Prop := getFileDescriptor kernel fd ≠ 0#32

/-- A failed `fopen` changes neither table, and a file that is closed after any
uses leaves both as they were before it was opened. -/
structure Balanced (before : Kernel) (opened : Int × Kernel) : Prop where
  failed : opened.1 = 0 -> SameTables before opened.2
  closed : Accepts opened.2 opened.1 -> forall uses used, useFileAll opened.2 opened.1 uses = some used ->
    SameTables before (fclose used opened.1).2

/-- The path is no path or has no component, or its first component does not fit
into the heap and the copy through `NULL` leaves the entry table as it is. -/
def AllocatesNothing (kernel : Kernel) (path : List Byte) : Prop :=
  pathFormatIsValid path = true -> firstComponent path ≠ [] ->
    kernel.heap.Refuses (copySize (firstComponent path)) ∧
      forall block : Nat, block < kernel.heap.table.total.toNat ->
        entriesUnder kernel.heap.table.entries (firstComponent path ++ [0#8]) block = kernel.heap.table.entries block

/-- An error number makes `fopen` answer 0. -/
theorem fopenResult_ptrErr {pointer : Word} (failed : isErr pointer = true) : fopenResult (ptrErr pointer) = 0 := by
  have high : (intToWord (-MAX_ERRNO)).toNat ≤ pointer.toNat := of_decide_eq_true failed
  have number : (intToWord (-MAX_ERRNO)).toNat = 4294963201 := by decide
  have negative : ptrErr pointer < 0 := by
    unfold ptrErr wordToInt
    rw [BitVec.toInt_eq_toNat_cond, if_neg (by omega)]
    omega
  unfold fopenResult
  rw [if_pos negative]

theorem SameTables.refl (kernel : Kernel) : SameTables kernel kernel := ⟨fun _ _ => rfl, fun _ _ => rfl⟩

/-! ## Paths that allocate nothing -/

theorem kzalloc_refused {kernel : Kernel} (placed : kernel.heap.WellPlaced) {size : Word}
    (refuses : kernel.heap.Refuses size) : kzalloc kernel size = (0#32, Kernel.refusal kernel) := by
  rcases kzalloc_cases placed size with ⟨extent, hands, _⟩ | ⟨_, result⟩
  · exact absurd hands.fits (refuses hands.nonzero extent.first)
  · exact result

/-- A component that is refused ends the parse. -/
theorem parseOnePathPart_refused {kernel : Kernel} (placed : kernel.heap.WellPlaced) {path : List Byte}
    (component : firstComponent path ≠ []) (refuses : kernel.heap.Refuses (copySize (firstComponent path))) :
    (parseOnePathPart kernel path).1 = none ∧
      (parseOnePathPart kernel path).2.2 =
        storeThroughNull (Kernel.refusal kernel) (firstComponent path ++ [0#8]) := by
  have result := kzalloc_refused placed refuses
  unfold parseOnePathPart
  rw [getAndRemovePrefixPath_eq, if_neg component]
  unfold copyComponent
  change kzalloc kernel (copySize (nextComponent (fromComponent path)).1) = _ at result
  simp only [result, if_true]
  exact ⟨trivial, rfl⟩

/-- Nothing has changed but bytes, and the entries outside the table. -/
structure LeavesAlone (before after : Kernel) : Prop where
  pool : before.heap.SamePool after.heap
  entries : forall block : Nat, block < before.heap.table.total.toNat ->
    after.heap.table.entries block = before.heap.table.entries block
  globals : after.toGlobals = before.toGlobals
  tasks : after.tasks = before.tasks
  records : after.processRecords = before.processRecords

theorem LeavesAlone.refl (kernel : Kernel) : LeavesAlone kernel kernel :=
  ⟨Heap.SamePool.refl _, fun _ _ => rfl, rfl, rfl, rfl⟩

theorem LeavesAlone.sameTables {before after : Kernel} (alone : LeavesAlone before after) : SameTables before after :=
  ⟨alone.entries, fun slot _ => congrFun (congrArg Globals.fileDescriptors alone.globals) slot⟩

/-- The parse of a path that allocates nothing. -/
theorem pathParse_empty {kernel : Kernel} (placed : kernel.heap.WellPlaced) {path : List Byte}
    (nothing : AllocatesNothing kernel path) :
    (pathParse kernel path).1 = [] ∧ LeavesAlone kernel (pathParse kernel path).2 := by
  unfold pathParse
  by_cases invalid : (!pathFormatIsValid path) = true
  · rw [if_pos invalid]
    exact ⟨rfl, LeavesAlone.refl kernel⟩
  · have valid : pathFormatIsValid path = true := by
      rw [Bool.not_eq_true, Bool.not_eq_false'] at invalid
      exact invalid
    rw [if_neg invalid, parseParts]
    by_cases component : firstComponent path = []
    · have none : parseOnePathPart kernel path = (none, [], kernel) := by
        unfold parseOnePathPart
        rw [getAndRemovePrefixPath_eq, if_pos component]
        rfl
      rw [none]
      exact ⟨rfl, LeavesAlone.refl kernel⟩
    · rcases nothing valid component with ⟨refuses, harmless⟩
      rcases parseOnePathPart_refused placed component refuses with ⟨none, after⟩
      rcases parsed : parseOnePathPart kernel path with ⟨part, rest, final⟩
      rw [parsed] at none after
      obtain rfl : part = Option.none := none
      obtain rfl : final = storeThroughNull (Kernel.refusal kernel) (firstComponent path ++ [0#8]) := after
      exact ⟨rfl, ⟨rfl, rfl⟩, harmless, rfl, rfl, rfl⟩

/-- Opening such a path fails and changes nothing. -/
theorem fopen_nothing {kernel : Kernel} (placed : kernel.heap.WellPlaced) {path mode : List Byte}
    (nothing : AllocatesNothing kernel path) {opened : Int × Kernel} (opens : fopen kernel path mode = some opened) :
    opened.1 = 0 ∧ LeavesAlone kernel opened.2 := by
  rcases pathParse_empty placed nothing with ⟨empty, alone⟩
  rcases parsed : pathParse kernel path with ⟨parts, after⟩
  rw [parsed] at empty alone
  obtain rfl : parts = [] := empty
  unfold fopen at opens
  rw [parsed] at opens
  obtain rfl := Option.some.inj opens
  exact ⟨rfl, alone⟩

/-! ## Allocations that stay -/

/-- A block that was free belongs to an allocation. -/
def Leaks (before after : Kernel) : Prop :=
  exists extent, extent.first < before.heap.table.total.toNat ∧ BlockFree before.heap.table.entries extent.first ∧
    after.heap.Owns extent

theorem Leaks.not_sameTables {before after : Kernel} (leaks : Leaks before after) : ¬ SameTables before after := by
  rcases leaks with ⟨extent, inside, free, owned⟩
  intro same
  have taken : blockEntryIsFree (after.heap.table.entries extent.first) = false :=
    owned.recorded.not_free extent.covers_first
  rw [same.entries extent.first inside] at taken
  exact Bool.false_ne_true (taken.symm.trans free)

/-- The copy of a component and its node stay taken, and one of the two does not
begin the pool. -/
theorem parseOnePathPart_leaks {kernel : Kernel} (placed : kernel.heap.WellPlaced) {path : List Byte}
    (component : firstComponent path ≠ []) (served : ¬ kernel.heap.Refuses (copySize (firstComponent path))) :
    exists extent, extent.first < kernel.heap.table.total.toNat ∧
      BlockFree kernel.heap.table.entries extent.first ∧ FreshExtent (fun _ => True) kernel extent ∧
        (parseOnePathPart kernel path).2.2.heap.Owns extent ∧
          ((parseOnePathPart kernel path).1 ≠ none -> extent.first ≠ 0) := by
  rcases kzalloc_cases placed (copySize (firstComponent path)) with ⟨copy, hands, result⟩ | ⟨refuses, _⟩
  · have copyFree : BlockFree kernel.heap.table.entries copy.first :=
      hands.fits.2 copy.first (Nat.le_refl _) (Nat.lt_add_of_pos_right (blocksFor_pos hands.nonzero))
    have nonNull := placed.addressOf_ne_null hands.inside
    have copied : exists after, copyComponent kernel (nextComponent (fromComponent path)) =
        ⟨kernel.heap.addressOf copy.first, firstComponent path, (nextComponent (fromComponent path)).2, after⟩ ∧
          after.heap = kernel.heap.withEntries (markExtent kernel.heap.table.entries copy) := by
      change kzalloc kernel (copySize (nextComponent (fromComponent path)).1) = _ at result
      unfold copyComponent
      simp only [result, nonNull, if_false]
      exact ⟨_, rfl, rfl⟩
    rcases copied with ⟨after, copied, heap⟩
    have owned : after.heap.Owns copy := by
      rw [heap]
      exact Heap.owns_marked hands.within
    have copyFresh : FreshExtent (fun _ => True) kernel copy := hands.freshExtent
    have kept : forall old, kernel.heap.Owns old -> after.heap.Owns old := by
      rw [heap]
      exact fun old oldOwned => oldOwned.mark (copyFresh old trivial oldOwned)
    have placed' : after.heap.WellPlaced := by
      rw [heap]
      exact placed.withEntries _
    unfold parseOnePathPart
    rw [getAndRemovePrefixPath_eq, if_neg component, copied]
    simp only [nonNull, if_false]
    rcases kzalloc_cases placed' 8#32 with ⟨node, nodeHands, nodeResult⟩ | ⟨_, nodeResult⟩
    · have later := (keeps_kzalloc (fun _ => True) placed' 8#32).owns copy trivial owned
      have nodeNonNull := placed'.addressOf_ne_null nodeHands.inside
      simp only [nodeResult] at later ⊢
      rw [if_neg nodeNonNull]
      by_cases begins : copy.first = 0
      · have apart := nodeHands.apart owned
        have nodeFree := nodeHands.fits.2 node.first (Nat.le_refl _)
          (Nat.lt_add_of_pos_right (blocksFor_pos nodeHands.nonzero))
        have inside := nodeHands.inside
        rw [heap] at nodeFree inside
        refine ⟨node, inside, (blockFree_markExtent.mp nodeFree).2,
          fun old _ oldOwned => nodeHands.apart (kept old oldOwned), Heap.owns_marked nodeHands.within, fun _ => ?_⟩
        have positive := copy.nonempty
        have nodePositive := node.nonempty
        unfold Extent.Apart at apart
        omega
      · exact ⟨copy, hands.inside, copyFree, copyFresh, later, fun _ => begins⟩
    · simp only [nodeResult, if_true]
      exact ⟨copy, hands.inside, copyFree, copyFresh, owned, fun some => absurd rfl some⟩
  · exact absurd refuses served

/-! ## Opening and closing around such an allocation -/

section Keeping

variable {guard : Extent -> Prop} {first before : Kernel} (kernelHeap : first.heap.IsKernelHeap)
  (encoded : first.heap.Encoded) (later : forall extent, guard extent -> extent.first ≠ 0)

/-- The objects of an open file are not in the table. -/
theorem SafeFile.bind {p : Word} (safe : SafeFile guard first before p) (slot : Nat) (fd q : Word) :
    SafeFile guard first (bindDescriptor before slot fd q) p := by
  have store := bindDescriptor_toStore before slot fd q
  have items := congrArg Store.fatItems store
  have directories := congrArg Store.fatDirectories store
  have files := congrArg Store.fatFileDescriptors store
  refine ⟨safe.fresh, ?_⟩
  rw [files]
  intro nonNull
  have item := safe.item nonNull
  refine ⟨item.fresh, ?_, ?_, ?_⟩
  · rw [items]
    exact item.kind
  · rw [items]
    exact item.pointer
  · rw [items, directories]
    exact item.slots

include kernelHeap encoded later

theorem fclose_keeps (keeps : KeepsObjects guard first before) (requests : first.heap.Requests before.heap) {fd : Int}
    (fresh : Fresh guard first (getFileDescriptor before fd))
    (safe : SafeFile guard first before (before.fileDescriptorRecords (getFileDescriptor before fd)).p) :
    KeepsObjects guard first (fclose before fd).2 := by
  unfold fclose
  by_cases refused : getFileDescriptor before fd = 0#32
  · simp only [refused, if_true]
    exact keeps
  · simp only [refused, if_false]
    have closed := fat16Close_keeps kernelHeap encoded later keeps requests safe
    have requested := requests.trans (fat16Close_requests (Requests.refl before)
      (before.fileDescriptorRecords (getFileDescriptor before fd)).p).heap
    unfold releaseFileDescriptor
    refine kfree_keepsFresh kernelHeap encoded later (closed.of_same (storeSlot_heap _ _ _) fun _ _ => ?_) ?_ fresh
    · rw [storeSlot_toStore]
      exact Store.SameObjects.refl _ _
    · rw [storeSlot_heap]
      exact requested

/-- A new descriptor, and closing the file at once, keep what is guarded. -/
theorem openDescriptor_keeps (keeps : KeepsObjects guard first before) (requests : first.heap.Requests before.heap)
    {p : Word} (safe : SafeFile guard first before p) :
    KeepsObjects guard first (openDescriptor before p).2 ∧
      (Accepts (openDescriptor before p).2 (openDescriptor before p).1 ->
        KeepsObjects guard first (fclose (openDescriptor before p).2 (openDescriptor before p).1).2) := by
  have placed := kernelHeap.wellPlaced
  cases free : freeSlot before.fileDescriptors with
  | none =>
      rw [openDescriptor_full free]
      exact ⟨keeps, fun accepted => absurd rfl accepted⟩
  | some slot =>
      rw [openDescriptor_free free]
      dsimp only
      have inside := (freeSlot_some free).1
      have allocated := keeps.kzalloc placed sizeofFileDescriptor
      have requested := requests.trans ((Requests.refl before).kzalloc sizeofFileDescriptor).heap
      have fresh := keeps.fresh ((freshRange_kzalloc guard (keeps.pool.wellPlaced placed) sizeofFileDescriptor).base
        (by decide))
      have stillSafe := safe.kzalloc placed sizeofFileDescriptor
      generalize kzalloc before sizeofFileDescriptor = fd at *
      have bound := bindDescriptor_keeps allocated fresh slot p
      refine ⟨bound, fun accepted => fclose_keeps kernelHeap encoded later bound ?_ ?_ ?_⟩
      · rw [bindDescriptor_heap]
        exact requested
      · rw [getFileDescriptor_bind _ inside]
        split
        · exact fresh
        · exact fresh_null placed
      · have resolved : getFileDescriptor (bindDescriptor fd.2 slot fd.1 p) (slot + 1) = fd.1 := by
          unfold Accepts at accepted
          rw [getFileDescriptor_bind _ inside] at accepted ⊢
          by_cases last : slot + 1 < MAX_FILE_DESCRIPTORS
          · rw [if_pos last]
          · rw [if_neg last] at accepted
            exact absurd rfl accepted
        rw [resolved, bindDescriptor_record]
        exact stillSafe.bind slot fd.1 p

/-- Opening a parsed path, and closing the file at once, keep what is guarded. -/
theorem openParsed_keeps (keeps : KeepsObjects guard first before) (requests : first.heap.Requests before.heap)
    {root : PathPart} {next : List PathPart} {mode : FileMode} {fdPrivateData : Word × Kernel}
    (result : fat16Open before root next mode = some fdPrivateData) {opened : Int × Kernel}
    (same : opened =
      if isErr fdPrivateData.1 then (fopenResult (ptrErr fdPrivateData.1), fdPrivateData.2)
      else openDescriptor fdPrivateData.2 fdPrivateData.1) :
    KeepsObjects guard first opened.2 ∧
      (Accepts opened.2 opened.1 -> KeepsObjects guard first (fclose opened.2 opened.1).2) := by
  rcases fat16Open_keeps kernelHeap encoded later keeps requests result with ⟨kept, safe⟩
  have requested := requests.trans (fat16Open_requests (Requests.refl before) result).heap
  cases failed : isErr fdPrivateData.1 with
  | true =>
      rw [failed, if_pos rfl, fopenResult_ptrErr failed] at same
      rw [same]
      exact ⟨kept, fun accepted => absurd rfl accepted⟩
  | false =>
      rw [failed, if_neg Bool.false_ne_true] at same
      rw [same]
      exact openDescriptor_keeps kernelHeap encoded later kept requested (safe failed)

end Keeping

/-! ## Paths with a component -/

/-- The parse of a path whose first component was copied and has a node. -/
theorem pathParse_part {kernel after : Kernel} {path rest : List Byte} {part : PathPart}
    (valid : pathFormatIsValid path = true) (parsed : parseOnePathPart kernel path = (some part, rest, after)) :
    pathParse kernel path = (part :: (parseParts path.length after rest).1, (parseParts path.length after rest).2) := by
  have notInvalid : ¬ (!pathFormatIsValid path) = true := by
    rw [valid]
    exact Bool.false_ne_true
  unfold pathParse
  rw [if_neg notInvalid, parseParts, parsed]

/-- The parse of a path whose first component has no node. -/
theorem pathParse_none {kernel after : Kernel} {path rest : List Byte} (valid : pathFormatIsValid path = true)
    (parsed : parseOnePathPart kernel path = (none, rest, after)) : pathParse kernel path = ([], after) := by
  have notInvalid : ¬ (!pathFormatIsValid path) = true := by
    rw [valid]
    exact Bool.false_ne_true
  unfold pathParse
  rw [if_neg notInvalid, parseParts, parsed]

/-- An open makes requests and stores, and then a descriptor if it succeeds. -/
theorem fopen_requests {kernel : Kernel} (kernelHeap : kernel.heap.IsKernelHeap) {path mode : List Byte}
    (fits : PathFits kernel path) {opened : Int × Kernel} (opens : fopen kernel path mode = some opened) :
    exists allocated, Requests kernel allocated ∧ (opened = (0, allocated) ∨ exists slot fd p,
      freeSlot kernel.fileDescriptors = some slot ∧ opened = ((slot : Int) + 1, bindDescriptor allocated slot fd p)) := by
  have parsed := (pathParse_keeps kernelHeap (KeepsObjects.refl (fun _ => False) kernel) (Requests.refl kernel) fits).2
  unfold fopen at opens
  rcases result : pathParse kernel path with ⟨parts, after⟩
  rw [result] at opens parsed
  cases parts with
  | nil =>
      obtain rfl := Option.some.inj opens
      exact ⟨after, parsed, Or.inl rfl⟩
  | cons root next =>
      dsimp only at opens parsed
      by_cases unbound : (!after.disk.fs) = true
      · rw [if_pos unbound] at opens
        obtain rfl := Option.some.inj opens
        exact ⟨after, parsed, Or.inl rfl⟩
      · rw [if_neg unbound] at opens
        by_cases invalid : getFileModeByString mode = .invalid
        · rw [if_pos invalid] at opens
          obtain rfl := Option.some.inj opens
          exact ⟨after, parsed, Or.inl rfl⟩
        · rw [if_neg invalid] at opens
          rcases Option.map_eq_some_iff.mp opens with ⟨p, found, rfl⟩
          have requests := fat16Open_requests parsed found
          cases failed : isErr p.1 with
          | true =>
              rw [if_pos rfl, fopenResult_ptrErr failed]
              exact ⟨p.2, requests, Or.inl rfl⟩
          | false =>
              rw [if_neg Bool.false_ne_true]
              have table : p.2.fileDescriptors = kernel.fileDescriptors :=
                congrArg Globals.fileDescriptors requests.toGlobals
              cases free : freeSlot p.2.fileDescriptors with
              | none =>
                  rw [openDescriptor_full free]
                  exact ⟨p.2, requests, Or.inl rfl⟩
              | some slot =>
                  rw [openDescriptor_free free]
                  rw [table] at free
                  exact ⟨_, requests.kzalloc sizeofFileDescriptor, Or.inr ⟨slot, _, p.1, free, rfl⟩⟩

/-- As soon as the first component was copied, something stays taken.  Only the
parser can leave the beginning of the pool behind, when it fails. -/
theorem fopen_leaks {kernel : Kernel} (kernelHeap : kernel.heap.IsKernelHeap) (encoded : kernel.heap.Encoded)
    {path mode : List Byte} (short : path.length < entryTableAddress) (valid : pathFormatIsValid path = true)
    (component : firstComponent path ≠ []) (served : ¬ kernel.heap.Refuses (copySize (firstComponent path)))
    {opened : Int × Kernel} (opens : fopen kernel path mode = some opened) :
    exists extent, extent.first < kernel.heap.table.total.toNat ∧ BlockFree kernel.heap.table.entries extent.first ∧
      FreshExtent (fun _ => True) kernel extent ∧ opened.2.heap.Owns extent ∧ (extent.first ≠ 0 ∨ KeepsObjects (fun _ => True) kernel opened.2) ∧
        (Accepts opened.2 opened.1 -> (fclose opened.2 opened.1).2.heap.Owns extent) := by
  have placed := kernelHeap.wellPlaced
  rcases parseOnePathPart_leaks placed component served with
    ⟨extent, inside, free, fresh, owned, begins⟩
  have shorter := parseOnePathPart_rest kernel path
  rcases parseOnePathPart_keeps kernelHeap (KeepsObjects.refl (fun _ => True) kernel) (Requests.refl kernel)
      fun _ => Or.inl (Nat.lt_of_le_of_lt (firstComponent_length path) short) with
    ⟨keeps, requested⟩
  unfold fopen at opens
  rcases parsed : parseOnePathPart kernel path with ⟨part, rest, after⟩
  rw [parsed] at keeps owned begins requested shorter
  cases part with
  | none =>
      rw [pathParse_none valid parsed] at opens
      obtain rfl := Option.some.inj opens
      exact ⟨extent, inside, free, fresh, owned, Or.inr keeps, fun accepted => absurd rfl accepted⟩
  | some part =>
      have notFirst := begins (Option.some_ne_none part)
      have later : forall other, other = extent -> other.first ≠ 0 := by
        rintro _ rfl
        exact notFirst
      rcases requested.heap.encoded placed encoded with ⟨pool, afterEncoded⟩
      have afterHeap := kernelHeap.samePool pool
      rcases parseParts_keeps afterHeap path.length (KeepsObjects.refl (fun other => other = extent) after)
        (Requests.refl after) (partsFit_of_short path.length after (Nat.lt_of_le_of_lt shorter short)) with ⟨kept, requests⟩
      refine ⟨extent, inside, free, fresh, ?_⟩
      rw [pathParse_part valid parsed] at opens
      generalize parseParts path.length after rest = parts at *
      have stays := kept.owns extent rfl owned
      simp only at opens
      by_cases unbound : (!parts.2.disk.fs) = true
      · rw [if_pos unbound] at opens
        obtain rfl := Option.some.inj opens
        exact ⟨stays, Or.inl notFirst, fun accepted => absurd rfl accepted⟩
      · rw [if_neg unbound] at opens
        by_cases invalid : getFileModeByString mode = .invalid
        · rw [if_pos invalid] at opens
          obtain rfl := Option.some.inj opens
          exact ⟨stays, Or.inl notFirst, fun accepted => absurd rfl accepted⟩
        · rw [if_neg invalid] at opens
          rcases Option.map_eq_some_iff.mp opens with ⟨fdPrivateData, result, same⟩
          rcases openParsed_keeps afterHeap afterEncoded later kept requests.heap result same.symm with
            ⟨opening, closing⟩
          exact ⟨opening.owns extent rfl owned, Or.inl notFirst, fun accepted => (closing accepted).owns extent rfl owned⟩

/-- For every call of `fopen` that fails or whose number is accepted: the tables
are balanced exactly for the paths that allocate nothing.  Only a path long
enough to reach the entry table may do harm beyond that. -/
theorem fopen_balanced_iff {kernel : Kernel} (kernelHeap : kernel.heap.IsKernelHeap) (encoded : kernel.heap.Encoded)
    {path mode : List Byte} {opened : Int × Kernel} (opens : fopen kernel path mode = some opened)
    (answers : opened.1 = 0 ∨ Accepts opened.2 opened.1) :
    (AllocatesNothing kernel path -> Balanced kernel opened) ∧
      (path.length < entryTableAddress -> Balanced kernel opened -> AllocatesNothing kernel path) := by
  have placed := kernelHeap.wellPlaced
  constructor
  · intro nothing
    rcases fopen_nothing placed nothing opens with ⟨zero, alone⟩
    refine ⟨fun _ => alone.sameTables, fun accepted => absurd ?_ accepted⟩
    rw [zero]
    rfl
  · intro short balanced valid component
    by_cases refuses : kernel.heap.Refuses (copySize (firstComponent path))
    · refine ⟨refuses, fun block _ => entriesUnder_short _ ?_ block⟩
      have bound := firstComponent_length path
      rw [List.length_append, List.length_singleton]
      omega
    · exfalso
      rcases fopen_leaks kernelHeap encoded short valid component refuses opens with
        ⟨extent, inside, free, _, stays, _, closing⟩
      rcases answers with zero | accepted
      · exact Leaks.not_sameTables ⟨extent, inside, free, stays⟩ (balanced.failed zero)
      · exact Leaks.not_sameTables ⟨extent, inside, free, closing accepted⟩
          (balanced.closed accepted [] opened.2 rfl)

/-- After booting, a file that is opened and closed again leaves allocations behind, and the
path `//`, which has no component, leaves none. -/
theorem fopen_balanced_file : exists booted opened,
    boot fileVolume (fun _ => 0#8) = some booted ∧ fopen booted [forwardSlash, 0x41#8] [0x72#8] = some (1, opened) ∧
      Accepts opened 1 ∧ ¬ Balanced booted (1, opened) ∧
        fopen booted [forwardSlash, forwardSlash] [0x72#8] = some (0, booted) ∧ Balanced booted (0, booted) := by
  rcases fileVolume_opens with ⟨booted, opened, boots, opens, _, _, just⟩
  rcases boot_room Store.blank (fun _ => 0#8) (fun _ => 0#8) (by decide) (by decide) fileVolume_ends.directoryEnds with
    ⟨booted', boots', room, _⟩
  obtain rfl := Option.some.inj (boots.symm.trans boots')
  have encoded := (boot_booted boots).encoded
  have empty : fopen booted [forwardSlash, forwardSlash] [0x72#8] = some (0, booted) := rfl
  have served := (room.kzalloc (copySize (firstComponent [forwardSlash, 0x41#8])) (by decide) (by decide)).1
  refine ⟨booted, opened, boots, opens, just.openFile.descriptor, fun balanced => ?_, empty, ?_⟩
  · have nothing := (fopen_balanced_iff room.kernelHeap encoded opens (Or.inr just.openFile.descriptor)).2 (by decide) balanced
    exact served (congrArg Prod.fst (kzalloc_refused room.kernelHeap.wellPlaced (nothing (by decide) (by decide)).1))
  · refine (fopen_balanced_iff room.kernelHeap encoded empty (Or.inl rfl)).1 fun _ component => ?_
    exact absurd (show firstComponent [forwardSlash, forwardSlash] = [] by decide) component

/-- A file is never opened for writing. -/
theorem fopen_write (kernel : Kernel) (path : List Byte) :
    exists final, fopen kernel path [0x77#8] = some (0, final) := by
  have mode : getFileModeByString [0x77#8] = .write := by decide
  have refused : fopenResult (ptrErr (errPtr (- EROFS))) = 0 := by decide
  unfold fopen
  rcases pathParse kernel path with ⟨parts, parsed⟩
  cases parts with
  | nil => exact ⟨parsed, rfl⟩
  | cons root next =>
      simp only
      by_cases unbound : (!parsed.disk.fs) = true
      · rw [if_pos unbound]
        exact ⟨parsed, rfl⟩
      · rw [if_neg unbound, mode, if_neg (by decide)]
        unfold fat16Open
        rw [if_pos (by decide), Option.map_some, isErr_errPtr (by decide) (by decide), if_pos rfl, refused]
        exact ⟨parsed, rfl⟩

/-- After booting from a FAT16 disk, opening `/a` for writing fails and leaves an
allocation behind. -/
theorem fopen_unbalanced_write :
    exists booted, boot (Kernel.loaded Store.blank smallVolume.sectors fun _ => 0#8) (fun _ => 0#8) = some booted ∧
      exists opened, fopen booted [forwardSlash, 0x61#8] [0x77#8] = some opened ∧ opened.1 = 0 ∧
        ¬ Balanced booted opened := by
  have ends : DirectoryEnds ⟨smallVolume.sectors, fun _ => 0#8⟩ (rootDirStart (smallVolume.sectors 0)) 0 :=
    ⟨by decide, fun _ below => absurd below (Nat.not_lt_zero _)⟩
  rcases boot_room Store.blank (fun _ => 0#8) (fun _ => 0#8) (by decide) (by decide) ends with
    ⟨booted, boots, room, _⟩
  rcases fopen_write booted [forwardSlash, 0x61#8] with ⟨final, opens⟩
  refine ⟨booted, boots, (0, final), opens, rfl, fun balanced => ?_⟩
  have served := (room.kzalloc (copySize (firstComponent [forwardSlash, 0x61#8])) (by decide) (by decide)).1
  rcases fopen_leaks room.kernelHeap (boot_booted boots).encoded (by decide) (by decide) (by decide)
    (fun refuses => served (congrArg Prod.fst (kzalloc_refused room.kernelHeap.wellPlaced refuses))) opens with
    ⟨extent, inside, free, _, stays, _, _⟩
  exact Leaks.not_sameTables ⟨extent, inside, free, stays⟩ (balanced.failed rfl)

end Fs
end LarvaOS
