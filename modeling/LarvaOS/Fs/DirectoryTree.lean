import LarvaOS.Fs.DirectoryItems

namespace LarvaOS
namespace Fs

open Library Disk Libc Memory

/-!
# The walk of a path

A path of several components leads from the root directory down the tree.  The
walk of the source compares the type of an item, which is 0 or 1, with the
attribute `0x10` of a directory entry.  No item has that type, and the walk
therefore ends below the root directory, whatever lies there.

The item that a path leads to is known by the entry that it was made from.
-/

/-! ## The tree -/

/-- The walk of the names from a directory on leads to this entry.  The entries
of a subdirectory are those of the chain that begins with its first cluster. -/
inductive Reaches (drive : Drive) (header : Nat -> Byte) : StoredDirectory -> List (List Byte) -> Slot -> Prop where
  | last {stored : StoredDirectory} {name : List Byte} {index : Nat} (held : stored.Holds name index) :
      Reaches drive header stored [name] (stored.slots index)
  | down {stored : StoredDirectory} {name : List Byte} {rest : List (List Byte)} {index : Nat} {slot : Slot}
      (held : stored.Holds name index) (subdirectory : (stored.slots index).isSubdirectory = true)
      (chain : StoredChain drive header) (first : chain.first = (stored.slots index).low16BitsFirstCluster)
      (below : Reaches drive header chain.directory rest slot) : Reaches drive header stored (name :: rest) slot

/-- A path of one component leads to the entries with its name. -/
theorem reaches_singleton {drive : Drive} {header : Nat -> Byte} {stored : StoredDirectory} {name : List Byte}
    {slot : Slot} :
    Reaches drive header stored [name] slot ↔ exists index, stored.Holds name index ∧ stored.slots index = slot := by
  constructor
  · intro reached
    cases reached with
    | last held => exact ⟨_, held, rfl⟩
    | down _ _ _ _ below => cases below
  · rintro ⟨index, held, rfl⟩
    exact Reaches.last held

/-! ## The walk -/

/-- Where a walk has come to: the entry that the item was made from, the item,
and the kernel. -/
structure Walk where
  origin : Option Slot
  item : Word
  kernel : Kernel

/-- A search as a step of a walk. -/
def Walk.ofSearch (before : Kernel) (directory : FatDirectory) (search : Search) : Walk where
  origin := search.origin.map (memorySlot before directory)
  item := search.item
  kernel := search.kernel

/-- The loop of `fat16_get_directory_entry`, which also says from which entry
the item was made. -/
def descendFrom : List PathPart -> Walk -> Option Walk
  | [], walk => some walk
  | next :: rest, walk =>
      if (walk.kernel.fatItems walk.item).type ≠ FAT_FILE_SUBDIRECTORY.setWidth 32 then
        some { walk with item := 0#32 }
      else
        let directory := walk.kernel.fatDirectories (walk.kernel.fatItems walk.item).pointer
        (searchFrom directory next.text (visitedSlots directory) (Search.start walk.kernel)).bind fun tmpItem =>
          descendFrom rest
            { Walk.ofSearch walk.kernel directory tmpItem with kernel := fat16FatItemFree tmpItem.kernel walk.item }

/-- The walk of `fat16_get_directory_entry`. -/
def walkFrom (kernel : Kernel) (path : PathPart) (next : List PathPart) : Option Walk :=
  let root := (privateOf kernel).rootDir
  (searchFrom root path.text (visitedSlots root) (Search.start kernel)).bind fun rootItem =>
    if rootItem.item = 0#32 then some (Walk.ofSearch kernel root rootItem)
    else descendFrom next (Walk.ofSearch kernel root rootItem)

theorem searchFrom_eq_find (kernel : Kernel) (directory : FatDirectory) (name : List Byte) :
    fat16FindItemInDirectory kernel directory name =
      (searchFrom directory name (visitedSlots directory) (Search.start kernel)).map
        fun found => (found.item, found.kernel) :=
  (searchFrom_eq_searchSlots directory name (visitedSlots directory) (Search.start kernel)).symm

theorem descendFrom_stops {part : PathPart} {rest : List PathPart} (walk : Walk)
    (stops : (walk.kernel.fatItems walk.item).type ≠ FAT_FILE_SUBDIRECTORY.setWidth 32) :
    descendFrom (part :: rest) walk = some { walk with item := 0#32 } := by
  rw [descendFrom, if_pos stops]

theorem descendFrom_eq_descend (next : List PathPart) (walk : Walk) :
    (descendFrom next walk).map (fun found => (found.item, found.kernel)) = descend next walk.kernel walk.item := by
  induction next generalizing walk with
  | nil => rfl
  | cons next rest inductionHypothesis =>
      rw [descendFrom, descend]
      by_cases stops : (walk.kernel.fatItems walk.item).type ≠ FAT_FILE_SUBDIRECTORY.setWidth 32
      · rw [if_pos stops, if_pos stops]
        rfl
      · rw [if_neg stops, if_neg stops]
        dsimp only
        rw [searchFrom_eq_find]
        cases searchFrom (walk.kernel.fatDirectories (walk.kernel.fatItems walk.item).pointer) next.text
            (visitedSlots (walk.kernel.fatDirectories (walk.kernel.fatItems walk.item).pointer))
            (Search.start walk.kernel) with
        | none => rfl
        | some tmpItem => exact inductionHypothesis _

/-- It is the walk of the source. -/
theorem walkFrom_eq (kernel : Kernel) (path : PathPart) (next : List PathPart) :
    (walkFrom kernel path next).map (fun found => (found.item, found.kernel)) =
      fat16GetDirectoryEntry kernel path next := by
  unfold walkFrom fat16GetDirectoryEntry
  dsimp only
  rw [searchFrom_eq_find]
  cases searchFrom (privateOf kernel).rootDir path.text (visitedSlots (privateOf kernel).rootDir)
      (Search.start kernel) with
  | none => rfl
  | some rootItem =>
      rw [Option.bind_some, Option.map_some, Option.bind_some]
      by_cases missing : rootItem.item = 0#32
      · rw [if_pos missing, if_pos missing, Option.map_some]
        exact congrArg (fun item => some (item, rootItem.kernel)) missing
      · rw [if_neg missing, if_neg missing]
        exact descendFrom_eq_descend next (Walk.ofSearch kernel (privateOf kernel).rootDir rootItem)

/-- The walk dereferences no missing item. -/
def FollowsItems : List PathPart -> Walk -> Prop
  | [], _ => True
  | next :: rest, walk =>
      walk.item ≠ 0#32 ∧
        ((walk.kernel.fatItems walk.item).type = FAT_FILE_SUBDIRECTORY.setWidth 32 ->
          let directory := walk.kernel.fatDirectories (walk.kernel.fatItems walk.item).pointer
          forall tmpItem,
            searchFrom directory next.text (visitedSlots directory) (Search.start walk.kernel) = some tmpItem ->
            FollowsItems rest
              { Walk.ofSearch walk.kernel directory tmpItem with kernel := fat16FatItemFree tmpItem.kernel walk.item })

/-- What `fat16_get_directory_entry` promises: it returns, with an item exactly
when the path leads to an entry; the item was made from that entry; and on the
way no missing item is dereferenced. -/
def FindsEntry (kernel : Kernel) (path : PathPart) (next : List PathPart) : Prop :=
  let leadsTo := Reaches (driveOf kernel) (privateOf kernel).header
    (storedRoot (driveOf kernel) (privateOf kernel).header) (path.text :: next.map PathPart.text)
  let root := (privateOf kernel).rootDir
  (exists found, walkFrom kernel path next = some found ∧
    (found.item ≠ 0#32 ↔ exists slot, leadsTo slot) ∧
    (found.item ≠ 0#32 -> exists origin slot, found.origin = some origin ∧ leadsTo slot ∧ SameSlot origin slot ∧
      IsItemOf origin found.item found.kernel)) ∧
  (forall rootItem, searchFrom root path.text (visitedSlots root) (Search.start kernel) = some rootItem ->
    rootItem.item ≠ 0#32 -> FollowsItems next (Walk.ofSearch kernel root rootItem))

/-! ## The first component -/

/-- Every slot that is taken for the name can be counted. -/
def AllCountable (kernel : Kernel) (slots : Nat -> Slot) (total : Nat) (name : List Byte) : Prop :=
  forall index, index < total -> TakenFor name (slots index) -> Countable kernel (slots index)

section Searching

variable {kernel : Kernel} {mark : Nat} (mounted : MountedRoot kernel mark) {name : List Byte}
include mounted

/-- No item has the type that the walk asks for. -/
theorem searchFrom_stops {directory : FatDirectory} {found : Search}
    (same : searchFrom directory name (visitedSlots directory) (Search.start kernel) = some found)
    (nonNull : found.item ≠ 0#32) : (found.kernel.fatItems found.item).type ≠ FAT_FILE_SUBDIRECTORY.setWidth 32 := by
  have source := searchFrom_eq_searchSlots directory name (visitedSlots directory) (Search.start kernel)
  rw [same] at source
  have safe := (searchSlots_keeps mounted.kernelHeap (KeepsObjects.refl (fun _ => True) kernel)
    (fun some => absurd rfl some) source.symm).2 nonNull
  rcases safe.kind with directory | file
  · rw [directory]
    decide
  · rw [file]
    decide

theorem searchFrom_returns
    (countable : AllCountable kernel (memorySlot kernel (privateOf kernel).rootDir)
      (privateOf kernel).rootDir.total.toNat name) {indexes : List Nat}
    (inside : forall index, index ∈ indexes -> index < (privateOf kernel).rootDir.total.toNat) {search : Search}
    (later : Later kernel search.kernel) :
    exists found, searchFrom (privateOf kernel).rootDir name indexes search = some found := by
  induction indexes generalizing search with
  | nil => exact ⟨search, rfl⟩
  | cons index rest inductionHypothesis =>
      have insideRest : forall other, other ∈ rest -> other < (privateOf kernel).rootDir.total.toNat :=
        fun other member => inside other (List.mem_cons_of_mem index member)
      rw [searchFrom]
      by_cases taken : TakenFor name (memorySlot search.kernel (privateOf kernel).rootDir index)
      · have same := later.slots mounted (inside index List.mem_cons_self)
        have ends := countable index (inside index List.mem_cons_self) ((TakenFor.congr same).mp taken)
        rcases fat16MakeNewFatItemForDirectoryItem_returns mounted.held later mounted.sized
            ((Countable.congr same).mpr ends) with
          ⟨made, make⟩
        rw [if_pos taken, make]
        exact inductionHypothesis insideRest (later.make mounted.held make)
      · rw [if_neg taken]
        exact inductionHypothesis insideRest later

/-- An item that was made without a refusal, told by the volume as it was. -/
theorem made_served {current : Kernel} (later : Later kernel current) {slot : Slot} {made : Word × Kernel}
    (make : fat16MakeNewFatItemForDirectoryItem current slot = some made) (served : made.2.refused = current.refused) :
    made.1 ≠ 0#32 ∧ Countable kernel slot ∧ (IsItemOf slot made.1 made.2 ↔ ChainLoads kernel slot) := by
  have volume := later.sameVolume mounted.held
  have sized : sizeOfClusterBytes (privateOf current) ≠ 0 := by
    rw [volume.fatPrivate]
    exact mounted.sized
  have made' := fat16MakeNewFatItemForDirectoryItem_served (later.volumeHeld mounted.held) sized make served
  rw [Countable.sameVolume volume, ChainLoads.sameVolume volume] at made'
  exact made'

/-- A search without a refusal has counted every slot that it took. -/
theorem searchFrom_served {indexes : List Nat}
    (inside : forall index, index ∈ indexes -> index < (privateOf kernel).rootDir.total.toNat) {search found : Search}
    (later : Later kernel search.kernel)
    (same : searchFrom (privateOf kernel).rootDir name indexes search = some found)
    (served : found.kernel.refused = search.kernel.refused) {index : Nat} (member : index ∈ indexes)
    (taken : TakenFor name (memorySlot kernel (privateOf kernel).rootDir index)) :
    Countable kernel (memorySlot kernel (privateOf kernel).rootDir index) := by
  induction indexes generalizing search with
  | nil => exact absurd member List.not_mem_nil
  | cons first rest inductionHypothesis =>
      have insideRest : forall other, other ∈ rest -> other < (privateOf kernel).rootDir.total.toNat :=
        fun other member => inside other (List.mem_cons_of_mem first member)
      rw [searchFrom] at same
      have sameSlot := later.slots mounted (inside first List.mem_cons_self)
      by_cases takenFirst : TakenFor name (memorySlot search.kernel (privateOf kernel).rootDir first)
      · rw [if_pos takenFirst] at same
        rcases Option.bind_eq_some_iff.mp same with ⟨made, make, rest⟩
        have before := (fat16MakeNewFatItemForDirectoryItem_requests (Requests.refl search.kernel) make).refused
        have after := (searchFrom_requests rest).refused
        dsimp only at after
        have servedMade : made.2.refused = search.kernel.refused := by omega
        rcases List.mem_cons.mp member with rfl | later'
        · have counted := (made_served mounted later make servedMade).2.1
          exact (Countable.congr sameSlot).mp counted
        · exact inductionHypothesis insideRest (later.make mounted.held make) rest (served.trans servedMade.symm) later'
      · rw [if_neg takenFirst] at same
        rcases List.mem_cons.mp member with rfl | later'
        · exact absurd ((TakenFor.congr sameSlot).mpr taken) takenFirst
        · exact inductionHypothesis insideRest later same served later'

/-- What a search of the root directory without a refusal comes to. -/
theorem rootSearch_cases {found : Search}
    (same : searchFrom (privateOf kernel).rootDir name (visitedSlots (privateOf kernel).rootDir)
      (Search.start kernel) = some found) (served : found.kernel.refused = kernel.refused) :
    (exists last, LastTaken (memorySlot kernel (privateOf kernel).rootDir) (privateOf kernel).rootDir name last ∧
      found.origin = some last ∧ found.item ≠ 0#32 ∧
        (IsItemOf (memorySlot kernel (privateOf kernel).rootDir last) found.item found.kernel ↔
          ChainLoads kernel (memorySlot kernel (privateOf kernel).rootDir last))) ∨
    ((forall index, index < (privateOf kernel).rootDir.total.toNat ->
      ¬ TakenFor name (memorySlot kernel (privateOf kernel).rootDir index)) ∧ found.item = 0#32) := by
  by_cases taken : exists index, index < (privateOf kernel).rootDir.total.toNat ∧
      TakenFor name (memorySlot kernel (privateOf kernel).rootDir index)
  · rcases exists_lastBelow taken with ⟨last, lastTaken⟩
    rcases mounted.root.owned with ⟨guard, owned⟩
    rw [searchFrom_last mounted.kernelHeap owned lastTaken] at same
    rcases Option.bind_eq_some_iff.mp same with ⟨reached, reach, mapped⟩
    rcases Option.map_eq_some_iff.mp mapped with ⟨made, make, rfl⟩
    have requests := searchFrom_requests reach
    have keeps := searchFrom_keeps mounted.kernelHeap (KeepsObjects.refl (fun _ => True) kernel) reach
    have later : Later kernel reached.kernel := ⟨keeps, requests⟩
    have before := requests.refused
    have after := (fat16MakeNewFatItemForDirectoryItem_requests (Requests.refl reached.kernel) make).refused
    change kernel.refused ≤ reached.kernel.refused at before
    dsimp only at served
    have servedMade : made.2.refused = reached.kernel.refused := by omega
    rcases made_served mounted later make servedMade with ⟨nonNull, _, isItem⟩
    have sameSlot := later.slots mounted lastTaken.below
    refine Or.inl ⟨last, lastTaken, rfl, nonNull, ?_⟩
    rw [← ChainLoads.congr sameSlot, ← isItem]
    exact ⟨fun item => item.congr sameSlot.symm, fun item => item.congr sameSlot⟩
  · have untaken : forall index, index < (privateOf kernel).rootDir.total.toNat ->
        ¬ TakenFor name (memorySlot kernel (privateOf kernel).rootDir index) :=
      fun index below here => taken ⟨index, below, here⟩
    rw [searchFrom_none untaken] at same
    obtain rfl := Option.some.inj same
    exact Or.inr ⟨untaken, rfl⟩

end Searching

/-! ## The promise -/

/-- The last of the counted slots that are taken for the name is a slot in use
with the name, and its clusters have what it needs; or there is no such slot of
either kind. -/
def RootTold (kernel : Kernel) (stored : StoredDirectory) (total : Nat) (name : List Byte) : Prop :=
  (exists last index, LastBelow (fun place => TakenFor name (stored.slots place)) total last ∧
    stored.Holds name index ∧ SameSlot (stored.slots last) (stored.slots index) ∧ ChainLoads kernel (stored.slots last)) ∨
  (forall index, index < total -> ¬ TakenFor name (stored.slots index)) ∧ ¬ exists index, stored.Holds name index

/-- Every directory in the root directory that is taken for the first component
has an end; a path of one component is told the right slot; and a longer path
leads nowhere. -/
def EntryTold (kernel : Kernel) (mark : Nat) (path : PathPart) (next : List PathPart) : Prop :=
  let stored := storedRoot (driveOf kernel) (privateOf kernel).header
  let total := countedBefore notDeleted (fun index => stored.slots index 0) mark
  AllCountable kernel stored.slots total path.text ∧
    (next = [] -> RootTold kernel stored total path.text) ∧
      (next ≠ [] -> ¬ exists slot, Reaches (driveOf kernel) (privateOf kernel).header stored
        (path.text :: next.map PathPart.text) slot)

/-- The walk behind the search of the root directory. -/
def Walk.afterRoot (next : List PathPart) (walk : Walk) : Walk :=
  match next with
  | [] => walk
  | _ :: _ => { walk with item := 0#32 }

section Promising

variable {kernel : Kernel} {mark : Nat} (mounted : MountedRoot kernel mark)
include mounted

theorem MountedRoot.total :
    (privateOf kernel).rootDir.total.toNat =
      countedBefore notDeleted
        (fun index => (storedRoot (driveOf kernel) (privateOf kernel).header).slots index 0) mark := by
  rw [mounted.root.total, Int.toNat_natCast]

/-- The walk ends below the root directory. -/
theorem walkFrom_eq_afterRoot {path : PathPart} (next : List PathPart) {rootItem : Search}
    (search : searchFrom (privateOf kernel).rootDir path.text (visitedSlots (privateOf kernel).rootDir)
      (Search.start kernel) = some rootItem) :
    walkFrom kernel path next = some ((Walk.ofSearch kernel (privateOf kernel).rootDir rootItem).afterRoot next) := by
  unfold walkFrom
  dsimp only
  rw [search, Option.bind_some]
  by_cases missing : rootItem.item = 0#32
  · rw [if_pos missing]
    cases next with
    | nil => rfl
    | cons part rest =>
        unfold Walk.afterRoot Walk.ofSearch
        rw [missing]
  · rw [if_neg missing]
    cases next with
    | nil => rfl
    | cons part rest =>
        have stops := searchFrom_stops mounted search missing
        exact descendFrom_stops _ stops

theorem followsItems_root {path : PathPart} (next : List PathPart) {rootItem : Search}
    (search : searchFrom (privateOf kernel).rootDir path.text (visitedSlots (privateOf kernel).rootDir)
      (Search.start kernel) = some rootItem) (nonNull : rootItem.item ≠ 0#32) :
    FollowsItems next (Walk.ofSearch kernel (privateOf kernel).rootDir rootItem) := by
  cases next with
  | nil => exact True.intro
  | cons part rest =>
      have stops := searchFrom_stops mounted search nonNull
      exact ⟨nonNull, fun goesOn => absurd goesOn stops⟩

theorem allCountable_iff (name : List Byte) :
    AllCountable kernel (memorySlot kernel (privateOf kernel).rootDir) (privateOf kernel).rootDir.total.toNat name ↔
      AllCountable kernel (storedRoot (driveOf kernel) (privateOf kernel).header).slots
        (countedBefore notDeleted
          (fun index => (storedRoot (driveOf kernel) (privateOf kernel).header).slots index 0) mark) name := by
  rw [← mounted.total]
  constructor
  · intro countable index inside taken
    have same := mounted.root.same index inside
    exact (Countable.congr same).mp (countable index inside ((TakenFor.congr same).mpr taken))
  · intro countable index inside taken
    have same := mounted.root.same index inside
    exact (Countable.congr same).mpr (countable index inside ((TakenFor.congr same).mp taken))

/-- A search of the root directory without a refusal finds an entry as the
stored slots tell. -/
theorem rootSearch_stored {name : List Byte} {found : Search}
    (same : searchFrom (privateOf kernel).rootDir name (visitedSlots (privateOf kernel).rootDir)
      (Search.start kernel) = some found) (served : found.kernel.refused = kernel.refused) :
    let stored := storedRoot (driveOf kernel) (privateOf kernel).header
    let total := countedBefore notDeleted (fun index => stored.slots index 0) mark
    (exists last, LastBelow (fun place => TakenFor name (stored.slots place)) total last ∧
      found.item ≠ 0#32 ∧ exists origin, found.origin.map (memorySlot kernel (privateOf kernel).rootDir) = some origin ∧
        SameSlot origin (stored.slots last) ∧
          (IsItemOf origin found.item found.kernel ↔ ChainLoads kernel (stored.slots last))) ∨
    ((forall index, index < total -> ¬ TakenFor name (stored.slots index)) ∧ found.item = 0#32) := by
  intro stored total
  have number : (privateOf kernel).rootDir.total.toNat = total := mounted.total
  have slots := mounted.root.same
  rw [number] at slots
  rcases rootSearch_cases mounted same served with ⟨last, lastTaken, origin, nonNull, isItem⟩ | ⟨untaken, null⟩
  · rw [LastTaken, number] at lastTaken
    refine Or.inl ⟨last, ⟨lastTaken.below, ?_, fun index after below taken => ?_⟩, nonNull,
      memorySlot kernel (privateOf kernel).rootDir last, ?_, slots last lastTaken.below,
      isItem.trans (ChainLoads.congr (slots last lastTaken.below))⟩
    · exact (TakenFor.congr (slots last lastTaken.below)).mp lastTaken.here
    · exact lastTaken.behind index after below ((TakenFor.congr (slots index below)).mpr taken)
    · rw [origin]
      rfl
  · rw [number] at untaken
    exact Or.inr ⟨fun index below taken => untaken index below ((TakenFor.congr (slots index below)).mpr taken), null⟩

/-- When the heap serves every request, the promise is kept exactly for the
paths of one component that are told the right slot and for the longer paths
that lead nowhere. -/
theorem findsEntry_iff_entryTold (path : PathPart) (next : List PathPart)
    (served : forall found, fat16GetDirectoryEntry kernel path next = some found -> found.2.refused = kernel.refused) :
    FindsEntry kernel path next ↔ EntryTold kernel mark path next := by
  have servedRoot : forall rootItem, searchFrom (privateOf kernel).rootDir path.text
      (visitedSlots (privateOf kernel).rootDir) (Search.start kernel) = some rootItem ->
      rootItem.kernel.refused = kernel.refused := by
    intro rootItem search
    have walk := walkFrom_eq kernel path next
    rw [walkFrom_eq_afterRoot mounted next search] at walk
    have same := served _ walk.symm
    cases next with
    | nil => exact same
    | cons part rest => exact same
  constructor
  · rintro ⟨⟨found, walk, exactly, built⟩, _⟩
    rcases Option.bind_eq_some_iff.mp walk with ⟨rootItem, search, _⟩
    rw [walkFrom_eq_afterRoot mounted next search] at walk
    obtain rfl := Option.some.inj walk
    have servedHere := servedRoot rootItem search
    refine ⟨(allCountable_iff mounted path.text).mp fun index inside taken => ?_, ?_, ?_⟩
    · exact searchFrom_served mounted (fun _ member => List.mem_range.mp member) (Later.refl kernel) search servedHere
        (List.mem_range.mpr inside) taken
    · rintro rfl
      rcases rootSearch_stored mounted search servedHere with ⟨last, lastTaken, nonNull, origin, same, slot, loads⟩ |
          ⟨untaken, null⟩
      · rcases built nonNull with ⟨origin', reached, same', leads, sameSlot, isItem⟩
        obtain rfl := Option.some.inj (same.symm.trans same')
        rcases reaches_singleton.mp leads with ⟨index, held, rfl⟩
        exact Or.inl ⟨last, index, lastTaken, held, slot.symm.trans sameSlot, loads.mp isItem⟩
      · refine Or.inr ⟨untaken, fun ⟨index, held⟩ => ?_⟩
        exact exactly.mpr ⟨_, Reaches.last held⟩ null
    · intro longer leads
      cases next with
      | nil => exact longer rfl
      | cons part rest => exact exactly.mpr leads rfl
  · rintro ⟨countable, told, nowhere⟩
    refine ⟨?_, fun rootItem search nonNull => followsItems_root mounted next search nonNull⟩
    have start : Later kernel (Search.start kernel).kernel := Later.refl kernel
    rcases searchFrom_returns mounted ((allCountable_iff mounted path.text).mpr countable)
      (fun _ member => List.mem_range.mp member) start with ⟨rootItem, search⟩
    refine ⟨_, walkFrom_eq_afterRoot mounted next search, ?_⟩
    cases next with
    | nil =>
        rcases rootSearch_stored mounted search (servedRoot rootItem search) with
          ⟨last, lastTaken, nonNull, origin, same, slot, loads⟩ | ⟨untaken, null⟩
        · rcases told rfl with ⟨last', index, lastTaken', held, sameSlot, chain⟩ | ⟨untaken, _⟩
          · obtain rfl := lastTaken.unique lastTaken'
            have leads := @Reaches.last (driveOf kernel) (privateOf kernel).header _ _ _ held
            exact ⟨⟨fun _ => ⟨_, leads⟩, fun _ => nonNull⟩,
              fun _ => ⟨origin, _, same, leads, slot.trans sameSlot, loads.mpr chain⟩⟩
          · exact absurd lastTaken.here (untaken last lastTaken.below)
        · rcases told rfl with ⟨last, index, lastTaken, _⟩ | ⟨_, none⟩
          · exact absurd lastTaken.here (untaken last lastTaken.below)
          · refine ⟨⟨fun nonNull => absurd null nonNull, ?_⟩, fun nonNull => absurd null nonNull⟩
            rintro ⟨slot, leads⟩
            rcases reaches_singleton.mp leads with ⟨index, held, _⟩
            exact absurd ⟨index, held⟩ none
    | cons part rest =>
        exact ⟨⟨fun nonNull => absurd rfl nonNull, fun leads => absurd leads (nowhere (List.cons_ne_nil _ _))⟩,
          fun nonNull => absurd rfl nonNull⟩

end Promising

/-! ## Requests that are served -/

theorem RoomFrom.kzalloc_refused {kernel : Kernel} {first : Nat} (room : RoomFrom kernel first) (size : Word)
    (nonzero : size ≠ 0#32) (fits : first + blocksFor size ≤ 25600) :
    (Memory.kzalloc kernel size).2.refused = kernel.refused := by
  rw [kzalloc_refused_count, if_neg (room.kzalloc size nonzero fits).1, Nat.add_zero]

/-- A directory of at most 128 slots needs one block for them. -/
theorem directorySize_page {total : Nat} (some : 0 < total) (few : total ≤ 128) :
    intToWord (directorySize total) ≠ 0#32 ∧ blocksFor (intToWord (directorySize total)) = 1 := by
  have number : (intToWord (directorySize total)).toNat = total * 32 := by
    rw [directorySize, intToWord_wrapInt, intToWord, BitVec.toNat_ofInt]
    unfold slotSize
    omega
  constructor
  · intro zero
    have none : (intToWord (directorySize total)).toNat = 0 := congrArg BitVec.toNat zero
    omega
  · unfold blocksFor
    omega

theorem loadSlots_room {kernel : Kernel} {first : Nat} (room : RoomFrom kernel first) (fits : first + 1 ≤ 25600)
    {directory : Word} {cluster : Int} {total : Nat} (some : 0 < total) (few : total ≤ 128) {loaded : Word × Kernel}
    (load : loadSlots kernel directory cluster total = .some loaded) : loaded.2.refused = kernel.refused := by
  rcases directorySize_page some few with ⟨nonzero, one⟩
  have buffer : (slotBuffer kernel directory total).2.refused = kernel.refused := by
    unfold slotBuffer
    have counted := room.of_heap
      (storeDirectory_heap kernel directory { kernel.fatDirectories directory with total := (total : Int) })
    exact counted.kzalloc_refused _ nonzero (by rw [one]; exact fits)
  unfold loadSlots at load
  by_cases full : (slotBuffer kernel directory total).1 = 0#32
  · simp only [full, if_true] at load
    obtain rfl := Option.some.inj load
    exact (fat16FreeDirectory_refused _ _).trans buffer
  · simp only [full, if_false] at load
    rcases Option.map_eq_some_iff.mp load with ⟨reading, read, rfl⟩
    have transferred := (fat16ReadInternal_transferred (directorySize_lt total) read).refused
    by_cases failed : reading.res < 0
    · simp only [failed, if_true]
      exact (fat16FreeDirectory_refused _ _).trans (transferred.trans buffer)
    · simp only [failed, if_false]
      exact transferred.trans buffer

/-- The item of a directory that is neither empty nor large is made without a
refusal when three blocks are free. -/
theorem fat16MakeNewFatItemForDirectoryItem_room {kernel : Kernel} {mark first : Nat} (mounted : MountedRoot kernel mark)
    (room : RoomFrom kernel first) (fits : first + 3 ≤ 25600) {slot : Slot} (directory : slot.isSubdirectory = true)
    {last : Nat}
    (ends : DirectoryEnds (driveOf kernel)
      (fat16ClusterToSector (privateOf kernel) (fat16GetFirstCluster slot) * DISK_SECTOR_SIZE) last)
    (some : 0 < slotsInUse (driveOf kernel)
      (fat16ClusterToSector (privateOf kernel) (fat16GetFirstCluster slot) * DISK_SECTOR_SIZE) last)
    (few : slotsInUse (driveOf kernel)
      (fat16ClusterToSector (privateOf kernel) (fat16GetFirstCluster slot) * DISK_SECTOR_SIZE) last ≤ 128)
    {made : Word × Kernel} (same : fat16MakeNewFatItemForDirectoryItem kernel slot = .some made) :
    made.2.refused = kernel.refused := by
  have page : blocksFor 8#32 = 1 := by decide
  have page' : blocksFor 16#32 = 1 := by decide
  have file : ¬ (!slot.isSubdirectory) = true := by simpa using directory
  have itemRefused := room.kzalloc_refused 8#32 (by decide) (by omega)
  rcases room.kzalloc 8#32 (by decide) (by omega) with ⟨item, itemRoom⟩
  have itemLater := (Later.refl kernel).kzalloc mounted.held 8#32
  unfold fat16MakeNewFatItemForDirectoryItem at same
  simp only [item, directory, if_true, if_false] at same
  rcases Option.map_eq_some_iff.mp same with ⟨loaded, load, rfl⟩
  rw [storeItem_refused, ← itemRefused]
  generalize (kzalloc kernel 8#32).2 = current at *
  have recordRefused := itemRoom.kzalloc_refused 16#32 (by decide) (by omega)
  rcases itemRoom.kzalloc 16#32 (by decide) (by omega) with ⟨record, recordRoom⟩
  have recordLater := itemLater.kzalloc mounted.held 16#32
  unfold fat16LoadFatDirectory at load
  rw [if_neg file] at load
  simp only [record, if_false] at load
  rw [← recordLater.drive, ← recordLater.fatPrivate mounted.held] at ends some few
  rw [fat16GetTotalItemsForDirectory_ends _ _ ends, Option.bind_some] at load
  rw [← recordRefused]
  have scanned := recordRoom.of_heap (diskStreamSeek_heap (kzalloc current 16#32).2
    (privateOf (kzalloc current 16#32).2).directoryStream
    (scanPosition (fat16ClusterToSector (privateOf (kzalloc current 16#32).2) (fat16GetFirstCluster slot) *
      DISK_SECTOR_SIZE) (last + 1)))
  exact loadSlots_room scanned (by omega) some few load

/-! ## A file in a directory -/

theorem SameHeader.storedCluster {header header' : Nat -> Byte} (same : SameHeader header header') (drive : Drive)
    (first : Int) (number : Nat) :
    Fs.storedCluster drive header first number = Fs.storedCluster drive header' first number := by
  induction number with
  | zero => rfl
  | succ number inductionHypothesis =>
      rw [Fs.storedCluster, Fs.storedCluster, inductionHypothesis]
      unfold entryPosition tablePosition
      rw [same.reservedSectors]

theorem SameHeader.clusterBytes {header header' : Nat -> Byte} (same : SameHeader header header') :
    Fs.clusterBytes header = Fs.clusterBytes header' := by
  unfold Fs.clusterBytes
  rw [same.sectorsPerCluster]

theorem SameHeader.storedByte {header header' : Nat -> Byte} (same : SameHeader header header') (drive : Drive)
    (first place : Int) : Fs.storedByte drive header first place = Fs.storedByte drive header' first place := by
  unfold Fs.storedByte clusterStart dataPosition
  rw [same.storedCluster, same.clusterBytes, same.rootDirStart, same.rootDirSize]

/-- The same chain, for the same header. -/
def SameHeader.chain {header header' : Nat -> Byte} (same : SameHeader header header') {drive : Drive}
    (chain : StoredChain drive header') : StoredChain drive header where
  first := chain.first
  length := chain.length
  data := fun number inside => by
    rw [same.storedCluster]
    exact chain.data number inside
  ends := by
    rw [same.storedCluster]
    exact chain.ends

theorem SameHeader.chain_directory {header header' : Nat -> Byte} (same : SameHeader header header') {drive : Drive}
    (chain : StoredChain drive header') : (same.chain chain).directory = chain.directory := by
  have slots : (fun index place => Fs.storedByte drive header chain.first (slotSize * index + place : Nat)) =
      fun index place => Fs.storedByte drive header' chain.first (slotSize * index + place : Nat) := by
    funext index place
    exact same.storedByte drive chain.first _
  unfold StoredChain.directory
  rw [same.clusterBytes]
  exact congrArg (fun bytes => StoredDirectory.mk bytes _) slots

/-- The tree depends on the fields of the header alone. -/
theorem SameHeader.reaches {header header' : Nat -> Byte} (same : SameHeader header header') {drive : Drive}
    {stored : StoredDirectory} {names : List (List Byte)} {slot : Slot} (reached : Reaches drive header' stored names slot) :
    Reaches drive header stored names slot := by
  induction reached with
  | last held => exact Reaches.last held
  | down held subdirectory chain first _ inductionHypothesis =>
      rw [← same.chain_directory chain] at inductionHypothesis
      exact Reaches.down held subdirectory (same.chain chain) first inductionHypothesis

/-- A volume of one sector a cluster.  The directory `D` in the root directory
holds the file `A`. -/
abbrev treeVolume : Kernel :=
  kheapInit
    (Kernel.loaded Store.blank
      (fun sector place =>
        if sector = 0 then
          if place = 13 ∨ place = 14 ∨ place = 22 then 1#8 else if place = 16 then 2#8 else if place = 17 then 16#8
          else if place = 38 then FAT16_SIGNATURE else 0#8
        else if sector = 1 ∧ (place = 4 ∨ place = 5) then 0xFF#8
        else if sector = 3 ∧ place < 32 then
          if place = 0 then 0x44#8 else if place < 11 then 0x20#8 else if place = 11 then 0x10#8
          else if place = 26 then 2#8 else 0#8
        else if sector = 4 ∧ place < 32 then
          if place = 0 then 0x41#8 else if place < 11 then 0x20#8 else if place = 11 then 0x20#8 else 0#8
        else 0#8)
      fun _ => 0#8)
    fun _ => 0#8

theorem treeVolume_room : RoomFrom treeVolume 0 := ⟨kheapInit_isKernelHeap _ _, kheapInit_freeFrom _ _⟩

theorem treeVolume_ends : RootEnds (driveOf treeVolume) (bootSector treeVolume) 1 :=
  ⟨⟨by decide, by decide⟩, by decide, by decide⟩

/-- The chain of the directory `D`. -/
def treeChain : StoredChain (driveOf treeVolume) (bootSector treeVolume) where
  first := 2
  length := 1
  data := fun number inside => by
    obtain rfl : number = 0 := by omega
    exact ⟨by decide, by decide⟩
  ends := by decide

/-- The path `D/A` leads to the file. -/
theorem treeVolume_reaches :
    Reaches (driveOf treeVolume) (bootSector treeVolume) (storedRoot (driveOf treeVolume) (bootSector treeVolume))
      [[0x44#8], [0x41#8]] (treeChain.directory.slots 0) := by
  have held : (storedRoot (driveOf treeVolume) (bootSector treeVolume)).Holds [0x44#8] 0 := by
    refine ⟨⟨by decide, fun earlier below => ?_⟩, by decide, by decide⟩
    obtain rfl : earlier = 0 := by omega
    decide
  have heldBelow : treeChain.directory.Holds [0x41#8] 0 := by
    refine ⟨⟨by decide, fun earlier below => ?_⟩, by decide, by decide⟩
    obtain rfl : earlier = 0 := by omega
    decide
  exact Reaches.down held (by decide) treeChain (by decide) (Reaches.last heldBelow)

/-- What is known of the volume once it was resolved. -/
structure TreeMounted (resolved : Kernel) : Prop where
  accepted : fat16Resolve treeVolume = some (0, resolved)
  mounted : MountedRoot resolved 1
  room : RoomFrom resolved 517
  volume : Resolved treeVolume resolved

theorem treeVolume_mounted : exists resolved, TreeMounted resolved := by
  rcases @fat16Resolve_room _ treeVolume_room (by decide) (by decide) 1 treeVolume_ends.directoryEnds with
    ⟨resolved, accepted, room⟩
  have served := (treeVolume_room.kzalloc sizeofPrivateData (by decide) (by decide)).1
  have placed := treeVolume_room.kernelHeap.wellPlaced
  exact ⟨resolved, accepted,
    fat16Resolve_mountedRoot treeVolume_room.kernelHeap accepted served (by decide) treeVolume_ends, room,
    fat16Resolve_resolved placed accepted⟩

section Tree

variable {resolved : Kernel} (mounted : MountedRoot resolved 1) (volume : Resolved treeVolume resolved)
include volume

theorem treeSector (cluster : Int) : fat16ClusterToSector (privateOf resolved) cluster =
    wrapInt (rootDirSectorPos (bootSector treeVolume) + (rootDirSize (bootSector treeVolume)).tdiv DISK_SECTOR_SIZE +
      (cluster - 2) * FatHeader.sectorsPerCluster (bootSector treeVolume)) := by
  rcases volume.rootDir with ⟨mark, dir, _, rootDir⟩
  unfold fat16ClusterToSector
  rw [rootDir, volume.header.sectorsPerCluster]
  rfl

theorem treeSector_two : fat16ClusterToSector (privateOf resolved) 2 = 4 := by
  rw [treeSector volume]
  decide

include mounted

theorem treeSlot : SameSlot (memorySlot resolved (privateOf resolved).rootDir 0)
    ((storedRoot (driveOf treeVolume) (bootSector treeVolume)).slots 0) := by
  have total := mounted.root.total
  have same := mounted.root.same 0
  rw [volume.drive, volume.header.storedRoot] at total same
  exact same (by rw [total]; decide)

theorem treeVisited : visitedSlots (privateOf resolved).rootDir = [0] := by
  have total := mounted.root.total
  rw [volume.drive, volume.header.storedRoot] at total
  rw [visitedSlots, total]
  decide

/-- The entry of the directory `D` in memory. -/
theorem treeEntry : TakenFor [0x44#8] (memorySlot resolved (privateOf resolved).rootDir 0) ∧
    (memorySlot resolved (privateOf resolved).rootDir 0).isSubdirectory = true ∧
      fat16GetFirstCluster (memorySlot resolved (privateOf resolved).rootDir 0) = 2 := by
  have slot := treeSlot mounted volume
  refine ⟨(TakenFor.congr slot).mpr (by decide), slot.isSubdirectory.trans (by decide), slot.firstCluster.trans (by decide)⟩

end Tree

namespace TreeMounted

variable {resolved : Kernel} (tree : TreeMounted resolved)
include tree

/-- The walk of the path `D/A` is refused no request. -/
theorem served {found : Word × Kernel}
    (walk : fat16GetDirectoryEntry resolved ⟨0#32, 0#32, [0x44#8]⟩ [⟨0#32, 0#32, [0x41#8]⟩] = some found) :
    found.2.refused = resolved.refused := by
  rcases treeEntry tree.mounted tree.volume with ⟨taken, directory, cluster⟩
  have sector := treeSector_two tree.volume
  have source := walkFrom_eq resolved ⟨0#32, 0#32, [0x44#8]⟩ [⟨0#32, 0#32, [0x41#8]⟩]
  rw [walk] at source
  rcases Option.map_eq_some_iff.mp source with ⟨walked, from', rfl⟩
  rcases Option.bind_eq_some_iff.mp from' with ⟨rootItem, search, _⟩
  rw [walkFrom_eq_afterRoot tree.mounted _ search] at from'
  obtain rfl := Option.some.inj from'
  change rootItem.kernel.refused = resolved.refused
  rw [treeVisited tree.mounted tree.volume, searchFrom] at search
  change (if TakenFor [0x44#8] (memorySlot resolved (privateOf resolved).rootDir 0) then _ else _) = _ at search
  rw [if_pos taken] at search
  rcases Option.bind_eq_some_iff.mp search with ⟨made, make, rest⟩
  obtain rfl := Option.some.inj rest
  have ends : DirectoryEnds (driveOf treeVolume) (4 * DISK_SECTOR_SIZE) 1 := ⟨by decide, by decide⟩
  rw [← tree.volume.drive, ← sector, ← cluster] at ends
  refine fat16MakeNewFatItemForDirectoryItem_room tree.mounted tree.room (by decide) directory ends ?_ ?_ make
  · rw [cluster, sector, tree.volume.drive]
    decide
  · rw [cluster, sector, tree.volume.drive]
    decide

theorem reaches : Reaches (driveOf resolved) (privateOf resolved).header
    (storedRoot (driveOf resolved) (privateOf resolved).header) [[0x44#8], [0x41#8]] (treeChain.directory.slots 0) := by
  rw [tree.volume.drive, tree.volume.header.storedRoot]
  exact tree.volume.header.reaches treeVolume_reaches

end TreeMounted

/-- The promise for the path `D/A`. -/
theorem findsEntry_iff_entryTold_tree : exists resolved, fat16Resolve treeVolume = some (0, resolved) ∧
    (FindsEntry resolved ⟨0#32, 0#32, [0x44#8]⟩ [⟨0#32, 0#32, [0x41#8]⟩] ↔
      EntryTold resolved 1 ⟨0#32, 0#32, [0x44#8]⟩ [⟨0#32, 0#32, [0x41#8]⟩]) := by
  rcases treeVolume_mounted with ⟨resolved, tree⟩
  exact ⟨resolved, tree.accepted, findsEntry_iff_entryTold tree.mounted _ _ fun found walk => tree.served walk⟩

/-- The file `A` in the directory `D` is not found, although the heap serves
every request. -/
theorem findsEntry_fails_tree : exists resolved, fat16Resolve treeVolume = some (0, resolved) ∧
    (forall found, fat16GetDirectoryEntry resolved ⟨0#32, 0#32, [0x44#8]⟩ [⟨0#32, 0#32, [0x41#8]⟩] = some found ->
      found.2.refused = resolved.refused) ∧
    ¬ FindsEntry resolved ⟨0#32, 0#32, [0x44#8]⟩ [⟨0#32, 0#32, [0x41#8]⟩] := by
  rcases treeVolume_mounted with ⟨resolved, tree⟩
  refine ⟨resolved, tree.accepted, fun found walk => tree.served walk, ?_⟩
  rintro ⟨⟨found, walk, exactly, _⟩, _⟩
  rcases Option.bind_eq_some_iff.mp walk with ⟨rootItem, search, _⟩
  rw [walkFrom_eq_afterRoot tree.mounted _ search] at walk
  obtain rfl := Option.some.inj walk
  exact exactly.mpr ⟨_, tree.reaches⟩ rfl

end Fs
end LarvaOS
