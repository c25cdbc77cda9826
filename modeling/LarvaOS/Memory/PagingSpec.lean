import LarvaOS.Library.PageWord
import LarvaOS.Memory.Ownership
import LarvaOS.Memory.Paging

namespace LarvaOS
namespace Memory

open Library

/-!
# Address spaces in memory

The constructor makes 1026 requests of one block each.  A heap that refuses
one of them has no free block and refuses every later one; the chunk is the
last request, so a constructor that returns a chunk has got everything.

`SpaceAt` describes the pages of an address space: which blocks they are, that
they are owned and different from each other, and that the directory refers to
the tables.  The contents of the tables are not part of it, and hence a store
to a table entry does not affect it.
-/

/-! ## Words of an array -/

theorem wordAt_sub (array : Word) {index : Nat} (bound : index < 1024) :
    (wordAt array index - array).toNat = 4 * index := by
  have base := array.isLt
  rw [wordAt, BitVec.toNat_sub, BitVec.toNat_add, BitVec.toNat_ofNat]
  omega

theorem wordAt_injective {array : Word} {i j : Nat} (iBound : i < 1024) (jBound : j < 1024)
    (same : wordAt array i = wordAt array j) : i = j := by
  have left := wordAt_sub array iBound
  rw [same, wordAt_sub array jBound] at left
  omega

theorem fresh_wordAt {guard : Extent -> Prop} {kernel : Kernel} {array : Word} {index : Nat}
    (fresh : FreshRange guard kernel array heapBlockSizeBytes) (bound : index < 1024) :
    Fresh guard kernel (wordAt array index) := by
  apply fresh
  rw [wordAt_sub array bound]
  unfold heapBlockSizeBytes
  omega

@[simp] theorem storeWord_heap (kernel : Kernel) (address value : Word) :
    (storeWord kernel address value).heap = kernel.heap := rfl

@[simp] theorem storeWord_words (kernel : Kernel) (address value : Word) :
    (storeWord kernel address value).words = Function.update kernel.words address value := rfl

@[simp] theorem storeWord_globals (kernel : Kernel) (address value : Word) :
    (storeWord kernel address value).toGlobals = kernel.toGlobals := rfl

theorem storeWord_sameAt {kernel : Kernel} {address value other : Word} (different : other ≠ address) :
    kernel.toStore.SameAt (storeWord kernel address value).toStore other :=
  ⟨Function.update_of_ne different _ _, rfl, rfl, rfl, rfl, rfl, rfl, rfl, rfl, rfl⟩

theorem Keeps.stored {guard : Extent -> Prop} {first before : Kernel} (keeps : Keeps guard first before)
    {address : Word} (fresh : Fresh guard first address) (value : Word) :
    Keeps guard first (storeWord before address value) :=
  keeps.withStore fun _ notFresh => storeWord_sameAt fun same => notFresh (same ▸ fresh)

/-! ## Filling a table -/

@[simp] theorem fillTable_heap (entry offset flags : Word) (kernel : Kernel) (count : Nat) :
    (fillTable entry offset flags kernel count).heap = kernel.heap := by
  induction count with
  | zero => rfl
  | succ count inductionHypothesis => exact inductionHypothesis

theorem fillTable_words (entry offset flags : Word) (kernel : Kernel) {count j : Nat}
    (inside : j < count) (bound : count ≤ 1024) :
    (fillTable entry offset flags kernel count).words (wordAt entry j) =
      ((offset + BitVec.ofNat 32 (j * pagingPageSize)) ||| flags) := by
  induction count with
  | zero => exact absurd inside (Nat.not_lt_zero j)
  | succ count inductionHypothesis =>
      rw [fillTable, storeWord_words]
      by_cases last : j = count
      · subst last
        rw [Function.update_self]
      · have different : wordAt entry j ≠ wordAt entry count := fun same =>
          last (wordAt_injective (by omega) (by omega) same)
        rw [Function.update_of_ne different]
        exact inductionHypothesis (by omega) (by omega)

theorem Keeps.tableFilled {guard : Extent -> Prop} {first before : Kernel} (keeps : Keeps guard first before)
    {entry : Word} (fresh : FreshRange guard first entry heapBlockSizeBytes) (offset flags : Word)
    {count : Nat} (bound : count ≤ 1024) :
    Keeps guard first (fillTable entry offset flags before count) := by
  induction count with
  | zero => exact keeps
  | succ count inductionHypothesis =>
      exact (inductionHypothesis (by omega)).stored (fresh_wordAt fresh (by omega)) _

theorem makeTable_heap (directory flags : Word) (i : Nat) (state : Kernel × Word) :
    (makeTable directory flags i state).1.heap = (kzalloc state.1 tableSize).2.heap := by
  simp only [makeTable]
  generalize pagingTotalEntriesPerTable = count
  rw [storeWord_heap]
  exact fillTable_heap _ _ _ _ _

theorem makeTable_words (directory flags : Word) (i : Nat) (state : Kernel × Word) :
    (makeTable directory flags i state).1.words =
      Function.update (fillTable (kzalloc state.1 tableSize).1 state.2 flags (kzalloc state.1 tableSize).2
        pagingTotalEntriesPerTable).words (wordAt directory i)
        ((kzalloc state.1 tableSize).1 ||| flags ||| PAGING_IS_WRITEABLE) := by
  simp only [makeTable]
  generalize pagingTotalEntriesPerTable = count
  rw [storeWord_words]

theorem makeTable_offset (directory flags : Word) (i : Nat) (state : Kernel × Word) :
    (makeTable directory flags i state).2 =
      state.2 + BitVec.ofNat 32 (pagingTotalEntriesPerTable * pagingPageSize) := by
  simp only [makeTable]

/-! ## What the constructor keeps -/

theorem Keeps.tableMade {guard : Extent -> Prop} {first : Kernel} {state : Kernel × Word}
    (keeps : Keeps guard first state.1) (placed : first.heap.WellPlaced) {directory : Word}
    (fresh : FreshRange guard first directory heapBlockSizeBytes) (flags : Word) {i : Nat} (bound : i < 1024) :
    Keeps guard first (makeTable directory flags i state).1 := by
  have allocated := keeps.allocated placed tableSize
  have filled := allocated.1.tableFilled allocated.2 state.2 flags (Nat.le_refl pagingTotalEntriesPerTable)
  rw [makeTable]
  exact filled.stored (fresh_wordAt fresh bound) _

theorem Keeps.tablesMade {guard : Extent -> Prop} {first before : Kernel} (keeps : Keeps guard first before)
    (placed : first.heap.WellPlaced) {directory : Word}
    (fresh : FreshRange guard first directory heapBlockSizeBytes) (flags : Word) {count : Nat}
    (bound : count ≤ 1024) : Keeps guard first (makeTables directory flags before count).1 := by
  induction count with
  | zero => exact keeps
  | succ count inductionHypothesis =>
      rw [makeTables]
      exact (inductionHypothesis (by omega)).tableMade placed fresh flags (by omega)

theorem Keeps.chunkMade {guard : Extent -> Prop} {first before : Kernel} (keeps : Keeps guard first before)
    (placed : first.heap.WellPlaced) (directory : Word) :
    Keeps guard first (makeChunk directory before).2 ∧
      FreshRange guard first (makeChunk directory before).1 heapBlockSizeBytes := by
  have chunk := keeps.allocated placed 4#32
  rw [makeChunk]
  exact ⟨chunk.1.stored (chunk.2.base (by decide)) _, chunk.2⟩

/-- The constructor keeps every allocation, also when the heap refuses it
memory. -/
theorem Keeps.spaceMade {guard : Extent -> Prop} {first before : Kernel} (keeps : Keeps guard first before)
    (placed : first.heap.WellPlaced) (flags : Byte) :
    Keeps guard first (makeNew4GBVirtualMemoryAddressSpace before flags).2 ∧
      FreshRange guard first (makeNew4GBVirtualMemoryAddressSpace before flags).1 heapBlockSizeBytes := by
  have directory := keeps.allocated placed tableSize
  have tables := directory.1.tablesMade placed directory.2 (flags.setWidth 32)
    (Nat.le_refl pagingTotalEntriesPerTable)
  exact tables.chunkMade placed (kzalloc before tableSize).1

/-! ## What the constructor builds -/

theorem inExtent_wordAt {heap : Heap} (placed : heap.WellPlaced) {block index : Nat}
    (owned : heap.Owns (Extent.single block)) (bound : index < 1024) :
    heap.InExtent (Extent.single block) (wordAt (heap.addressOf block) index) := by
  apply placed.inExtent_of_page owned
  change (wordAt (heap.addressOf block) index - heap.addressOf block).toNat < 4096 * 1
  rw [wordAt_sub _ bound]
  omega

/-- Words of different owned blocks lie at different addresses. -/
theorem wordAt_ne {heap : Heap} (placed : heap.WellPlaced) {left right i j : Nat}
    (leftOwned : heap.Owns (Extent.single left)) (rightOwned : heap.Owns (Extent.single right))
    (different : left ≠ right) (iBound : i < 1024) (jBound : j < 1024) :
    wordAt (heap.addressOf left) i ≠ wordAt (heap.addressOf right) j := by
  intro same
  have inLeft := inExtent_wordAt placed leftOwned iBound
  have inRight := inExtent_wordAt placed rightOwned jBound
  rw [same] at inLeft
  rcases leftOwned.eq_or_apart rightOwned with equal | apart
  · exact different (Extent.single_injective equal)
  · exact Heap.not_inExtent_of_apart apart inLeft inRight

theorem blocksFor_tableSize : blocksFor tableSize = 1 := by decide

/-- The state after `count` iterations of the outer loop, compared with the
state `first` in which the directory was just allocated. -/
structure TablesMade (first : Kernel) (directory : Nat) (flags : Word) (count : Nat)
    (state : Kernel × Word) (table : Nat -> Nat) : Prop where
  keeps : Keeps (· ≠ Extent.single directory) first state.1
  offset : state.2 = BitVec.ofNat 32 (count * (pagingTotalEntriesPerTable * pagingPageSize))
  directoryOwned : state.1.heap.Owns (Extent.single directory)
  owned : forall i, i < count -> state.1.heap.Owns (Extent.single (table i))
  fresh : forall i, i < count -> FreshExtent (fun _ => True) first (Extent.single (table i))
  injective : forall i j, i < count -> j < count -> table i = table j -> i = j
  directoryWord : forall i, i < count ->
    state.1.words (wordAt (first.heap.addressOf directory) i) =
      (first.heap.addressOf (table i) ||| flags ||| PAGING_IS_WRITEABLE)
  contents : forall i j, i < count -> j < 1024 ->
    state.1.words (wordAt (first.heap.addressOf (table i)) j) =
      (BitVec.ofNat 32 (i * (pagingTotalEntriesPerTable * pagingPageSize) + j * pagingPageSize) ||| flags)

/-- Under the guard that leaves one owned block out, that block is fresh. -/
theorem freshRange_of_owned {kernel : Kernel} (placed : kernel.heap.WellPlaced) {block : Nat}
    (owned : kernel.heap.Owns (Extent.single block)) :
    FreshRange (· ≠ Extent.single block) kernel (kernel.heap.addressOf block) heapBlockSizeBytes := by
  have fresh : FreshExtent (· ≠ Extent.single block) kernel (Extent.single block) := fun old other oldOwned =>
    (oldOwned.eq_or_apart owned).resolve_left other
  exact fresh.freshRange placed owned.within

theorem TablesMade.step {first : Kernel} (placed : first.heap.WellPlaced) {directory : Nat}
    (firstOwned : first.heap.Owns (Extent.single directory)) {flags : Word} {count : Nat}
    (bound : count < 1024) {state : Kernel × Word} {table : Nat -> Nat}
    (made : TablesMade first directory flags count state table) :
    (exists table', TablesMade first directory flags (count + 1)
      (makeTable (first.heap.addressOf directory) flags count state) table') ∨
    (makeTable (first.heap.addressOf directory) flags count state).1.heap.Exhausted := by
  have placed' := made.keeps.pool.wellPlaced placed
  have sameAddress := made.keeps.pool.addressOf
  rcases kzalloc_page placed' blocksFor_tableSize with
    ⟨block, hands, result⟩ | ⟨exhausted, result⟩
  · left
    have allocated := keeps_kzalloc (fun _ => True) placed' tableSize
    have entryFresh := freshRange_kzalloc (fun _ => True) placed' tableSize
    -- The table is filled before the directory is touched.
    have filled := allocated.tableFilled entryFresh state.2 flags (Nat.le_refl pagingTotalEntriesPerTable)
    have directoryFresh := freshRange_of_owned placed' made.directoryOwned
    rw [sameAddress] at directoryFresh
    have kept := (Keeps.refl (· ≠ Extent.single directory) state.1).tableMade placed' directoryFresh flags bound
    have heap' := makeTable_heap (first.heap.addressOf directory) flags count state
    have blockOwned : (kzalloc state.1 tableSize).2.heap.Owns (Extent.single block) := by
      rw [result]
      exact Heap.owns_marked hands.within
    have separate : block ≠ directory := by
      rintro rfl
      exact Extent.not_apart_self _ (hands.apart made.directoryOwned)
    have newTable : forall i, i < count -> table i ≠ block := by
      rintro i inside rfl
      exact Extent.not_apart_self _ (hands.apart (made.owned i inside))
    have entryAddress : (kzalloc state.1 tableSize).1 = first.heap.addressOf block := by
      rw [result]
      exact sameAddress block
    have oldTable : forall i, i < count -> Function.update table count block i = table i := fun i inside =>
      Function.update_of_ne (Nat.ne_of_lt inside) _ _
    refine ⟨Function.update table count block, ?_⟩
    constructor
    · exact made.keeps.trans kept
    · rw [makeTable_offset, made.offset, ← BitVec.ofNat_add, Nat.succ_mul]
    · rw [heap']
      exact allocated.owns _ trivial made.directoryOwned
    · intro i inside
      rw [heap']
      by_cases last : i = count
      · rw [last, Function.update_self]
        exact blockOwned
      · rw [oldTable i (by omega)]
        exact allocated.owns _ trivial (made.owned i (by omega))
    · intro i inside
      by_cases last : i = count
      · rw [last, Function.update_self]
        intro old _ owned
        by_cases same : old = Extent.single directory
        · exact hands.apart (same ▸ made.directoryOwned)
        · exact hands.apart (made.keeps.owns old same owned)
      · rw [oldTable i (by omega)]
        exact made.fresh i (by omega)
    · intro i j iInside jInside same
      by_cases iLast : i = count
      · by_cases jLast : j = count
        · exact iLast.trans jLast.symm
        · rw [iLast, Function.update_self, oldTable j (by omega)] at same
          exact absurd same.symm (newTable j (by omega))
      · by_cases jLast : j = count
        · rw [jLast, Function.update_self, oldTable i (by omega)] at same
          exact absurd same (newTable i (by omega))
        · rw [oldTable i (by omega), oldTable j (by omega)] at same
          exact made.injective i j (by omega) (by omega) same
    · intro i inside
      rw [makeTable_words]
      by_cases last : i = count
      · rw [last, Function.update_self, Function.update_self, entryAddress]
      · have different : wordAt (first.heap.addressOf directory) i ≠ wordAt (first.heap.addressOf directory) count :=
          fun same => last (wordAt_injective (by omega) bound same)
        have inDirectory := inExtent_wordAt placed' made.directoryOwned (show i < 1024 by omega)
        rw [sameAddress] at inDirectory
        rw [Function.update_of_ne different, oldTable i (by omega),
          (filled.same _ trivial made.directoryOwned _ inDirectory).words]
        exact made.directoryWord i (by omega)
    · intro i j inside jBound
      by_cases last : i = count
      · have owned' := allocated.owns _ trivial made.directoryOwned
        have different := wordAt_ne (allocated.pool.wellPlaced placed') blockOwned owned' separate jBound bound
        rw [(made.keeps.pool.trans allocated.pool).addressOf, (made.keeps.pool.trans allocated.pool).addressOf]
          at different
        rw [last, Function.update_self, makeTable_words, Function.update_of_ne different,
          ← entryAddress,
          fillTable_words _ _ _ _ (show j < pagingTotalEntriesPerTable from jBound) (Nat.le_refl _),
          made.offset, ← BitVec.ofNat_add]
      · have owned := made.owned i (by omega)
        have other : Extent.single (table i) ≠ Extent.single directory := by
          intro same
          have apart := made.fresh i (by omega) _ trivial firstOwned
          rw [same] at apart
          exact Extent.not_apart_self _ apart
        have inTable := inExtent_wordAt placed' owned jBound
        rw [sameAddress] at inTable
        rw [oldTable i (by omega), (kept.same _ other owned _ inTable).words]
        exact made.contents i j (by omega) jBound
  · right
    rw [makeTable_heap, result]
    exact exhausted

/-- Nothing is guarded, hence every address is fresh. -/
theorem freshRange_unguarded (kernel : Kernel) (pointer : Word) :
    FreshRange (fun _ => False) kernel pointer heapBlockSizeBytes := fun _ _ _ guarded => absurd guarded id

/-- The pool stays where it is. -/
theorem wellPlaced_makeTables {kernel : Kernel} (placed : kernel.heap.WellPlaced) (directory flags : Word)
    {count : Nat} (bound : count ≤ 1024) : (makeTables directory flags kernel count).1.heap.WellPlaced :=
  have kept := (Keeps.refl (fun _ => False) kernel).tablesMade placed (freshRange_unguarded kernel directory) flags bound
  kept.pool.wellPlaced placed

theorem makeTable_exhausted {state : Kernel × Word} (placed : state.1.heap.WellPlaced)
    (exhausted : state.1.heap.Exhausted) (directory flags : Word) (i : Nat) :
    (makeTable directory flags i state).1.heap.Exhausted := by
  rw [makeTable_heap]
  rcases kzalloc_page placed blocksFor_tableSize with ⟨_, hands, _⟩ | ⟨_, result⟩
  · exact absurd exhausted hands.not_exhausted
  · rw [result]
    exact exhausted

theorem makeTables_exhausted {kernel : Kernel} (placed : kernel.heap.WellPlaced)
    (exhausted : kernel.heap.Exhausted) (directory flags : Word) {count : Nat} (bound : count ≤ 1024) :
    (makeTables directory flags kernel count).1.heap.Exhausted := by
  induction count with
  | zero => exact exhausted
  | succ count inductionHypothesis =>
      rw [makeTables]
      exact makeTable_exhausted (wellPlaced_makeTables placed _ _ (by omega)) (inductionHypothesis (by omega)) _ _ _

theorem tablesMade_or_exhausted {first : Kernel} (placed : first.heap.WellPlaced) {directory : Nat}
    (firstOwned : first.heap.Owns (Extent.single directory)) (flags : Word) {count : Nat}
    (bound : count ≤ 1024) :
    (exists table, TablesMade first directory flags count
      (makeTables (first.heap.addressOf directory) flags first count) table) ∨
    (makeTables (first.heap.addressOf directory) flags first count).1.heap.Exhausted := by
  induction count with
  | zero =>
      left
      exact ⟨fun _ => 0,
        { keeps := Keeps.refl _ first
          offset := rfl
          directoryOwned := firstOwned
          owned := fun i inside => absurd inside (Nat.not_lt_zero i)
          fresh := fun i inside => absurd inside (Nat.not_lt_zero i)
          injective := fun i _ inside => absurd inside (Nat.not_lt_zero i)
          directoryWord := fun i inside => absurd inside (Nat.not_lt_zero i)
          contents := fun i _ inside => absurd inside (Nat.not_lt_zero i) }⟩
  | succ count inductionHypothesis =>
      rw [makeTables]
      rcases inductionHypothesis (by omega) with ⟨table, made⟩ | exhausted
      · exact made.step placed firstOwned (by omega)
      · right
        exact makeTable_exhausted (wellPlaced_makeTables placed _ _ (by omega)) exhausted _ _ _

/-- The blocks of an address space. -/
structure SpaceBlocks where
  chunk : Nat
  directory : Nat
  table : Nat -> Nat

/-- One of the 1026 blocks. -/
def SpaceBlocks.Has (blocks : SpaceBlocks) (block : Nat) : Prop :=
  block = blocks.chunk ∨ block = blocks.directory ∨ exists i, i < 1024 ∧ block = blocks.table i

/-- An address space in memory: its blocks are owned, they are different from
each other, and each refers to the next. -/
structure SpaceAt (kernel : Kernel) (page flags : Word) (blocks : SpaceBlocks) : Prop where
  pageAddress : page = kernel.heap.addressOf blocks.chunk
  owned : forall block, blocks.Has block -> kernel.heap.Owns (Extent.single block)
  chunkApart : blocks.chunk ≠ blocks.directory ∧ forall i, i < 1024 -> blocks.chunk ≠ blocks.table i
  directoryApart : forall i, i < 1024 -> blocks.directory ≠ blocks.table i
  injective : forall i j, i < 1024 -> j < 1024 -> blocks.table i = blocks.table j -> i = j
  chunkWord : kernel.words page = kernel.heap.addressOf blocks.directory
  directoryWord : forall i, i < 1024 ->
    kernel.words (wordAt (kernel.heap.addressOf blocks.directory) i) =
      (kernel.heap.addressOf (blocks.table i) ||| flags ||| PAGING_IS_WRITEABLE)

theorem SpaceAt.chunkOwned {kernel : Kernel} {page flags : Word} {blocks : SpaceBlocks}
    (space : SpaceAt kernel page flags blocks) : kernel.heap.Owns (Extent.single blocks.chunk) :=
  space.owned _ (Or.inl rfl)

theorem SpaceAt.directoryOwned {kernel : Kernel} {page flags : Word} {blocks : SpaceBlocks}
    (space : SpaceAt kernel page flags blocks) : kernel.heap.Owns (Extent.single blocks.directory) :=
  space.owned _ (Or.inr (Or.inl rfl))

theorem SpaceAt.tableOwned {kernel : Kernel} {page flags : Word} {blocks : SpaceBlocks}
    (space : SpaceAt kernel page flags blocks) {i : Nat} (inside : i < 1024) :
    kernel.heap.Owns (Extent.single (blocks.table i)) :=
  space.owned _ (Or.inr (Or.inr ⟨i, inside, rfl⟩))

/-- The table pointer is recovered from under the flags of its entry. -/
theorem SpaceAt.tablePointer {kernel : Kernel} {page flags : Word} {blocks : SpaceBlocks}
    (space : SpaceAt kernel page flags blocks) (placed : kernel.heap.WellPlaced)
    (low : flags.toNat < 256) {i : Nat} (inside : i < 1024) :
    kernel.words (wordAt (kernel.words page) i) &&& 0xfffff000#32 = kernel.heap.addressOf (blocks.table i) := by
  have flagsLow : (flags ||| PAGING_IS_WRITEABLE).toNat < 4096 := by
    rw [BitVec.toNat_or]
    exact Nat.lt_trans (Nat.or_lt_two_pow (n := 8) low (by decide)) (by decide)
  rw [space.chunkWord, space.directoryWord i inside, BitVec.or_assoc]
  exact PageWord.mask_or _ _ (placed.addressOf_aligned (space.tableOwned inside).address_inside) flagsLow

/-- An address space is in the entries of its blocks and in the words of its
pages. -/
theorem SpaceAt.transport {kernel kernel' : Kernel} {page flags : Word} {blocks : SpaceBlocks}
    (space : SpaceAt kernel page flags blocks) (pool : kernel.heap.SamePool kernel'.heap)
    (owned : forall block, blocks.Has block -> kernel'.heap.Owns (Extent.single block))
    (words : forall block, blocks.Has block -> forall index, index < 1024 ->
      kernel'.words (wordAt (kernel.heap.addressOf block) index) =
        kernel.words (wordAt (kernel.heap.addressOf block) index)) : SpaceAt kernel' page flags blocks where
  pageAddress := by
    rw [pool.addressOf]
    exact space.pageAddress
  owned := owned
  chunkApart := space.chunkApart
  directoryApart := space.directoryApart
  injective := space.injective
  chunkWord := by
    have same := words blocks.chunk (Or.inl rfl) 0 (by decide)
    rw [wordAt, BitVec.add_zero, ← space.pageAddress] at same
    rw [pool.addressOf, same]
    exact space.chunkWord
  directoryWord := by
    intro i inside
    rw [pool.addressOf, pool.addressOf, words _ (Or.inr (Or.inl rfl)) i inside]
    exact space.directoryWord i inside

theorem SpaceAt.congr {kernel kernel' : Kernel} {page flags : Word} {blocks : SpaceBlocks}
    (space : SpaceAt kernel page flags blocks) (heap : kernel'.heap = kernel.heap)
    (words : kernel'.words = kernel.words) : SpaceAt kernel' page flags blocks :=
  space.transport (heap ▸ Heap.SamePool.refl _) (heap ▸ space.owned)
    fun _ _ _ _ => congrFun words _

/-- An address space whose blocks are kept. -/
theorem SpaceAt.kept {guard : Extent -> Prop} {kernel kernel' : Kernel} {page flags : Word} {blocks : SpaceBlocks}
    (space : SpaceAt kernel page flags blocks) (placed : kernel.heap.WellPlaced)
    (keeps : Keeps guard kernel kernel')
    (guarded : forall block, blocks.Has block -> guard (Extent.single block)) :
    SpaceAt kernel' page flags blocks :=
  space.transport keeps.pool (fun block has => keeps.owns _ (guarded block has) (space.owned block has))
    fun block has _ bound =>
      (keeps.same _ (guarded block has) (space.owned block has) _
        (inExtent_wordAt placed (space.owned block has) bound)).words

/-- Every table maps its part of the address space to itself. -/
def IdentityMapped (kernel : Kernel) (flags : Word) (blocks : SpaceBlocks) : Prop :=
  forall i j, i < 1024 -> j < 1024 ->
    kernel.words (wordAt (kernel.heap.addressOf (blocks.table i)) j) =
      (BitVec.ofNat 32 (i * (pagingTotalEntriesPerTable * pagingPageSize) + j * pagingPageSize) ||| flags)

theorem fillTable_globals (entry offset flags : Word) (kernel : Kernel) (count : Nat) :
    (fillTable entry offset flags kernel count).toGlobals = kernel.toGlobals := by
  induction count with
  | zero => rfl
  | succ count inductionHypothesis =>
      rw [fillTable, storeWord_globals]
      exact inductionHypothesis

theorem makeTable_globals (directory flags : Word) (i : Nat) (state : Kernel × Word) :
    (makeTable directory flags i state).1.toGlobals = state.1.toGlobals := by
  simp only [makeTable]
  generalize pagingTotalEntriesPerTable = entries
  rw [storeWord_globals, fillTable_globals]
  exact kzalloc_globals state.1 tableSize

theorem makeTables_globals (directory flags : Word) (kernel : Kernel) (count : Nat) :
    (makeTables directory flags kernel count).1.toGlobals = kernel.toGlobals := by
  induction count with
  | zero => rfl
  | succ count inductionHypothesis =>
      rw [makeTables, makeTable_globals]
      exact inductionHypothesis

/-- The constructor touches no global variable. -/
theorem makeNew4GB_globals (kernel : Kernel) (flags : Byte) :
    (makeNew4GBVirtualMemoryAddressSpace kernel flags).2.toGlobals = kernel.toGlobals := by
  have chunk (state : Kernel) (directory : Word) :
      (makeChunk directory state).2.toGlobals = state.toGlobals := by
    rw [makeChunk, storeWord_globals]
    exact kzalloc_globals state 4#32
  rw [makeNew4GBVirtualMemoryAddressSpace, chunk, makeTables_globals]
  exact kzalloc_globals kernel tableSize

/-- The last request of the constructor. -/
theorem makeChunk_spec {kernel : Kernel} (placed : kernel.heap.WellPlaced) (directory : Word)
    (made : (makeChunk directory kernel).1 ≠ 0#32) :
    exists block, kernel.heap.Hands 4#32 (Extent.single block) ∧
      (makeChunk directory kernel).1 = kernel.heap.addressOf block ∧
      (makeChunk directory kernel).2.heap.Owns (Extent.single block) ∧
      (makeChunk directory kernel).2.words (kernel.heap.addressOf block) = directory ∧
      Keeps (fun _ => True) kernel (makeChunk directory kernel).2 := by
  have kept := ((Keeps.refl (fun _ => True) kernel).chunkMade placed directory).1
  rcases kzalloc_page placed (show blocksFor 4#32 = 1 by decide) with ⟨block, hands, result⟩ | ⟨_, result⟩
  · refine ⟨block, hands, ?_, ?_, ?_, kept⟩
    · rw [makeChunk, result]
    · rw [makeChunk, result]
      exact Heap.owns_marked hands.within
    · rw [makeChunk, result]
      exact Function.update_self _ _ _
  · rw [makeChunk, result] at made
    exact absurd rfl made

/-- The finished tables and the chunk are an address space. -/
theorem TablesMade.space {first final : Kernel} (placed : first.heap.WellPlaced) {directory chunk : Nat}
    (firstOwned : first.heap.Owns (Extent.single directory)) {flags page : Word} {state : Kernel × Word}
    {table : Nat -> Nat} (made : TablesMade first directory flags 1024 state table)
    (hands : state.1.heap.Hands 4#32 (Extent.single chunk)) (owned : final.heap.Owns (Extent.single chunk))
    (address : page = state.1.heap.addressOf chunk) (word : final.words page = first.heap.addressOf directory)
    (kept : Keeps (fun _ => True) state.1 final) :
    SpaceAt final page flags ⟨chunk, directory, table⟩ ∧ IdentityMapped final flags ⟨chunk, directory, table⟩ := by
  have placed' := made.keeps.pool.wellPlaced placed
  have sameAddress := (made.keeps.pool.trans kept.pool).addressOf
  have stateAddress := made.keeps.pool.addressOf
  have chunkDifferent : forall block, state.1.heap.Owns (Extent.single block) -> chunk ≠ block := by
    rintro block blockOwned rfl
    exact Extent.not_apart_self _ (hands.apart blockOwned)
  refine ⟨?_, ?_⟩
  · exact
      { pageAddress := by
          rw [address, kept.pool.addressOf]
        owned := by
          rintro block (rfl | rfl | ⟨i, inside, rfl⟩)
          · exact owned
          · exact kept.owns _ trivial made.directoryOwned
          · exact kept.owns _ trivial (made.owned i inside)
        chunkApart := ⟨chunkDifferent _ made.directoryOwned, fun i inside => chunkDifferent _ (made.owned i inside)⟩
        directoryApart := by
          intro i inside same
          have apart := made.fresh i inside _ trivial firstOwned
          simp only at same
          rw [same] at apart
          exact Extent.not_apart_self _ apart
        injective := made.injective
        chunkWord := by
          rw [word, sameAddress]
        directoryWord := by
          intro i inside
          have inDirectory := inExtent_wordAt placed' made.directoryOwned inside
          have same := (kept.same _ trivial made.directoryOwned _ inDirectory).words
          rw [stateAddress] at same
          simp only [sameAddress]
          rw [same]
          exact made.directoryWord i inside }
  · intro i j inside jBound
    have inTable := inExtent_wordAt placed' (made.owned i inside) jBound
    have same := (kept.same _ trivial (made.owned i inside) _ inTable).words
    rw [stateAddress] at same
    simp only [sameAddress]
    rw [same]
    exact made.contents i j inside jBound

theorem IdentityMapped.congr {kernel kernel' : Kernel} {flags : Word} {blocks : SpaceBlocks}
    (identity : IdentityMapped kernel flags blocks) (heap : kernel'.heap = kernel.heap)
    (words : kernel'.words = kernel.words) : IdentityMapped kernel' flags blocks := by
  unfold IdentityMapped
  rw [heap, words]
  exact identity

/-- What a constructor that returns a chunk has built.  Its blocks are apart
from everything that was owned before. -/
theorem makeNew4GB_spec {kernel : Kernel} (placed : kernel.heap.WellPlaced) (flags : Byte)
    (made : (makeNew4GBVirtualMemoryAddressSpace kernel flags).1 ≠ 0#32) :
    exists blocks, SpaceAt (makeNew4GBVirtualMemoryAddressSpace kernel flags).2
        (makeNew4GBVirtualMemoryAddressSpace kernel flags).1 (flags.setWidth 32) blocks ∧
      IdentityMapped (makeNew4GBVirtualMemoryAddressSpace kernel flags).2 (flags.setWidth 32) blocks ∧
      forall block, blocks.Has block -> FreshExtent (fun _ => True) kernel (Extent.single block) := by
  have allocated := keeps_kzalloc (fun _ => True) placed tableSize
  have firstPlaced := allocated.pool.wellPlaced placed
  have tablesPlaced := wellPlaced_makeTables firstPlaced (kzalloc kernel tableSize).1 (flags.setWidth 32)
    (Nat.le_refl pagingTotalEntriesPerTable)
  rcases makeChunk_spec tablesPlaced (kzalloc kernel tableSize).1 made with
    ⟨chunk, chunkHands, chunkAddress, chunkOwned, chunkWord, chunkKept⟩
  rcases kzalloc_page placed blocksFor_tableSize with ⟨directory, directoryHands, result⟩ | ⟨exhausted, result⟩
  · have directoryAddress : (kzalloc kernel tableSize).1 =
        (kzalloc kernel tableSize).2.heap.addressOf directory := by
      rw [allocated.pool.addressOf, result]
    have directoryOwned : (kzalloc kernel tableSize).2.heap.Owns (Extent.single directory) := by
      rw [result]
      exact Heap.owns_marked directoryHands.within
    have outcome := tablesMade_or_exhausted firstPlaced directoryOwned (flags.setWidth 32)
      (Nat.le_refl pagingTotalEntriesPerTable)
    rw [← directoryAddress] at outcome
    rcases outcome with ⟨table, tables⟩ | exhausted
    · have space := tables.space firstPlaced directoryOwned chunkHands chunkOwned chunkAddress
        ((congrArg _ chunkAddress).trans (chunkWord.trans directoryAddress)) chunkKept
      refine ⟨⟨chunk, directory, table⟩, space.1, space.2, ?_⟩
      rintro block (rfl | rfl | ⟨i, inside, rfl⟩) old _ owned
      · have firstOwned := allocated.owns old trivial owned
        have other : old ≠ Extent.single directory := by
          rintro rfl
          exact Extent.not_apart_self _ (directoryHands.apart owned)
        exact chunkHands.apart (tables.keeps.owns old other firstOwned)
      · exact directoryHands.apart owned
      · exact tables.fresh i inside old trivial (allocated.owns old trivial owned)
    · exact absurd exhausted chunkHands.not_exhausted
  · have first : (kzalloc kernel tableSize).2.heap.Exhausted := by
      rw [result]
      exact exhausted
    exact absurd (makeTables_exhausted firstPlaced first _ _ (Nat.le_refl pagingTotalEntriesPerTable))
      chunkHands.not_exhausted

/-! ## Release -/

/-- The entries of the given blocks are free, and all others are as before. -/
structure Cleared (gone : Nat -> Prop) (entries entries' : Int -> Byte) : Prop where
  free : forall block : Nat, gone block -> entries' block = heapBlockTableEntryFree
  kept : forall j : Int, (forall block : Nat, gone block -> j ≠ block) -> entries' j = entries j

theorem Cleared.owns {gone : Nat -> Prop} {heap : Heap} {entries' : Int -> Byte}
    (cleared : Cleared gone heap.table.entries entries') {extent : Extent} (owned : heap.Owns extent)
    (apart : forall block, gone block -> ¬ extent.Covers block) : (heap.withEntries entries').Owns extent where
  recorded := owned.recorded.transport fun cell covered =>
    cleared.kept cell fun block isGone same => apart block isGone (Int.natCast_inj.mp same ▸ covered)
  within := owned.within

/-- One more block is released. -/
theorem Cleared.insert {gone : Nat -> Prop} {kernel : Kernel} (placed : kernel.heap.WellPlaced)
    {entries' : Int -> Byte} (cleared : Cleared gone kernel.heap.table.entries entries') {block : Nat}
    (owned : kernel.heap.Owns (Extent.single block)) (low : heapBlockSizeBytes * block < 2 ^ 31)
    (present : ¬ gone block) :
    exists entries'', kfree (kernel.withHeap (kernel.heap.withEntries entries')) (kernel.heap.addressOf block) =
        kernel.withHeap (kernel.heap.withEntries entries'') ∧
      Cleared (fun other => gone other ∨ other = block) kernel.heap.table.entries entries'' := by
  have still := cleared.owns owned fun other isGone covered =>
    present (Extent.covers_single.mp covered ▸ isGone)
  have released := free_spec (placed.withEntries entries') (Extent.single block) still.recorded still.within low
  refine ⟨clearExtent entries' (Extent.single block), ?_, ?_, ?_⟩
  · exact congrArg kernel.withHeap released
  · rintro other (isGone | rfl)
    · by_cases same : other = block
      · rw [same]
        exact clearExtent_of_covers _ (Extent.covers_single.mpr rfl)
      · rw [clearExtent_of_not_covers _ fun covered => same (Extent.covers_single.mp covered)]
        exact cleared.free other isGone
    · exact clearExtent_of_covers _ (Extent.covers_single.mpr rfl)
  · intro j away
    have different := away block (Or.inr rfl)
    rw [clearExtent, if_neg]
    · exact cleared.kept j fun other isGone => away other (Or.inl isGone)
    · change ¬ ((block : Int) ≤ j ∧ j < block + (1 : Nat))
      omega

section Release

variable {kernel : Kernel} {page flags : Word} {blocks : SpaceBlocks}

theorem releaseTables_spec (space : SpaceAt kernel page flags blocks) (placed : kernel.heap.WellPlaced)
    (flagsLow : flags.toNat < 256)
    (low : forall block, blocks.Has block -> heapBlockSizeBytes * block < 2 ^ 31) {count : Nat}
    (bound : count ≤ 1024) :
    exists entries', releaseTables page kernel count = kernel.withHeap (kernel.heap.withEntries entries') ∧
      Cleared (fun block => exists i, i < count ∧ block = blocks.table i) kernel.heap.table.entries entries' := by
  induction count with
  | zero => exact ⟨kernel.heap.table.entries, rfl, fun _ ⟨_, inside, _⟩ => absurd inside (Nat.not_lt_zero _),
      fun _ _ => rfl⟩
  | succ count inductionHypothesis =>
      rcases inductionHypothesis (by omega) with ⟨entries', kernel', cleared⟩
      have inside : count < 1024 := by omega
      have present : ¬ exists i, i < count ∧ blocks.table count = blocks.table i := by
        rintro ⟨i, below, same⟩
        exact absurd (space.injective _ _ inside (by omega) same) (by omega)
      rcases cleared.insert placed (space.tableOwned inside) (low _ (Or.inr (Or.inr ⟨count, inside, rfl⟩))) present
        with ⟨entries'', released, cleared'⟩
      have pointer : (kernel.withHeap (kernel.heap.withEntries entries')).words
          (wordAt ((kernel.withHeap (kernel.heap.withEntries entries')).words page) count) &&& 0xfffff000#32 =
            kernel.heap.addressOf (blocks.table count) := space.tablePointer placed flagsLow inside
      refine ⟨entries'', ?_, ?_, ?_⟩
      · simp only [releaseTables, kernel', pointer]
        exact released
      · rintro block ⟨i, below, same⟩
        refine cleared'.free block ?_
        by_cases last : i = count
        · exact Or.inr (last ▸ same)
        · exact Or.inl ⟨i, by omega, same⟩
      · intro j away
        refine cleared'.kept j fun block isGone => ?_
        rcases isGone with ⟨i, below, same⟩ | same
        · exact away block ⟨i, by omega, same⟩
        · exact away block ⟨count, by omega, same⟩

/-- The release of an address space frees exactly its blocks. -/
theorem release4GB_spec (space : SpaceAt kernel page flags blocks) (placed : kernel.heap.WellPlaced)
    (flagsLow : flags.toNat < 256)
    (low : forall block, blocks.Has block -> heapBlockSizeBytes * block < 2 ^ 31) :
    exists entries',
      release4GBVirtualMemoryAddressSpace kernel page = kernel.withHeap (kernel.heap.withEntries entries') ∧
      Cleared blocks.Has kernel.heap.table.entries entries' := by
  rcases releaseTables_spec space placed flagsLow low (Nat.le_refl 1024) with ⟨tableEntries, tables, cleared⟩
  have notTable : ¬ exists i, i < 1024 ∧ blocks.directory = blocks.table i := fun ⟨i, inside, same⟩ =>
    space.directoryApart i inside same
  rcases cleared.insert placed space.directoryOwned (low _ (Or.inr (Or.inl rfl))) notTable with
    ⟨directoryEntries, directory, cleared'⟩
  have notDirectory : ¬ ((exists i, i < 1024 ∧ blocks.chunk = blocks.table i) ∨ blocks.chunk = blocks.directory) := by
    rintro (⟨i, inside, same⟩ | same)
    · exact space.chunkApart.2 i inside same
    · exact space.chunkApart.1 same
  rcases cleared'.insert placed space.chunkOwned (low _ (Or.inl rfl)) notDirectory with
    ⟨entries', chunk, cleared''⟩
  refine ⟨entries', ?_, ?_, ?_⟩
  · have directoryPointer : (kernel.withHeap (kernel.heap.withEntries tableEntries)).words page =
        kernel.heap.addressOf blocks.directory := space.chunkWord
    simp only [release4GBVirtualMemoryAddressSpace, tables, directoryPointer, directory]
    rw [← space.pageAddress] at chunk
    exact chunk
  · rintro block (isChunk | isDirectory | isTable)
    · exact cleared''.free block (Or.inr isChunk)
    · exact cleared''.free block (Or.inl (Or.inr isDirectory))
    · exact cleared''.free block (Or.inl (Or.inl isTable))
  · intro j away
    refine cleared''.kept j fun block isGone => away block ?_
    rcases isGone with (isTable | isDirectory) | isChunk
    · exact Or.inr (Or.inr isTable)
    · exact Or.inr (Or.inl isDirectory)
    · exact Or.inl isChunk

end Release

/-! ## A heap with enough free blocks -/

theorem makeTables_freeFrom {kernel : Kernel} (placed : kernel.heap.WellPlaced) {first : Nat}
    (free : kernel.heap.FreeFrom first) (directory flags : Word) {count : Nat} (bound : count ≤ 1024)
    (room : first + count ≤ kernel.heap.table.total.toNat) :
    (makeTables directory flags kernel count).1.heap.FreeFrom (first + count) := by
  induction count with
  | zero => exact free
  | succ count inductionHypothesis =>
      have pool := ((Keeps.refl (fun _ => False) kernel).tablesMade placed
        (freshRange_unguarded kernel directory) flags (show count ≤ 1024 by omega)).pool
      have result := (kzalloc_freeFrom (pool.wellPlaced placed) tableSize (by decide)
        (inductionHypothesis (by omega) (by omega)) (by rw [blocksFor_tableSize, pool.total]; omega)).2
      rw [makeTables, Heap.FreeFrom, makeTable_heap]
      rwa [blocksFor_tableSize] at result

theorem makeChunk_freeFrom {kernel : Kernel} (placed : kernel.heap.WellPlaced) {first : Nat}
    (free : kernel.heap.FreeFrom first) (directory : Word) (room : first < kernel.heap.table.total.toNat) :
    (makeChunk directory kernel).1 ≠ 0#32 ∧ (makeChunk directory kernel).2.heap.FreeFrom (first + 1) := by
  have one : blocksFor 4#32 = 1 := by decide
  have chunk := kzalloc_freeFrom placed 4#32 (by decide) free (by rw [one]; exact room)
  rw [one] at chunk
  rw [makeChunk]
  exact chunk

/-- A heap with 1026 free blocks at its end has room for an address space. -/
theorem makeNew4GB_freeFrom {kernel : Kernel} (placed : kernel.heap.WellPlaced) (flags : Byte) {first : Nat}
    (free : kernel.heap.FreeFrom first) (room : first + 1026 ≤ kernel.heap.table.total.toNat) :
    (makeNew4GBVirtualMemoryAddressSpace kernel flags).1 ≠ 0#32 ∧
      (makeNew4GBVirtualMemoryAddressSpace kernel flags).2.heap.FreeFrom (first + 1026) := by
  have directory := kzalloc_freeFrom placed tableSize (by decide) free
    (by rw [blocksFor_tableSize]; omega)
  rw [blocksFor_tableSize] at directory
  have pool := (keeps_kzalloc (fun _ => False) placed tableSize).pool
  have placed' := pool.wellPlaced placed
  have tables := makeTables_freeFrom placed' directory.2 (kzalloc kernel tableSize).1 (flags.setWidth 32)
    (Nat.le_refl pagingTotalEntriesPerTable)
    (by rw [pool.total]; unfold pagingTotalEntriesPerTable; omega)
  have tablesPool := ((Keeps.refl (fun _ => False) (kzalloc kernel tableSize).2).tablesMade placed'
    (freshRange_unguarded (kzalloc kernel tableSize).2 (kzalloc kernel tableSize).1) (flags.setWidth 32)
    (Nat.le_refl pagingTotalEntriesPerTable)).pool
  exact makeChunk_freeFrom (tablesPool.wellPlaced placed') tables (kzalloc kernel tableSize).1
    (by rw [tablesPool.total, pool.total]; unfold pagingTotalEntriesPerTable; omega)

/-! ## Requests that are not refused -/

theorem storeWord_refused (kernel : Kernel) (address value : Word) :
    (storeWord kernel address value).refused = kernel.refused := rfl

theorem fillTable_refused (kernel : Kernel) (entry offset flags : Word) (count : Nat) :
    (fillTable entry offset flags kernel count).refused = kernel.refused := by
  induction count with
  | zero => rfl
  | succ count inductionHypothesis => rw [fillTable, storeWord_refused, inductionHypothesis]

theorem makeTable_refused (state : Kernel × Word) (directory flags : Word) (i : Nat) :
    (makeTable directory flags i state).1.refused = (kzalloc state.1 tableSize).2.refused := by
  unfold makeTable
  generalize pagingTotalEntriesPerTable = count
  dsimp only
  rw [storeWord_refused, fillTable_refused]

theorem makeChunk_refused (kernel : Kernel) (directory : Word) :
    (makeChunk directory kernel).2.refused = (kzalloc kernel 4#32).2.refused := rfl

section FreeBlocks

variable {kernel : Kernel} (placed : kernel.heap.WellPlaced) {first : Nat} (free : kernel.heap.FreeFrom first)
include placed free

theorem kzalloc_unrefused {size : Word} (nonzero : size ≠ 0#32)
    (room : first + blocksFor size ≤ kernel.heap.table.total.toNat) : (kzalloc kernel size).2.refused = kernel.refused := by
  rw [kzalloc_refused_count, if_neg (kzalloc_freeFrom placed size nonzero free room).1, Nat.add_zero]

theorem makeTables_unrefused (directory flags : Word) {count : Nat} (bound : count ≤ 1024)
    (room : first + count ≤ kernel.heap.table.total.toNat) :
    (makeTables directory flags kernel count).1.refused = kernel.refused := by
  induction count with
  | zero => rfl
  | succ count inductionHypothesis =>
      have pool := ((Keeps.refl (fun _ => False) kernel).tablesMade placed
        (freshRange_unguarded kernel directory) flags (show count ≤ 1024 by omega)).pool
      have freeHere := makeTables_freeFrom placed free directory flags (show count ≤ 1024 by omega) (by omega)
      have served := @kzalloc_unrefused _ (pool.wellPlaced placed) _ freeHere tableSize (by decide)
        (by rw [blocksFor_tableSize, pool.total]; omega)
      rw [makeTables, makeTable_refused, served]
      exact inductionHypothesis (by omega) (by omega)

theorem makeNew4GB_unrefused (flags : Byte) (room : first + 1026 ≤ kernel.heap.table.total.toNat) :
    (makeNew4GBVirtualMemoryAddressSpace kernel flags).2.refused = kernel.refused := by
  have one : blocksFor 4#32 = 1 := by decide
  have directory := kzalloc_freeFrom placed tableSize (by decide) free (by rw [blocksFor_tableSize]; omega)
  have served := kzalloc_unrefused placed free (show tableSize ≠ 0#32 by decide) (by rw [blocksFor_tableSize]; omega)
  rw [blocksFor_tableSize] at directory
  have pool := (keeps_kzalloc (fun _ => False) placed tableSize).pool
  have placed' := pool.wellPlaced placed
  have entries : pagingTotalEntriesPerTable ≤ 1024 := Nat.le_refl 1024
  have inside : first + 1 + pagingTotalEntriesPerTable + 1 ≤ (kzalloc kernel tableSize).2.heap.table.total.toNat := by
    rw [pool.total]
    omega
  rw [makeNew4GBVirtualMemoryAddressSpace, makeChunk_refused, ← served]
  generalize kzalloc kernel tableSize = entry at *
  generalize pagingTotalEntriesPerTable = count at *
  have tables := makeTables_freeFrom placed' directory.2 entry.1 (flags.setWidth 32) entries (Nat.le_of_succ_le inside)
  have tablesServed := makeTables_unrefused placed' directory.2 entry.1 (flags.setWidth 32) entries
    (Nat.le_of_succ_le inside)
  have tablesPool := ((Keeps.refl (fun _ => False) entry.2).tablesMade placed' (freshRange_unguarded entry.2 entry.1)
    (flags.setWidth 32) entries).pool
  rw [← tablesPool.total, ← one] at inside
  rw [← tablesServed]
  exact kzalloc_unrefused (tablesPool.wellPlaced placed') tables (by decide) inside

end FreeBlocks

end Memory
end LarvaOS
