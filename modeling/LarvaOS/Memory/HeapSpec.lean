import LarvaOS.Library.Extent
import LarvaOS.Memory.Heap

namespace LarvaOS
namespace Memory

open Library

/-!
# What the heap operations do to the entry table

Each operation has one specification here, and later modules never unfold the
loops.  The entry table is a marked table in the sense of `Library.Extent`: an
allocation is an extent of blocks, `IS_FIRST` is the mark of its beginning and
`HAS_NEXT` the mark of its continuation.

The search is a first-fit search with an exact outcome: it fails only if no
run of free blocks is long enough, and otherwise finds the lowest one.
-/

/-- The entry byte of a taken block. -/
def takenEntry (first next : Bool) : Byte :=
  heapBlockTableEntryTaken ||| (if first then heapBlockIsFirst else 0#8) |||
    (if next then heapBlockHasNext else 0#8)

/-- The entry table's marks. -/
def heapMarks : MarkScheme Byte where
  mark := takenEntry
  begins entry := entry &&& heapBlockIsFirst != 0#8
  continues := blockHasNextBlock
  free := blockEntryIsFree
  blank := heapBlockTableEntryFree
  begins_mark := by decide
  continues_mark := by decide
  free_mark := by decide
  free_blank := by decide
  begins_blank := by decide
  continues_blank := by decide

/-- The entries of the blocks, without the bytes around the table. -/
def Heap.blocks (heap : Heap) (block : Nat) : Byte := heap.table.entries block

/-- The number of blocks of the pool. -/
abbrev Heap.blockCount (heap : Heap) : Nat := heap.table.total.toNat

/-- A block that the search may hand out. -/
def BlockFree (entries : Int -> Byte) (block : Nat) : Prop :=
  blockEntryIsFree (entries block) = true

instance (entries : Int -> Byte) : DecidablePred (BlockFree entries) :=
  fun _ => inferInstanceAs (Decidable (_ = true))

/-! ## Creation -/

/-- A heap is accepted when both ends of the pool are aligned and the table
has one entry for every block; all entries are then free. -/
theorem heapCreate_accepted {heap : Heap} {start stop : Word} {table : HeapTable}
    (accepted : (heapCreate heap start stop table).1 = 0) :
    start.toNat % heapBlockSizeBytes = 0 ∧ stop.toNat % heapBlockSizeBytes = 0 ∧
      table.total.toNat = (stop - start).toNat / heapBlockSizeBytes ∧
      (heapCreate heap start stop table).2 =
        { table := { entries := clearEntries table.entries table.total.toNat, total := table.total }
          startAddress := start } := by
  unfold heapCreate at *
  by_cases misaligned : (!heapValidateAlignment start || !heapValidateAlignment stop) = true
  · rw [if_pos misaligned] at accepted
    exact absurd (show -EINVAL = 0 from accepted) (by decide)
  · rw [if_neg misaligned] at accepted ⊢
    have aligned : start.toNat % heapBlockSizeBytes = 0 ∧ stop.toNat % heapBlockSizeBytes = 0 := by
      simpa [heapValidateAlignment] using misaligned
    by_cases agree : table.total.toNat = (stop - start).toNat / heapBlockSizeBytes
    · have passed : heapValidateTable start stop table = 0 := if_neg (not_not_intro agree)
      refine ⟨aligned.1, aligned.2, agree, ?_⟩
      simp only [passed]
      rw [if_neg (by decide)]
      rfl
    · have refused : heapValidateTable start stop table = -EINVAL := if_pos agree
      simp only [refused] at accepted
      rw [if_pos (by decide)] at accepted
      exact absurd (show -EINVAL = 0 from accepted) (by decide)

/-! ## The free block search -/

/-- What the search knows when it reaches index `i`: the current partial run
is maximal to the left, and no run of the requested length ends before `i`. -/
private structure SearchState (entries : Int -> Byte) (size i count : Nat) (blockNumber : Int) : Prop where
  reset : count = 0 -> blockNumber = -ENOMEM
  counting : 0 < count -> blockNumber = (i : Int) - count
  behind : count ≤ i
  partialRun : FreeRun (BlockFree entries) (i - count) count
  maximal : count < i -> ¬ BlockFree entries (i - count - 1)
  short : count < size
  none : forall start, start + size ≤ i -> ¬ FreeRun (BlockFree entries) start size

private theorem SearchState.extend {entries : Int -> Byte} {size i count : Nat} {blockNumber : Int}
    (state : SearchState entries size i count blockNumber) (free : BlockFree entries i) :
    FreeRun (BlockFree entries) (i - count) (count + 1) := by
  intro block above below
  by_cases old : block < i
  · exact state.partialRun block above (by omega)
  · have here : block = i := by
      have behind := state.behind
      omega
    exact here ▸ free

private theorem SearchState.blockNumber_eq {entries : Int -> Byte} {size i count : Nat} {blockNumber : Int}
    (state : SearchState entries size i count blockNumber) :
    (if blockNumber = -ENOMEM then (i : Int) else blockNumber) = (i - count : Nat) := by
  have behind := state.behind
  by_cases started : 0 < count
  · have number := state.counting started
    have real : blockNumber ≠ -ENOMEM := by
      unfold ENOMEM
      omega
    rw [if_neg real]
    omega
  · rw [if_pos (state.reset (by omega))]
    omega

private theorem SearchState.next_free {entries : Int -> Byte} {size i count : Nat} {blockNumber : Int}
    (state : SearchState entries size i count blockNumber) (free : BlockFree entries i)
    (more : count + 1 ≠ size) :
    SearchState entries size (i + 1) (count + 1) (i - count : Nat) := by
  have behind := state.behind
  have short := state.short
  have shifted : i + 1 - (count + 1) = i - count := by omega
  refine ⟨by omega, by omega, by omega, ?_, ?_, by omega, ?_⟩
  · rw [shifted]
    exact state.extend free
  · intro inside
    rw [shifted]
    exact state.maximal (by omega)
  · intro start fits run
    by_cases before : start + size ≤ i
    · exact state.none start before run
    · -- A run ending at `i` would have to contain the block that stopped the partial run.
      exact state.maximal (by omega) (run (i - count - 1) (by omega) (by omega))

private theorem SearchState.next_taken {entries : Int -> Byte} {size i count : Nat} {blockNumber : Int}
    (state : SearchState entries size i count blockNumber) (taken : ¬ BlockFree entries i) :
    SearchState entries size (i + 1) 0 (-ENOMEM) := by
  have short := state.short
  refine ⟨fun _ => rfl, by omega, by omega, fun _ _ _ => by omega, fun _ => taken, by omega, ?_⟩
  intro start fits run
  by_cases before : start + size ≤ i
  · exact state.none start before run
  · exact taken (run i (by omega) (by omega))

private theorem getFreeBlocksLoop_spec (entries : Int -> Byte) (size remaining i count : Nat)
    (blockNumber : Int) (state : SearchState entries size i count blockNumber) :
    (exists start : Nat, getFreeBlocksLoop entries size remaining i count blockNumber = (size, (start : Int)) ∧
      start + size ≤ i + remaining ∧ FreeRun (BlockFree entries) start size ∧
      forall earlier, earlier < start -> ¬ FreeRun (BlockFree entries) earlier size) ∨
    ((getFreeBlocksLoop entries size remaining i count blockNumber).1 ≠ size ∧
      forall start, start + size ≤ i + remaining -> ¬ FreeRun (BlockFree entries) start size) := by
  induction remaining generalizing i count blockNumber with
  | zero =>
      right
      exact ⟨Nat.ne_of_lt state.short, state.none⟩
  | succ remaining inductionHypothesis =>
      rw [getFreeBlocksLoop]
      by_cases free : BlockFree entries i
      · rw [if_pos (show blockEntryIsFree (entries i) = true from free)]
        simp only [state.blockNumber_eq]
        by_cases done : count + 1 = size
        · left
          have behind := state.behind
          refine ⟨i - count, by simp only [done, if_true], by omega, done ▸ state.extend free, ?_⟩
          intro earlier before
          exact state.none earlier (by omega)
        · simp only [if_neg done]
          have result := inductionHypothesis (i + 1) (count + 1) _ (state.next_free free done)
          simpa only [Nat.add_assoc, Nat.add_comm 1] using result
      · rw [if_neg (show ¬ blockEntryIsFree (entries i) = true from free)]
        have result := inductionHypothesis (i + 1) 0 _ (state.next_taken free)
        simpa only [Nat.add_assoc, Nat.add_comm 1] using result

/-- A request for no blocks is refused: the loop leaves with a positive count
or with no block number at all. -/
private theorem getFreeBlocksLoop_zero (entries : Int -> Byte) (remaining i count : Nat)
    (blockNumber : Int) (reset : count = 0 -> blockNumber = -ENOMEM) :
    (getFreeBlocksLoop entries 0 remaining i count blockNumber).1 = 0 ->
      (getFreeBlocksLoop entries 0 remaining i count blockNumber).2 = -ENOMEM := by
  induction remaining generalizing i count blockNumber with
  | zero => exact reset
  | succ remaining inductionHypothesis =>
      rw [getFreeBlocksLoop]
      by_cases free : blockEntryIsFree (entries i) = true
      · simp only [if_pos free, Nat.add_one_ne_zero, if_false]
        exact inductionHypothesis (i + 1) (count + 1) _ (by omega)
      · simp only [if_neg free]
        exact inductionHypothesis (i + 1) 0 _ fun _ => rfl

/-- The outcome of the search.  It fails exactly if no long enough run of
free blocks exists, and otherwise returns the lowest one. -/
theorem getFreeBlocks_spec (heap : Heap) (size : Nat) :
    (exists start : Nat, getFreeBlocks heap size = start ∧ 0 < size ∧
      start + size ≤ heap.blockCount ∧ FreeRun (BlockFree heap.table.entries) start size ∧
      forall earlier, earlier < start -> ¬ FreeRun (BlockFree heap.table.entries) earlier size) ∨
    (getFreeBlocks heap size = -ENOMEM ∧ (0 < size -> forall start,
      start + size ≤ heap.blockCount -> ¬ FreeRun (BlockFree heap.table.entries) start size)) := by
  unfold getFreeBlocks
  by_cases positive : 0 < size
  · have start : SearchState heap.table.entries size 0 0 (-ENOMEM) :=
      ⟨fun _ => rfl, by omega, by omega, fun _ _ _ => by omega, by omega, positive,
        fun _ fits => by omega⟩
    rcases getFreeBlocksLoop_spec heap.table.entries size heap.blockCount 0 0 _ start with
      ⟨first, found, fits, run, lowest⟩ | ⟨missed, none⟩
    · left
      exact ⟨first, by simp [found], positive, by omega, run, lowest⟩
    · right
      refine ⟨by simp only [if_pos missed], fun _ first fits => ?_⟩
      exact none first (by omega)
  · right
    have empty : size = 0 := by omega
    subst empty
    refine ⟨?_, fun impossible => absurd impossible (Nat.lt_irrefl 0)⟩
    by_cases zero : (getFreeBlocksLoop heap.table.entries 0 heap.table.total.toNat 0 0 (-ENOMEM)).1 = 0
    · simp only [zero, ne_eq, not_true_eq_false, if_false]
      exact getFreeBlocksLoop_zero _ _ 0 0 _ (fun _ => rfl) zero
    · simp only [ne_eq, zero, not_false_eq_true, if_true]

/-! ## Marking a run of blocks -/

/-- The entry table with one allocation marked. -/
def markExtent (entries : Int -> Byte) (extent : Extent) : Int -> Byte :=
  fun i =>
    if (extent.first : Int) ≤ i ∧ i < extent.first + extent.count then
      takenEntry (decide (i = extent.first)) (decide (i + 1 < extent.first + extent.count))
    else entries i

theorem markExtent_of_covers (entries : Int -> Byte) {extent : Extent} {block : Nat}
    (covered : extent.Covers block) :
    markExtent entries extent block = heapMarks.markAt extent block := by
  unfold Extent.Covers at covered
  have first : decide ((block : Int) = extent.first) = decide (block = extent.first) :=
    decide_eq_decide.mpr (by omega)
  have next : decide ((block : Int) + 1 < extent.first + extent.count) =
      decide (block + 1 < extent.first + extent.count) :=
    decide_eq_decide.mpr (by omega)
  rw [markExtent, if_pos (by omega), first, next]
  rfl

theorem markExtent_of_not_covers (entries : Int -> Byte) {extent : Extent} {block : Nat}
    (uncovered : ¬ extent.Covers block) : markExtent entries extent block = entries block := by
  unfold Extent.Covers at uncovered
  rw [markExtent, if_neg (by omega)]

/-- Marking takes exactly the blocks of the extent. -/
theorem blockFree_markExtent {entries : Int -> Byte} {extent : Extent} {block : Nat} :
    BlockFree (markExtent entries extent) block ↔ ¬ extent.Covers block ∧ BlockFree entries block := by
  unfold BlockFree
  by_cases covered : extent.Covers block
  · have taken : blockEntryIsFree (heapMarks.markAt extent block) = false := heapMarks.free_mark _ _
    rw [markExtent_of_covers entries covered, taken]
    exact ⟨fun impossible => absurd impossible (by decide), fun both => absurd covered both.1⟩
  · rw [markExtent_of_not_covers entries covered]
    exact ⟨fun free => ⟨covered, free⟩, fun both => both.2⟩

private theorem markBlocksTakenLoop_apply (endBlock : Int) (remaining : Nat) (i : Int)
    (entries : Int -> Byte) (j : Int) :
    markBlocksTakenLoop endBlock remaining i entries j =
      if i ≤ j ∧ j < i + remaining then takenEntry false (decide (j ≠ endBlock)) else entries j := by
  induction remaining generalizing i entries with
  | zero => rw [markBlocksTakenLoop, if_neg (by omega)]
  | succ remaining inductionHypothesis =>
      simp only [markBlocksTakenLoop]
      rw [inductionHypothesis]
      by_cases here : j = i
      · subst here
        have passed : ¬ (j + 1 ≤ j ∧ j < j + 1 + remaining) := by omega
        have inside : j ≤ j ∧ j < j + (remaining + 1 : Nat) := by omega
        rw [if_neg passed, if_pos inside]
        by_cases last : j = endBlock
        · rw [if_neg (not_not_intro last), Function.update_self, decide_eq_false (not_not_intro last)]
          rfl
        · rw [if_pos last, Function.update_self, Function.update_self, decide_eq_true last]
          rfl
      · have unchanged : (if i ≠ endBlock then
            Function.update (Function.update entries i heapBlockTableEntryTaken) i
              (Function.update entries i heapBlockTableEntryTaken i ||| heapBlockHasNext)
            else Function.update entries i heapBlockTableEntryTaken) j = entries j := by
          split <;> simp [here]
        rw [unchanged]
        by_cases later : i + 1 ≤ j ∧ j < i + 1 + remaining
        · rw [if_pos later, if_pos (by omega)]
        · rw [if_neg later, if_neg (by omega)]

/-- A number below 2^32 is its own bit pattern. -/
theorem toNat_intToWord (number : Nat) (small : number < 2 ^ 32) :
    (intToWord (number : Int)).toNat = number := by
  unfold intToWord
  rw [BitVec.toNat_ofInt]
  omega

/-- `mark_blocks_taken` on a run inside the pool marks exactly that run. -/
theorem markBlocksTaken_spec (heap : Heap) (extent : Extent)
    (fits : extent.first + extent.count ≤ heap.blockCount) :
    (markBlocksTaken heap extent.first extent.count).2 =
      heap.withEntries (markExtent heap.table.entries extent) := by
  have positive := extent.nonempty
  have small : heap.table.total.toNat < 2 ^ 32 := heap.table.total.isLt
  change extent.first + extent.count ≤ heap.table.total.toNat at fits
  have last : (heap.table.total - 1#32).toNat = heap.table.total.toNat - 1 := by
    rw [BitVec.toNat_sub]
    simp only [BitVec.toNat_ofNat]
    omega
  have stop : (extent.first : Int) + extent.count - 1 = ((extent.first + extent.count - 1 : Nat) : Int) := by
    omega
  unfold markBlocksTaken
  simp only [last, stop, toNat_intToWord _ (show extent.first < 2 ^ 32 by omega),
    toNat_intToWord _ (show extent.first + extent.count - 1 < 2 ^ 32 by omega)]
  rw [if_neg (by omega), if_neg (by omega)]
  refine congrArg heap.withEntries (funext fun j => ?_)
  rw [markBlocksTakenLoop_apply, markExtent]
  by_cases inside : (extent.first : Int) ≤ j ∧ j < extent.first + extent.count
  · rw [if_pos inside]
    by_cases first : j = extent.first
    · rw [if_neg (by omega)]
      by_cases long : (1 : Int) < extent.count
      · have next : (extent.first : Int) + 1 < extent.first + extent.count := by omega
        simp [first, long, next, takenEntry]
      · have alone : ¬ (extent.first : Int) + 1 < extent.first + extent.count := by omega
        simp [first, long, alone, takenEntry]
    · rw [if_pos (by omega)]
      have agree : (j ≠ ((extent.first + extent.count - 1 : Nat) : Int)) ↔
          j + 1 < extent.first + extent.count := by omega
      simp only [first, agree, decide_false]
  · rw [if_neg inside, if_neg (by omega)]
    have notFirst : j ≠ extent.first := by omega
    split <;> simp [notFirst]

/-! ## Releasing blocks -/

/-- The entry table with the blocks of one allocation cleared. -/
def clearExtent (entries : Int -> Byte) (extent : Extent) : Int -> Byte :=
  fun i => if (extent.first : Int) ≤ i ∧ i < extent.first + extent.count then heapBlockTableEntryFree
    else entries i

theorem clearExtent_of_covers (entries : Int -> Byte) {extent : Extent} {block : Nat}
    (covered : extent.Covers block) : clearExtent entries extent block = heapBlockTableEntryFree := by
  unfold Extent.Covers at covered
  rw [clearExtent, if_pos (by omega)]

theorem clearExtent_of_not_covers (entries : Int -> Byte) {extent : Extent} {block : Nat}
    (uncovered : ¬ extent.Covers block) : clearExtent entries extent block = entries block := by
  unfold Extent.Covers at uncovered
  rw [clearExtent, if_neg (by omega)]

/-- The backward search never moves the entry it tests, and hence stops at
once or runs down to block zero. -/
theorem findFirstBlock_eq (entries : Int -> Byte) (num : Int) (counter : Nat) :
    findFirstBlock entries num counter =
      if heapMarks.begins (entries num) = true then counter else 0 := by
  induction counter with
  | zero => simp [findFirstBlock]
  | succ counter inductionHypothesis =>
      change (if heapMarks.begins (entries num) = true then counter + 1
        else findFirstBlock entries num counter) = _
      rw [inductionHypothesis]
      by_cases first : heapMarks.begins (entries num) = true
      · simp only [first, if_true]
      · simp only [first, Bool.false_eq_true, if_false]

/-- From any block of a recorded allocation the forward walk clears the rest
of it and stops. -/
theorem markBlocksFreeLoop_apply (extent : Extent) (remaining block : Nat)
    (entries : Int -> Byte) (covered : extent.Covers block)
    (enough : extent.first + extent.count ≤ block + remaining)
    (recorded : forall i : Nat, block ≤ i -> extent.Covers i ->
      (heapMarks.continues (entries i) = true ↔ i + 1 < extent.first + extent.count)) (j : Int) :
    markBlocksFreeLoop remaining block entries j =
      if (block : Int) ≤ j ∧ j < extent.first + extent.count then heapBlockTableEntryFree
      else entries j := by
  unfold Extent.Covers at covered
  induction remaining generalizing block entries with
  | zero => omega
  | succ remaining inductionHypothesis =>
      simp only [markBlocksFreeLoop]
      have here := recorded block (Nat.le_refl _) covered
      by_cases more : block + 1 < extent.first + extent.count
      · have next : blockHasNextBlock (entries block) = true := here.mpr more
        rw [next]
        simp only [Bool.not_true, Bool.false_eq_true, if_false]
        have walk := inductionHypothesis (block + 1) (Function.update entries block heapBlockTableEntryFree)
          (by omega) (by omega) (by
            intro i above inside
            have different : (i : Int) ≠ block := by omega
            rw [Function.update_of_ne different]
            exact recorded i (by omega) inside)
        rw [Int.natCast_add, Int.natCast_one] at walk
        rw [walk]
        by_cases same : j = block
        · subst same
          rw [if_neg (by omega), if_pos (by omega), Function.update_self]
        · rw [Function.update_of_ne same]
          by_cases later : (block : Int) + 1 ≤ j ∧ j < extent.first + extent.count
          · rw [if_pos later, if_pos (by omega)]
          · rw [if_neg later, if_neg (by omega)]
      · have final : blockHasNextBlock (entries block) = false :=
          Bool.eq_false_iff.mpr fun next => more (here.mp next)
        rw [final]
        simp only [Bool.not_false, if_true]
        by_cases same : j = block
        · subst same
          rw [if_pos (by omega), Function.update_self]
        · rw [Function.update_of_ne same, if_neg (by omega)]

/-- Releasing the first block of a recorded allocation clears exactly its
blocks. -/
theorem markBlocksFree_first (heap : Heap) (extent : Extent)
    (recorded : heapMarks.Records heap.blocks extent)
    (fits : extent.first + extent.count ≤ heap.blockCount) :
    markBlocksFree heap extent.first = heap.withEntries (clearExtent heap.table.entries extent) := by
  have small : heap.table.total.toNat < 2 ^ 32 := heap.table.total.isLt
  change extent.first + extent.count ≤ heap.table.total.toNat at fits
  have positive := extent.nonempty
  have begins : heapMarks.begins (heap.table.entries extent.first) = true :=
    (recorded.begins_iff extent.covers_first).mpr rfl
  unfold markBlocksFree
  simp only [toNat_intToWord _ (show extent.first < 2 ^ 32 by omega)]
  rw [findFirstBlock_eq, if_pos begins]
  congr 1
  funext j
  rw [markBlocksFreeLoop_apply extent _ _ _ extent.covers_first (by omega)
    (fun i _ inside => recorded.continues_iff inside), clearExtent]

/-! ## Addresses -/

/-- The pool starts at an aligned non-null address and does not wrap around
the address space. -/
structure Heap.WellPlaced (heap : Heap) : Prop where
  aligned : heap.startAddress.toNat % heapBlockSizeBytes = 0
  nonNull : 0 < heap.startAddress.toNat
  fits : heap.startAddress.toNat + heapBlockSizeBytes * heap.table.total.toNat ≤ 2 ^ 32

/-- A store to the entry table does not move the pool. -/
theorem Heap.WellPlaced.withEntries {heap : Heap} (placed : heap.WellPlaced) (entries : Int -> Byte) :
    (heap.withEntries entries).WellPlaced :=
  ⟨placed.aligned, placed.nonNull, placed.fits⟩

/-- The address of a block of the pool. -/
def Heap.addressOf (heap : Heap) (block : Nat) : Word :=
  heap.startAddress + BitVec.ofNat 32 (heapBlockSizeBytes * block)

@[simp] theorem Heap.withEntries_addressOf (heap : Heap) (entries : Int -> Byte) (block : Nat) :
    (heap.withEntries entries).addressOf block = heap.addressOf block := rfl

theorem Heap.WellPlaced.toNat_addressOf {heap : Heap} (placed : heap.WellPlaced) {block : Nat}
    (inside : block < heap.table.total.toNat) :
    (heap.addressOf block).toNat = heap.startAddress.toNat + heapBlockSizeBytes * block := by
  have fits := placed.fits
  unfold heapBlockSizeBytes at fits
  rw [Heap.addressOf, BitVec.toNat_add, BitVec.toNat_ofNat]
  unfold heapBlockSizeBytes
  omega

theorem Heap.WellPlaced.addressOf_aligned {heap : Heap} (placed : heap.WellPlaced) {block : Nat}
    (inside : block < heap.table.total.toNat) :
    (heap.addressOf block).toNat % heapBlockSizeBytes = 0 := by
  rw [placed.toNat_addressOf inside, Nat.add_mul_mod_self_left]
  exact placed.aligned

theorem Heap.WellPlaced.addressOf_ne_null {heap : Heap} (placed : heap.WellPlaced) {block : Nat}
    (inside : block < heap.table.total.toNat) : heap.addressOf block ≠ 0#32 := by
  intro null
  have value := placed.toNat_addressOf inside
  have positive := placed.nonNull
  rw [null, BitVec.toNat_ofNat] at value
  omega

theorem Heap.WellPlaced.addressOf_injective {heap : Heap} (placed : heap.WellPlaced)
    {left right : Nat} (leftInside : left < heap.table.total.toNat)
    (rightInside : right < heap.table.total.toNat)
    (same : heap.addressOf left = heap.addressOf right) : left = right := by
  have leftValue := placed.toNat_addressOf leftInside
  have rightValue := placed.toNat_addressOf rightInside
  rw [same, rightValue] at leftValue
  unfold heapBlockSizeBytes at leftValue
  omega

theorem Heap.WellPlaced.getPhysicalAddress {heap : Heap} (placed : heap.WellPlaced) {block : Nat}
    (inside : block < heap.table.total.toNat) :
    getPhysicalAddressFromBlockNumber heap block = heap.addressOf block := by
  have fits := placed.fits
  have small : heap.table.total.toNat < 2 ^ 32 := heap.table.total.isLt
  have last : (heap.table.total - 1#32).toNat = heap.table.total.toNat - 1 := by
    rw [BitVec.toNat_sub]
    simp only [BitVec.toNat_ofNat]
    omega
  unfold getPhysicalAddressFromBlockNumber
  rw [toNat_intToWord block (by omega), last, if_neg (by omega), Heap.addressOf]
  congr 1
  rw [intToWord, Nat.mul_comm, ← Int.natCast_mul]
  exact BitVec.ofInt_natCast 32 _

/-- The signed offset of an address of the pool, divided by the block size. -/
theorem Heap.WellPlaced.getBlockNumber {heap : Heap} (placed : heap.WellPlaced) {block : Nat}
    (inside : block < heap.table.total.toNat) :
    getBlockNumberFromPhysicalAddress heap (heap.addressOf block) =
      if heapBlockSizeBytes * block < 2 ^ 31 then (block : Int) else (block : Int) - 2 ^ 20 := by
  have fits := placed.fits
  have offset : (heap.addressOf block - heap.startAddress).toNat = heapBlockSizeBytes * block := by
    rw [BitVec.toNat_sub, placed.toNat_addressOf inside]
    unfold heapBlockSizeBytes at *
    omega
  unfold getBlockNumberFromPhysicalAddress wordToInt
  rw [BitVec.toInt_eq_toNat_cond, offset]
  unfold heapBlockSizeBytes at *
  by_cases low : 4096 * block < 2 ^ 31
  · rw [if_pos (by omega), if_pos low, Int.natCast_mul]
    exact Int.mul_tdiv_cancel_left _ (by decide)
  · have multiple : ((4096 * block : Nat) : Int) - (2 ^ 32 : Nat) = (4096 : Nat) * ((block : Int) - 2 ^ 20) := by
      omega
    rw [if_neg (by omega), if_neg low, multiple]
    exact Int.mul_tdiv_cancel_left _ (by decide)

/-! ## malloc and free -/

/-- The number of blocks that hold `size` bytes, over the integers. -/
def blocksFor (size : Word) : Nat := (size.toNat + 4095) / 4096

theorem blocksFor_pos {size : Word} (nonzero : size ≠ 0#32) : 0 < blocksFor size := by
  have positive : 0 < size.toNat := by
    rcases Nat.eq_zero_or_pos size.toNat with zero | positive
    · exact absurd (BitVec.eq_of_toNat_eq zero) nonzero
    · exact positive
  unfold blocksFor
  omega

/-- The rounding of the source is exact until the sum wraps, and then asks
for no blocks. -/
theorem alignValueToUpper_blocks (size : Word) :
    (alignValueToUpper size).toNat / heapBlockSizeBytes =
      if size.toNat + 4095 < 2 ^ 32 then blocksFor size else 0 := by
  have bound := size.isLt
  unfold alignValueToUpper blocksFor heapBlockSizeBytes
  by_cases exact : size.toNat % 4096 = 0
  · rw [if_pos exact, if_pos (by omega)]
    omega
  · have remainder : (BitVec.ofNat 32 (size.toNat % 4096)).toNat = size.toNat % 4096 := by
      rw [BitVec.toNat_ofNat]
      omega
    rw [if_neg exact, BitVec.toNat_add, BitVec.toNat_sub, remainder, BitVec.toNat_ofNat]
    by_cases room : size.toNat + 4095 < 2 ^ 32
    · rw [if_pos room]
      omega
    · rw [if_neg room]
      omega

/-- A run of blocks that the first-fit search may hand out for `size` bytes. -/
def Heap.Fits (heap : Heap) (size : Word) (start : Nat) : Prop :=
  start + blocksFor size ≤ heap.table.total.toNat ∧
    FreeRun (BlockFree heap.table.entries) start (blocksFor size)

/-- `malloc` is first fit: a nonzero request takes the lowest fitting run,
and it fails only if there is none. -/
theorem malloc_spec {heap : Heap} (placed : heap.WellPlaced) (size : Word) :
    (exists extent : Extent, size ≠ 0#32 ∧ extent.count = blocksFor size ∧
      heap.Fits size extent.first ∧ (forall earlier, earlier < extent.first -> ¬ heap.Fits size earlier) ∧
      malloc heap size = (heap.addressOf extent.first,
        heap.withEntries (markExtent heap.table.entries extent))) ∨
    ((size ≠ 0#32 -> forall start, ¬ heap.Fits size start) ∧ malloc heap size = (0#32, heap)) := by
  have fits := placed.fits
  have above := placed.nonNull
  unfold malloc
  simp only [alignValueToUpper_blocks]
  by_cases room : size.toNat + 4095 < 2 ^ 32
  · rw [if_pos room]
    unfold mallocBlocks
    rcases getFreeBlocks_spec heap (blocksFor size) with
      ⟨start, found, positive, bound, run, lowest⟩ | ⟨missed, none⟩
    · left
      let extent : Extent := ⟨start, blocksFor size, positive⟩
      have nonzero : size ≠ 0#32 := by
        intro zero
        subst zero
        exact absurd positive (by decide)
      refine ⟨extent, nonzero, rfl, ⟨bound, run⟩, fun earlier before fitting => ?_, ?_⟩
      · exact lowest earlier before fitting.2
      · have bounded : start + blocksFor size ≤ heap.table.total.toNat := bound
        have marked := markBlocksTaken_spec heap extent bound
        simp only [found]
        rw [if_neg (by omega), placed.getPhysicalAddress (by omega)]
        exact congrArg (Prod.mk (heap.addressOf start)) marked
    · right
      refine ⟨fun nonzero start fitting => none (blocksFor_pos nonzero) start fitting.1 fitting.2, ?_⟩
      simp only [missed]
      rw [if_pos (by decide)]
  · rw [if_neg room]
    right
    constructor
    · intro _ start fitting
      -- More blocks than the whole address space holds above its first page.
      have bound := fitting.1
      unfold blocksFor heapBlockSizeBytes at *
      omega
    · unfold mallocBlocks
      rcases getFreeBlocks_spec heap 0 with ⟨start, _, positive, _⟩ | ⟨missed, _⟩
      · exact absurd positive (Nat.lt_irrefl 0)
      · simp only [missed]
        rw [if_pos (by decide)]

/-- The lowest fitting run is the one that `malloc` hands out. -/
theorem malloc_first_fit {heap : Heap} (placed : heap.WellPlaced) (size : Word) (extent : Extent)
    (count : extent.count = blocksFor size) (fits : heap.Fits size extent.first)
    (lowest : forall earlier, earlier < extent.first -> ¬ heap.Fits size earlier) :
    malloc heap size =
      (heap.addressOf extent.first, heap.withEntries (markExtent heap.table.entries extent)) := by
  have positive := extent.nonempty
  rcases malloc_spec placed size with ⟨found, _, foundCount, foundFits, foundLowest, result⟩ | ⟨none, _⟩
  · have sameFirst : found.first = extent.first := by
      rcases Nat.lt_trichotomy found.first extent.first with before | same | after
      · exact absurd foundFits (lowest _ before)
      · exact same
      · exact absurd fits (foundLowest _ after)
    have same : found = extent := by
      cases found
      cases extent
      simp only [Extent.mk.injEq] at *
      exact ⟨sameFirst, foundCount.trans count.symm⟩
    exact same ▸ result
  · have nonzero : size ≠ 0#32 := by
      rintro rfl
      rw [count] at positive
      exact absurd positive (by decide)
    exact absurd fits (none nonzero _)

/-- Releasing the address of a recorded allocation in the lower two gigabytes
of the pool clears exactly its blocks. -/
theorem free_spec {heap : Heap} (placed : heap.WellPlaced) (extent : Extent)
    (recorded : heapMarks.Records heap.blocks extent)
    (fits : extent.first + extent.count ≤ heap.table.total.toNat)
    (low : heapBlockSizeBytes * extent.first < 2 ^ 31) :
    free heap (heap.addressOf extent.first) =
      heap.withEntries (clearExtent heap.table.entries extent) := by
  have positive := extent.nonempty
  unfold free
  rw [placed.getBlockNumber (by omega), if_pos low]
  exact markBlocksFree_first heap extent recorded fits

/-- A walk from block zero clears the allocation that begins the pool, if there
is one. -/
theorem markBlocksFreeLoop_zero {heap : Heap} {extents : List Extent}
    (encoded : heapMarks.Encodes heap.blocks heap.table.total.toNat extents) :
    heap.withEntries (markBlocksFreeLoop heap.table.total.toNat (0 : Nat) heap.table.entries) = heap ∨
      exists extent, extent ∈ extents ∧ extent.first = 0 ∧
        heap.withEntries (markBlocksFreeLoop heap.table.total.toNat (0 : Nat) heap.table.entries) =
          heap.withEntries (clearExtent heap.table.entries extent) := by
  by_cases taken : exists extent, extent ∈ extents ∧ extent.Covers 0
  · right
    rcases taken with ⟨extent, member, covered⟩
    have first : extent.first = 0 := Nat.le_zero.mp covered.1
    have fits := encoded.within extent member
    have recorded := encoded.recorded extent member
    refine ⟨extent, member, first, congrArg heap.withEntries (funext fun j => ?_)⟩
    rw [markBlocksFreeLoop_apply extent _ 0 _ covered (by omega)
      (fun i _ inside => recorded.continues_iff inside), clearExtent, first]
  · left
    -- A free block zero is overwritten by the value it has.
    cases count : heap.table.total.toNat with
    | zero => rfl
    | succ remaining =>
        have blank : heap.table.entries 0 = heapBlockTableEntryFree :=
          encoded.blank 0 (by omega) fun extent member covered => taken ⟨extent, member, covered⟩
        have noNext : blockHasNextBlock heapBlockTableEntryFree = false := by decide
        have same : Function.update heap.table.entries 0 heapBlockTableEntryFree = heap.table.entries := by
          rw [← blank]
          exact Function.update_eq_self 0 _
        simp only [markBlocksFreeLoop, Int.natCast_zero, blank, noNext, Bool.not_false, if_true, same]
        rfl

/-- Releasing a block number outside the table.  The byte found there decides:
with the `IS_FIRST` bit set nothing happens, and otherwise the backward search
runs down to block zero, so that the allocation which begins the pool is
released. -/
theorem markBlocksFree_outside {heap : Heap} {extents : List Extent}
    (encoded : heapMarks.Encodes heap.blocks heap.table.total.toNat extents) (num : Int)
    (outside : heap.table.total.toNat ≤ (intToWord num).toNat) :
    markBlocksFree heap num = heap ∨
      exists extent, extent ∈ extents ∧ extent.first = 0 ∧
        heapMarks.begins (heap.table.entries num) = false ∧
        markBlocksFree heap num = heap.withEntries (clearExtent heap.table.entries extent) := by
  unfold markBlocksFree
  simp only [findFirstBlock_eq]
  cases begins : heapMarks.begins (heap.table.entries num) with
  | true =>
      left
      simp only [if_true, Nat.sub_eq_zero_of_le outside, markBlocksFreeLoop]
      rfl
  | false =>
      simp only [Bool.false_eq_true, if_false, Nat.sub_zero]
      rcases markBlocksFreeLoop_zero encoded with unchanged | ⟨extent, member, first, cleared⟩
      · exact Or.inl unchanged
      · exact Or.inr ⟨extent, member, first, trivial, cleared⟩

/-- Releasing a block number of the table.  The allocation that begins there is
released, and without one the allocation that begins the pool. -/
theorem markBlocksFree_inside {heap : Heap} {extents : List Extent}
    (encoded : heapMarks.Encodes heap.blocks heap.table.total.toNat extents) (num : Nat)
    (inside : num < heap.table.total.toNat) :
    markBlocksFree heap num = heap ∨
      exists extent, extent ∈ extents ∧ (extent.first = 0 ∨ extent.first = num) ∧
        markBlocksFree heap num = heap.withEntries (clearExtent heap.table.entries extent) := by
  cases begins : heapMarks.begins (heap.table.entries num) with
  | true =>
      right
      rcases encoded.exists_first inside begins with ⟨extent, member, first⟩
      refine ⟨extent, member, Or.inr first, ?_⟩
      rw [← first]
      exact markBlocksFree_first heap extent (encoded.recorded extent member) (encoded.within extent member)
  | false =>
      have walk : markBlocksFree heap num =
          heap.withEntries (markBlocksFreeLoop heap.table.total.toNat (0 : Nat) heap.table.entries) := by
        unfold markBlocksFree
        simp only [findFirstBlock_eq, begins, Bool.false_eq_true, if_false, Nat.sub_zero]
      rw [walk]
      rcases markBlocksFreeLoop_zero encoded with unchanged | ⟨extent, member, first, cleared⟩
      · exact Or.inl unchanged
      · exact Or.inr ⟨extent, member, Or.inl first, cleared⟩

/-- The number of the block that holds an address, as `free` computes it. -/
theorem getBlockNumber_eq (heap : Heap) (pointer : Word) :
    getBlockNumberFromPhysicalAddress heap pointer =
      if (pointer - heap.startAddress).toNat < 2 ^ 31 then
        (((pointer - heap.startAddress).toNat / heapBlockSizeBytes : Nat) : Int)
      else -(((2 ^ 32 - (pointer - heap.startAddress).toNat) / heapBlockSizeBytes : Nat) : Int) := by
  have bound := (pointer - heap.startAddress).isLt
  unfold getBlockNumberFromPhysicalAddress wordToInt
  rw [BitVec.toInt_eq_toNat_cond]
  generalize (pointer - heap.startAddress).toNat = distance at *
  by_cases low : distance < 2 ^ 31
  · rw [if_pos low, if_pos (by omega), ← Int.ofNat_tdiv]
  · have opposite : (distance : Int) - (2 ^ 32 : Nat) = -((2 ^ 32 - distance : Nat) : Int) := by omega
    rw [if_neg low, if_neg (by omega), opposite, Int.neg_tdiv, ← Int.ofNat_tdiv]

/-- A number outside the table, or the block that holds the address.  An address
less than a block below the pool counts as one of block zero. -/
theorem Heap.WellPlaced.blockNumber_cases {heap : Heap} (placed : heap.WellPlaced) (pointer : Word) :
    heap.table.total.toNat ≤ (intToWord (getBlockNumberFromPhysicalAddress heap pointer)).toNat ∨
      exists num : Nat, getBlockNumberFromPhysicalAddress heap pointer = num ∧ num < heap.table.total.toNat ∧
        (num = 0 ∨ heap.startAddress.toNat + heapBlockSizeBytes * num ≤ pointer.toNat ∧
          pointer.toNat < heap.startAddress.toNat + heapBlockSizeBytes * (num + 1)) := by
  have fits := placed.fits
  have startBound := heap.startAddress.isLt
  have pointerBound := pointer.isLt
  have offset := BitVec.toNat_sub pointer heap.startAddress
  rw [getBlockNumber_eq]
  unfold intToWord heapBlockSizeBytes at *
  generalize (pointer - heap.startAddress).toNat = distance at *
  by_cases low : distance < 2 ^ 31
  · rw [if_pos low]
    by_cases inside : distance / 4096 < heap.table.total.toNat
    · have place : pointer.toNat = heap.startAddress.toNat + distance := by omega
      have lower := Nat.mul_div_le distance 4096
      have upper := Nat.lt_mul_div_succ distance (show 0 < 4096 by decide)
      right
      refine ⟨distance / 4096, rfl, inside, Or.inr ?_⟩
      rw [place]
      exact ⟨Nat.add_le_add_left lower _, Nat.add_lt_add_left upper _⟩
    · left
      rw [BitVec.toNat_ofInt]
      omega
  · rw [if_neg low]
    by_cases near : (2 ^ 32 - distance) / 4096 = 0
    · rw [near]
      by_cases empty : heap.table.total.toNat = 0
      · exact Or.inl (by omega)
      · exact Or.inr ⟨0, by decide, by omega, Or.inl rfl⟩
    · left
      rw [BitVec.toNat_ofInt]
      omega

/-- Whatever address is released, at most one allocation goes: the one in whose
first block the address lies, or the one that begins the pool. -/
theorem free_cases {heap : Heap} (placed : heap.WellPlaced) {extents : List Extent}
    (encoded : heapMarks.Encodes heap.blocks heap.table.total.toNat extents) (pointer : Word) :
    free heap pointer = heap ∨
      exists extent, extent ∈ extents ∧
        (extent.first = 0 ∨ heap.startAddress.toNat + heapBlockSizeBytes * extent.first ≤ pointer.toNat ∧
          pointer.toNat < heap.startAddress.toNat + heapBlockSizeBytes * (extent.first + 1)) ∧
        free heap pointer = heap.withEntries (clearExtent heap.table.entries extent) := by
  unfold free
  rcases placed.blockNumber_cases pointer with outside | ⟨num, number, inside, place⟩
  · rcases markBlocksFree_outside encoded _ outside with unchanged | ⟨extent, member, first, _, cleared⟩
    · exact Or.inl unchanged
    · exact Or.inr ⟨extent, member, Or.inl first, cleared⟩
  · rw [number]
    rcases markBlocksFree_inside encoded num inside with unchanged | ⟨extent, member, first | rfl, cleared⟩
    · exact Or.inl unchanged
    · exact Or.inr ⟨extent, member, Or.inl first, cleared⟩
    · exact Or.inr ⟨extent, member, place, cleared⟩

theorem blockFree_markBlocksFreeLoop (remaining : Nat) (i : Int) {entries : Int -> Byte} {block : Nat}
    (free : BlockFree entries block) : BlockFree (markBlocksFreeLoop remaining i entries) block := by
  induction remaining generalizing i entries with
  | zero => exact free
  | succ remaining inductionHypothesis =>
      have stays : BlockFree (Function.update entries i heapBlockTableEntryFree) block := by
        unfold BlockFree
        by_cases same : (block : Int) = i
        · rw [same, Function.update_self]
          decide
        · rw [Function.update_of_ne same]
          exact free
      simp only [markBlocksFreeLoop]
      split
      · exact stays
      · exact inductionHypothesis (i + 1) stays

/-- A release takes no block. -/
theorem blockFree_free (heap : Heap) (pointer : Word) {block : Nat} (isFree : BlockFree heap.table.entries block) :
    BlockFree (free heap pointer).table.entries block := blockFree_markBlocksFreeLoop _ _ isFree

end Memory
end LarvaOS
