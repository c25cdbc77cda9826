import LarvaOS.Library.Run
import LarvaOS.Memory.HeapSpec

namespace LarvaOS
namespace Memory

open Library

/-!
# Runs of malloc and free

A client of the heap may free what an earlier `malloc` returned to it and what
it has not freed since.  The ledger of the client is the list of its live
allocations; the law of this module says that the entry table is at every
moment exactly the encoding of that ledger.

The law depends on one more condition.  `free` computes the offset of its
argument as an `int`, and an allocation that begins 2^31 bytes or more above
the start of the pool therefore gets a negative block number: its blocks stay
taken, and the allocation at the start of the pool may be released instead.
Pools of that size are accepted by `heap_create`.  The law holds throughout a
run exactly when no such address is freed.
-/

inductive HeapCall where
  | malloc (size : Word)
  | free (pointer : Word)

/-- What the client knows about one of its allocations. -/
structure LiveAllocation where
  pointer : Word
  size : Word
deriving DecidableEq

/-- The heap together with the ledger of its client. -/
structure HeapRun where
  heap : Heap
  live : List LiveAllocation

namespace HeapRun

def step (run : HeapRun) : HeapCall -> HeapRun
  | .malloc size =>
      let result := Memory.malloc run.heap size
      { heap := result.2
        live := if result.1 = 0#32 then run.live else ⟨result.1, size⟩ :: run.live }
  | .free pointer =>
      { heap := Memory.free run.heap pointer
        live := run.live.filter fun allocation => allocation.pointer ≠ pointer }

/-- Only a live allocation is freed. -/
def Allowed (run : HeapRun) : HeapCall -> Prop
  | .malloc _ => True
  | .free pointer => exists allocation, allocation ∈ run.live ∧ allocation.pointer = pointer

/-- The freed address lies in the first 2^31 bytes of the pool. -/
def FreesLow (run : HeapRun) : HeapCall -> Prop
  | .malloc _ => True
  | .free pointer => (pointer - run.heap.startAddress).toNat < 2 ^ 31

/-- The first block of an allocation and its number of blocks. -/
def firstBlock (run : HeapRun) (allocation : LiveAllocation) : Nat :=
  (allocation.pointer - run.heap.startAddress).toNat / heapBlockSizeBytes

def blocksOf (allocation : LiveAllocation) : Nat := blocksFor allocation.size

/-- The entry table is exactly the encoding of the ledger, whose allocations
are disjoint, aligned, inside the pool and large enough.  With an empty ledger
the heap is the one that `heap_create` left. -/
structure TableIsEncoding (created : Heap) (stop : Word) (run : HeapRun) : Prop where
  firstEntry : forall allocation, allocation ∈ run.live ->
    run.heap.table.entries (run.firstBlock allocation) =
      if 1 < blocksOf allocation then
        heapBlockTableEntryTaken ||| heapBlockIsFirst ||| heapBlockHasNext
      else heapBlockTableEntryTaken ||| heapBlockIsFirst
  middleEntry : forall allocation, allocation ∈ run.live -> forall block : Nat,
    run.firstBlock allocation < block -> block + 1 < run.firstBlock allocation + blocksOf allocation ->
    run.heap.table.entries block = heapBlockTableEntryTaken ||| heapBlockHasNext
  lastEntry : forall allocation, allocation ∈ run.live -> 1 < blocksOf allocation ->
    run.heap.table.entries (run.firstBlock allocation + blocksOf allocation - 1 : Nat) =
      heapBlockTableEntryTaken
  freeEntry : forall block : Nat, block < run.heap.table.total.toNat ->
    (forall allocation, allocation ∈ run.live -> ¬ (run.firstBlock allocation ≤ block ∧
      block < run.firstBlock allocation + blocksOf allocation)) ->
    run.heap.table.entries block = 0x00#8
  disjoint : run.live.Pairwise fun left right =>
    left.pointer.toNat + heapBlockSizeBytes * blocksOf left ≤ right.pointer.toNat ∨
      right.pointer.toNat + heapBlockSizeBytes * blocksOf right ≤ left.pointer.toNat
  aligned : forall allocation, allocation ∈ run.live ->
    allocation.pointer.toNat % heapBlockSizeBytes = 0
  contained : forall allocation, allocation ∈ run.live ->
    run.heap.startAddress.toNat ≤ allocation.pointer.toNat ∧
      allocation.pointer.toNat + heapBlockSizeBytes * blocksOf allocation ≤ stop.toNat
  spans : forall allocation, allocation ∈ run.live ->
    0 < blocksOf allocation ∧ allocation.size.toNat ≤ heapBlockSizeBytes * blocksOf allocation
  allFreed : run.live = [] -> run.heap = created

/-! ## The invariant -/

/-- The blocks of an allocation. -/
def extentOf (run : HeapRun) (allocation : LiveAllocation) : Extent :=
  ⟨run.firstBlock allocation, blocksOf allocation - 1 + 1, Nat.succ_pos _⟩

/-- The entry table encodes the ledger, and nothing else has changed since the
heap was created. -/
structure Invariant (created : Heap) (stop : Word) (run : HeapRun) : Prop where
  placed : run.heap.WellPlaced
  start : run.heap.startAddress = created.startAddress
  total : run.heap.table.total = created.table.total
  stop : stop.toNat = created.startAddress.toNat + heapBlockSizeBytes * created.table.total.toNat
  outside : forall i : Int, ¬ (0 ≤ i ∧ i < created.table.total.toNat) ->
    run.heap.table.entries i = created.table.entries i
  cleared : forall block : Nat, block < created.table.total.toNat -> created.table.entries block = 0x00#8
  nonzero : forall allocation, allocation ∈ run.live -> allocation.size ≠ 0#32
  address : forall allocation, allocation ∈ run.live ->
    allocation.pointer = run.heap.addressOf (run.firstBlock allocation)
  encoded : heapMarks.Encodes run.heap.blocks run.heap.table.total.toNat (run.live.map run.extentOf)

theorem extentOf_count (run : HeapRun) {allocation : LiveAllocation}
    (nonzero : allocation.size ≠ 0#32) : (run.extentOf allocation).count = blocksOf allocation := by
  have positive := blocksFor_pos nonzero
  change blocksFor allocation.size - 1 + 1 = blocksFor allocation.size
  omega

namespace Invariant

variable {created : Heap} {stop : Word} {run : HeapRun}

theorem records (valid : Invariant created stop run) {allocation : LiveAllocation}
    (member : allocation ∈ run.live) :
    heapMarks.Records run.heap.blocks (run.extentOf allocation) :=
  valid.encoded.recorded _ (List.mem_map_of_mem member)

theorem within (valid : Invariant created stop run) {allocation : LiveAllocation}
    (member : allocation ∈ run.live) :
    run.firstBlock allocation + blocksOf allocation ≤ run.heap.table.total.toNat := by
  have fits := valid.encoded.within _ (List.mem_map_of_mem member)
  rwa [extentOf_count run (valid.nonzero allocation member)] at fits

theorem toNat_pointer (valid : Invariant created stop run) {allocation : LiveAllocation}
    (member : allocation ∈ run.live) :
    allocation.pointer.toNat =
      run.heap.startAddress.toNat + heapBlockSizeBytes * run.firstBlock allocation := by
  have fits := valid.within member
  have positive : 0 < blocksOf allocation := blocksFor_pos (valid.nonzero allocation member)
  conv_lhs => rw [valid.address allocation member]
  exact valid.placed.toNat_addressOf (by omega)

/-- The entry of a block of a live allocation. -/
theorem entry (valid : Invariant created stop run) {allocation : LiveAllocation}
    (member : allocation ∈ run.live) {block : Nat} (above : run.firstBlock allocation ≤ block)
    (below : block < run.firstBlock allocation + blocksOf allocation) :
    run.heap.table.entries block = takenEntry (decide (block = run.firstBlock allocation))
      (decide (block + 1 < run.firstBlock allocation + blocksOf allocation)) := by
  have count := extentOf_count run (valid.nonzero allocation member)
  have entry := valid.records member block ⟨above, by rw [count]; exact below⟩
  rw [MarkScheme.markAt, count] at entry
  exact entry

/-- The invariant gives every clause of the law. -/
theorem tableIsEncoding (valid : Invariant created stop run) : TableIsEncoding created stop run where
  firstEntry := by
    intro allocation member
    have positive : 0 < blocksOf allocation := blocksFor_pos (valid.nonzero allocation member)
    rw [valid.entry member (Nat.le_refl _) (by omega)]
    by_cases long : 1 < blocksOf allocation
    · have next : run.firstBlock allocation + 1 < run.firstBlock allocation + blocksOf allocation := by
        omega
      rw [if_pos long, decide_eq_true next, decide_eq_true rfl]
      rfl
    · have alone : ¬ run.firstBlock allocation + 1 < run.firstBlock allocation + blocksOf allocation := by
        omega
      rw [if_neg long, decide_eq_false alone, decide_eq_true rfl]
      rfl
  middleEntry := by
    intro allocation member block above below
    rw [valid.entry member (Nat.le_of_lt above) (by omega), decide_eq_true below,
      decide_eq_false (Nat.ne_of_gt above)]
    rfl
  lastEntry := by
    intro allocation member long
    have notFirst : ¬ run.firstBlock allocation + blocksOf allocation - 1 = run.firstBlock allocation := by
      omega
    have notNext : ¬ run.firstBlock allocation + blocksOf allocation - 1 + 1 <
        run.firstBlock allocation + blocksOf allocation := by
      omega
    rw [valid.entry member (by omega) (by omega), decide_eq_false notFirst, decide_eq_false notNext]
    rfl
  freeEntry := by
    intro block bound uncovered
    refine valid.encoded.blank block bound fun extent listed covered => ?_
    rcases List.mem_map.mp listed with ⟨allocation, member, same⟩
    subst same
    refine uncovered allocation member ⟨covered.1, ?_⟩
    have below := covered.2
    rwa [extentOf_count run (valid.nonzero allocation member)] at below
  disjoint := by
    refine (List.pairwise_map.mp valid.encoded.apart).imp_of_mem fun leftMember rightMember apart => ?_
    have leftCount := extentOf_count run (valid.nonzero _ leftMember)
    have rightCount := extentOf_count run (valid.nonzero _ rightMember)
    rw [valid.toNat_pointer leftMember, valid.toNat_pointer rightMember]
    unfold Extent.Apart at apart
    rw [leftCount, rightCount] at apart
    simp only [extentOf] at apart
    unfold heapBlockSizeBytes
    omega
  aligned := by
    intro allocation member
    rw [valid.toNat_pointer member, Nat.add_mul_mod_self_left]
    exact valid.placed.aligned
  contained := by
    intro allocation member
    have fits := valid.within member
    rw [valid.toNat_pointer member, valid.stop, ← valid.start, ← valid.total]
    unfold heapBlockSizeBytes
    omega
  spans := by
    intro allocation member
    refine ⟨blocksFor_pos (valid.nonzero allocation member), ?_⟩
    unfold blocksOf blocksFor heapBlockSizeBytes
    omega
  allFreed := by
    intro empty
    have entries : run.heap.table.entries = created.table.entries := by
      funext i
      by_cases inside : 0 ≤ i ∧ i < created.table.total.toNat
      · rcases Int.eq_ofNat_of_zero_le inside.1 with ⟨block, same⟩
        subst same
        have bound : block < created.table.total.toNat := by omega
        rw [valid.cleared block bound]
        refine valid.encoded.blank block (by rw [valid.total]; exact bound) fun extent listed => ?_
        rw [empty] at listed
        exact absurd listed List.not_mem_nil
      · exact valid.outside i inside
    have start := valid.start
    have total := valid.total
    rcases run with ⟨⟨⟨runEntries, runTotal⟩, runStart⟩, live⟩
    rcases created with ⟨⟨createdEntries, createdTotal⟩, createdStart⟩
    simp only at entries start total
    subst entries start total
    rfl

end Invariant

/-! ## One step -/

/-- The block of an address of the pool is read back from the address. -/
theorem firstBlock_addressOf {run : HeapRun} (placed : run.heap.WellPlaced) {block : Nat}
    (inside : block < run.heap.table.total.toNat) (size : Word) :
    run.firstBlock ⟨run.heap.addressOf block, size⟩ = block := by
  have fits := placed.fits
  unfold firstBlock
  rw [BitVec.toNat_sub, placed.toNat_addressOf inside]
  unfold heapBlockSizeBytes at *
  omega

theorem Invariant.step_malloc {created : Heap} {stop : Word} {run : HeapRun}
    (valid : Invariant created stop run) (size : Word) : Invariant created stop (run.step (.malloc size)) := by
  rcases malloc_spec valid.placed size with ⟨extent, nonzero, count, fits, _, result⟩ | ⟨_, result⟩
  · have positive := extent.nonempty
    have bound : extent.first + extent.count ≤ run.heap.table.total.toNat := by
      rw [count]
      exact fits.1
    have inside : extent.first < run.heap.table.total.toNat := by omega
    have run' : run.step (.malloc size) =
        { heap := run.heap.withEntries (markExtent run.heap.table.entries extent)
          live := ⟨run.heap.addressOf extent.first, size⟩ :: run.live } := by
      simp only [step, result, if_neg (valid.placed.addressOf_ne_null inside)]
    have fresh : extentOf (run.step (.malloc size)) ⟨run.heap.addressOf extent.first, size⟩ = extent := by
      have first := firstBlock_addressOf valid.placed inside size
      have counted := @extentOf_count run ⟨run.heap.addressOf extent.first, size⟩ nonzero
      rw [run']
      cases extent
      simp only [extentOf, Extent.mk.injEq] at counted count ⊢
      exact ⟨first, counted.trans count.symm⟩
    refine
      { placed := ?_
        start := ?_
        total := ?_
        stop := valid.stop
        outside := ?_
        cleared := valid.cleared
        nonzero := ?_
        address := ?_
        encoded := ?_ }
    · rw [run']
      exact valid.placed.withEntries _
    · rw [run']
      exact valid.start
    · rw [run']
      exact valid.total
    · intro i away
      rw [run']
      have total := congrArg BitVec.toNat valid.total
      change markExtent run.heap.table.entries extent i = _
      rw [markExtent, if_neg (by omega)]
      exact valid.outside i away
    · intro allocation member
      rw [run'] at member
      rcases List.mem_cons.mp member with same | old
      · subst same
        exact nonzero
      · exact valid.nonzero allocation old
    · intro allocation member
      rw [run'] at member ⊢
      rcases List.mem_cons.mp member with same | old
      · subst same
        exact congrArg run.heap.addressOf (firstBlock_addressOf valid.placed inside size).symm
      · exact valid.address allocation old
    · have inserted := valid.encoded.insert
        (run.heap.withEntries (markExtent run.heap.table.entries extent)).blocks extent bound (by rw [count]; exact fits.2)
        (fun _ covered => markExtent_of_covers _ covered)
        (fun _ uncovered => markExtent_of_not_covers _ uncovered)
      rw [run'] at fresh ⊢
      have listed : (run.step (.malloc size)).live.map (run.step (.malloc size)).extentOf =
          extent :: run.live.map run.extentOf := by
        rw [run']
        exact congrArg (· :: run.live.map run.extentOf) fresh
      rw [run'] at listed
      rw [listed]
      exact inserted
  · have same : run.step (.malloc size) = run := by
      simp only [step, result, if_true]
    rw [same]
    exact valid

/-- The extent of a live allocation begins at its pointer. -/
theorem Invariant.pointer_eq_of_extent {created : Heap} {stop : Word} {run : HeapRun}
    (valid : Invariant created stop run) {left right : LiveAllocation} (leftMember : left ∈ run.live)
    (rightMember : right ∈ run.live) (same : run.extentOf left = run.extentOf right) :
    left.pointer = right.pointer := by
  rw [valid.address left leftMember, valid.address right rightMember]
  exact congrArg (fun extent => run.heap.addressOf extent.first) same

theorem Invariant.step_free {created : Heap} {stop : Word} {run : HeapRun}
    (valid : Invariant created stop run) (pointer : Word) (allowed : run.Allowed (.free pointer))
    (low : run.FreesLow (.free pointer)) : Invariant created stop (run.step (.free pointer)) := by
  rcases allowed with ⟨gone, member, atPointer⟩
  have count := extentOf_count run (valid.nonzero gone member)
  have fits := valid.within member
  have offset : heapBlockSizeBytes * run.firstBlock gone < 2 ^ 31 := by
    have value := valid.toNat_pointer member
    have pool := valid.placed.fits
    change (pointer - run.heap.startAddress).toNat < 2 ^ 31 at low
    rw [← atPointer, BitVec.toNat_sub, value] at low
    unfold heapBlockSizeBytes at *
    omega
  have released := free_spec valid.placed (run.extentOf gone) (valid.records member)
    (by rw [count]; exact fits) offset
  have run' : run.step (.free pointer) =
      { heap := run.heap.withEntries (clearExtent run.heap.table.entries (run.extentOf gone))
        live := run.live.filter fun allocation => allocation.pointer ≠ pointer } := by
    have address : pointer = run.heap.addressOf (run.extentOf gone).first :=
      atPointer.symm.trans (valid.address gone member)
    simp only [step, address, released]
  rw [run']
  exact
    { placed := valid.placed.withEntries _
      start := valid.start
      total := valid.total
      stop := valid.stop
      outside := by
        intro i away
        have total := congrArg BitVec.toNat valid.total
        change clearExtent run.heap.table.entries (run.extentOf gone) i = _
        rw [clearExtent, count, if_neg (by simp only [extentOf]; omega)]
        exact valid.outside i away
      cleared := valid.cleared
      nonzero := fun allocation listed => valid.nonzero allocation (List.mem_filter.mp listed).1
      address := fun allocation listed => valid.address allocation (List.mem_filter.mp listed).1
      encoded := by
        refine valid.encoded.remove (run.extentOf gone) (List.mem_map_of_mem member)
          (List.filter_sublist.map _) (fun extent => ?_)
          (fun _ covered => clearExtent_of_covers _ covered)
          (fun _ uncovered => clearExtent_of_not_covers _ uncovered)
        constructor
        · intro listed
          rcases List.mem_map.mp listed with ⟨allocation, kept, same⟩
          have parts := List.mem_filter.mp kept
          subst same
          refine ⟨List.mem_map_of_mem parts.1, fun same => ?_⟩
          have pointers := valid.pointer_eq_of_extent parts.1 member same
          exact of_decide_eq_true parts.2 (pointers.trans atPointer)
        · rintro ⟨listed, different⟩
          rcases List.mem_map.mp listed with ⟨allocation, old, same⟩
          subst same
          refine List.mem_map_of_mem (List.mem_filter.mpr ⟨old, decide_eq_true fun samePointer => ?_⟩)
          apply different
          have first : run.firstBlock allocation = run.firstBlock gone := by
            unfold firstBlock
            rw [samePointer, atPointer]
          have covered : (run.extentOf allocation).Covers (run.firstBlock gone) := first ▸ Extent.covers_first _
          exact (valid.encoded.eq_of_covers (List.mem_map_of_mem old) (List.mem_map_of_mem member) covered
            (Extent.covers_first _)) }

/-- An allocation that begins 2^31 bytes or more above the start of the pool
keeps its first entry when it is freed. -/
theorem Invariant.free_high {created : Heap} {stop : Word} {run : HeapRun}
    (valid : Invariant created stop run) {gone : LiveAllocation} (member : gone ∈ run.live)
    (high : ¬ run.FreesLow (.free gone.pointer)) :
    (Memory.free run.heap gone.pointer).table.entries (run.firstBlock gone) =
      run.heap.table.entries (run.firstBlock gone) ∧
    (Memory.free run.heap gone.pointer).startAddress = run.heap.startAddress ∧
    (Memory.free run.heap gone.pointer).table.total = run.heap.table.total := by
  have fits := valid.within member
  have positive : 0 < blocksOf gone := blocksFor_pos (valid.nonzero gone member)
  have pool := valid.placed.fits
  have value := valid.toNat_pointer member
  have above : 2 ^ 31 ≤ heapBlockSizeBytes * run.firstBlock gone := by
    change ¬ (gone.pointer - run.heap.startAddress).toNat < 2 ^ 31 at high
    rw [BitVec.toNat_sub, value] at high
    unfold heapBlockSizeBytes at *
    omega
  have number : Memory.free run.heap gone.pointer =
      markBlocksFree run.heap ((run.firstBlock gone : Int) - 2 ^ 20) := by
    unfold Memory.free
    conv_lhs => rw [valid.address gone member]
    rw [valid.placed.getBlockNumber (by omega), if_neg (Nat.not_lt.mpr above)]
  have outside : run.heap.table.total.toNat ≤ (intToWord ((run.firstBlock gone : Int) - 2 ^ 20)).toNat := by
    unfold intToWord
    rw [BitVec.toNat_ofInt]
    unfold heapBlockSizeBytes at *
    omega
  rw [number]
  rcases markBlocksFree_outside valid.encoded _ outside with same | ⟨extent, _, first, _, cleared⟩
  · rw [same]
    exact ⟨rfl, rfl, rfl⟩
  · rw [cleared]
    refine ⟨?_, rfl, rfl⟩
    have notCovered : ¬ extent.Covers (run.firstBlock gone) := by
      intro covered
      have listed : extent ∈ run.live.map run.extentOf := by assumption
      have same := valid.encoded.eq_of_covers listed (List.mem_map_of_mem member) covered
        (Extent.covers_first (run.extentOf gone))
      rw [same] at first
      change run.firstBlock gone = 0 at first
      unfold heapBlockSizeBytes at above
      omega
    exact clearExtent_of_not_covers _ notCovered

/-- Hence the law fails right after such an address is freed: the entry still
says taken, and no live allocation accounts for it. -/
theorem Invariant.broken {created : Heap} {stop : Word} {run : HeapRun}
    (valid : Invariant created stop run) (call : HeapCall) (allowed : run.Allowed call)
    (high : ¬ run.FreesLow call) : ¬ TableIsEncoding created stop (run.step call) := by
  cases call with
  | malloc size => exact absurd trivial high
  | free pointer =>
      rcases allowed with ⟨gone, member, atPointer⟩
      subst atPointer
      have kept := valid.free_high member high
      have fits := valid.within member
      have positive : 0 < blocksOf gone := blocksFor_pos (valid.nonzero gone member)
      intro law
      have blank : (Memory.free run.heap gone.pointer).table.entries (run.firstBlock gone) = 0x00#8 := by
        refine law.freeEntry (run.firstBlock gone) ?_ fun allocation listed covered => ?_
        · change run.firstBlock gone < (Memory.free run.heap gone.pointer).table.total.toNat
          rw [kept.2.2]
          omega
        · have parts := List.mem_filter.mp listed
          have sameFirst : (run.step (.free gone.pointer)).firstBlock allocation = run.firstBlock allocation :=
            congrArg (fun start => (allocation.pointer - start).toNat / heapBlockSizeBytes) kept.2.1
          rw [sameFirst, ← extentOf_count run (valid.nonzero allocation parts.1)] at covered
          have same := valid.encoded.eq_of_covers (List.mem_map_of_mem parts.1)
            (List.mem_map_of_mem member) covered (Extent.covers_first (run.extentOf gone))
          exact of_decide_eq_true parts.2 (valid.pointer_eq_of_extent parts.1 member same)
      rw [kept.1] at blank
      have taken := (valid.records member).not_free (Extent.covers_first (run.extentOf gone))
      change blockEntryIsFree (run.heap.table.entries (run.firstBlock gone)) = false at taken
      rw [blank] at taken
      exact absurd taken (by decide)

theorem Invariant.step {created : Heap} {stop : Word} {run : HeapRun}
    (valid : Invariant created stop run) (call : HeapCall) (allowed : run.Allowed call)
    (low : run.FreesLow call) : Invariant created stop (run.step call) := by
  cases call with
  | malloc size => exact valid.step_malloc size
  | free pointer => exact valid.step_free pointer allowed low

/-! ## Whole runs -/

/-- A run of the client starts with the created heap and an empty ledger. -/
def start (heap : Heap) : HeapRun := ⟨heap, []⟩

/-- Every heap that `heap_create` accepts satisfies the invariant. -/
theorem invariant_created {heap : Heap} {start stop : Word} {table : HeapTable}
    (nonNull : start ≠ 0#32) (ordered : start.toNat ≤ stop.toNat)
    (accepted : (heapCreate heap start stop table).1 = 0) :
    Invariant (heapCreate heap start stop table).2 stop (HeapRun.start (heapCreate heap start stop table).2) := by
  rcases heapCreate_accepted accepted with ⟨startAligned, stopAligned, total, result⟩
  rw [result]
  have positive : 0 < start.toNat := by
    rcases Nat.eq_zero_or_pos start.toNat with zero | positive
    · exact absurd (BitVec.eq_of_toNat_eq zero) nonNull
    · exact positive
  have stopBound := stop.isLt
  have size : stop.toNat = start.toNat + heapBlockSizeBytes * table.total.toNat := by
    rw [BitVec.toNat_sub] at total
    unfold heapBlockSizeBytes at *
    omega
  have blank (block : Nat) (bound : block < table.total.toNat) :
      clearEntries table.entries table.total.toNat block = 0x00#8 := by
    rw [clearEntries, if_pos (by omega)]
    rfl
  exact
    { placed := ⟨startAligned, positive, size ▸ Nat.le_of_lt stopBound⟩
      start := rfl
      total := rfl
      stop := size
      outside := fun _ _ => rfl
      cleared := blank
      nonzero := fun _ listed => absurd listed List.not_mem_nil
      address := fun _ listed => absurd listed List.not_mem_nil
      encoded :=
        { recorded := fun _ listed => absurd listed List.not_mem_nil
          within := fun _ listed => absurd listed List.not_mem_nil
          apart := List.Pairwise.nil
          blank := fun block bound _ => blank block bound } }

/-- From any state of the invariant, the law holds throughout a legal run
exactly when every freed address lies in the first 2^31 bytes of the pool. -/
theorem Invariant.throughout_iff {created : Heap} {stop : Word} {run : HeapRun}
    (valid : Invariant created stop run) {calls : List HeapCall}
    (legal : Run.Everywhere HeapRun.step Allowed run calls) :
    Run.Throughout HeapRun.step (TableIsEncoding created stop) run calls ↔
      Run.Everywhere HeapRun.step FreesLow run calls :=
  Run.throughout_iff (fun _ => Invariant.tableIsEncoding)
    (fun _ call valid => valid.step call) (fun _ call valid => valid.broken call) run calls valid legal

/-- The entry table of an accepted heap is the encoding of the live
allocations after every step, exactly when no allocation that begins 2^31
bytes or more above the start of the pool is ever freed. -/
theorem table_is_encoding_iff (heap : Heap) (start stop : Word) (table : HeapTable)
    (nonNull : start ≠ 0#32) (ordered : start.toNat ≤ stop.toNat)
    (accepted : (heapCreate heap start stop table).1 = 0) (calls : List HeapCall)
    (legal : Run.Everywhere step Allowed (HeapRun.start (heapCreate heap start stop table).2) calls) :
    Run.Throughout step (TableIsEncoding (heapCreate heap start stop table).2 stop)
        (HeapRun.start (heapCreate heap start stop table).2) calls ↔
      Run.Everywhere step FreesLow (HeapRun.start (heapCreate heap start stop table).2) calls :=
  (invariant_created nonNull ordered accepted).throughout_iff legal

/-- A pool of six blocks, whose table is not clear before. -/
def smallHeap : Heap :=
  (heapCreate ⟨⟨fun _ => 0xff#8, 6#32⟩, 0#32⟩ 0x1000#32 0x7000#32 ⟨fun _ => 0xff#8, 6#32⟩).2

/-- Allocations of two, three and one blocks fill the pool.  The first is given back, a
block of it is taken again, and the second is given back between its neighbours. -/
abbrev neighbourCalls : List HeapCall :=
  [.malloc 0x1001#32, .malloc 0x3000#32, .malloc 1#32, .free 0x1000#32, .malloc 0x1000#32, .free 0x3000#32]

theorem table_is_encoding_neighbours : Run.Everywhere step FreesLow (start smallHeap) neighbourCalls ∧
    Run.Throughout step (TableIsEncoding smallHeap 0x7000#32) (start smallHeap) neighbourCalls := by
  have low : Run.Everywhere step FreesLow (start smallHeap) neighbourCalls :=
    ⟨trivial, trivial, trivial, (by decide : (0x1000#32 - 0x1000#32).toNat < 2 ^ 31), trivial,
      (by decide : (0x3000#32 - 0x1000#32).toNat < 2 ^ 31), trivial⟩
  refine ⟨low, (table_is_encoding_iff ⟨⟨fun _ => 0xff#8, 6#32⟩, 0#32⟩ 0x1000#32 0x7000#32 ⟨fun _ => 0xff#8, 6#32⟩
    (by decide) (by decide) (by decide) neighbourCalls ?_).mpr low⟩
  exact ⟨trivial, trivial, trivial, ⟨⟨0x1000#32, 0x1001#32⟩, by decide, rfl⟩, trivial,
    ⟨⟨0x3000#32, 0x3000#32⟩, by decide, rfl⟩, trivial⟩

/-! ## A pool of more than two gigabytes -/

/-- The heap of 2^19 + 1 blocks from `0x1000` to `0x80002000`. -/
def wideHeap : Heap :=
  (heapCreate ⟨⟨fun _ => 0#8, 0x80001#32⟩, 0#32⟩ 0x1000#32 0x80002000#32 ⟨fun _ => 0#8, 0x80001#32⟩).2

theorem invariant_wideHeap : Invariant wideHeap 0x80002000#32 (start wideHeap) :=
  invariant_created (by decide) (by decide) (by decide)

/-- Two gigabytes are taken first, and then one more block above them. -/
theorem wideHeap_allocations :
    ((start wideHeap).step (.malloc 0x80000000#32)).step (.malloc 1#32) =
      { heap := (wideHeap.withEntries (markExtent wideHeap.table.entries ⟨0, 2 ^ 19, by decide⟩)).withEntries
          (markExtent (markExtent wideHeap.table.entries ⟨0, 2 ^ 19, by decide⟩) ⟨2 ^ 19, 1, by decide⟩)
        live := [⟨0x80001000#32, 1#32⟩, ⟨0x1000#32, 0x80000000#32⟩] } := by
  have placed : wideHeap.WellPlaced := invariant_wideHeap.placed
  have blank (block : Nat) (bound : block < 0x80001) : BlockFree wideHeap.table.entries block := by
    have blank : wideHeap.table.entries block = 0x00#8 := invariant_wideHeap.cleared block bound
    rw [BlockFree, blank]
    rfl
  have first := malloc_first_fit placed 0x80000000#32 ⟨0, 2 ^ 19, by decide⟩ rfl
    ⟨by decide, fun block _ below => blank block (Nat.lt_of_lt_of_le below (by decide))⟩
    (fun _ before => absurd before (Nat.not_lt_zero _))
  have free : FreeRun (BlockFree (markExtent wideHeap.table.entries ⟨0, 2 ^ 19, by decide⟩)) (2 ^ 19) 1 := by
    intro block above below
    refine blockFree_markExtent.mpr ⟨fun covered => ?_, blank block (by omega)⟩
    have inFirst : block < 0 + 2 ^ 19 := covered.2
    omega
  have taken (earlier : Nat) (before : earlier < 2 ^ 19) :
      ¬ BlockFree (markExtent wideHeap.table.entries ⟨0, 2 ^ 19, by decide⟩) earlier := fun free =>
    (blockFree_markExtent.mp free).1 ⟨Nat.zero_le _, Nat.lt_of_lt_of_eq before (Nat.zero_add _).symm⟩
  have second := malloc_first_fit
    (placed.withEntries (markExtent wideHeap.table.entries ⟨0, 2 ^ 19, by decide⟩)) 1#32
    ⟨2 ^ 19, 1, by decide⟩ rfl ⟨by decide, free⟩
    (fun earlier before fits => taken earlier before (fits.2 earlier (Nat.le_refl _) (Nat.lt_succ_self _)))
  simp only [start, step, first, second]
  rfl

/-- The block of `0x80001000` gets the number -524288 when it is freed, and
its entry is never cleared. -/
theorem wideHeap_keeps_freed_block :
    Run.Everywhere step Allowed (start wideHeap)
        [.malloc 0x80000000#32, .malloc 1#32, .free 0x80001000#32] ∧
      ¬ Run.Throughout step (TableIsEncoding wideHeap 0x80002000#32) (start wideHeap)
        [.malloc 0x80000000#32, .malloc 1#32, .free 0x80001000#32] := by
  have legal : Run.Everywhere step Allowed (start wideHeap)
      [.malloc 0x80000000#32, .malloc 1#32, .free 0x80001000#32] := by
    refine ⟨trivial, trivial, ⟨⟨0x80001000#32, 1#32⟩, ?_, rfl⟩, trivial⟩
    rw [wideHeap_allocations]
    exact List.mem_cons_self
  refine ⟨legal, fun law => ?_⟩
  have low := ((invariant_wideHeap.throughout_iff legal).mp law).2.2.1
  rw [wideHeap_allocations] at low
  exact absurd (show (0x80001000#32 - 0x1000#32).toNat < 2 ^ 31 from low) (by decide)

end HeapRun

end Memory
end LarvaOS
