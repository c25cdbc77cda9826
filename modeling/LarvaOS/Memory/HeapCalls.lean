import LarvaOS.Library.Traced
import LarvaOS.Memory.Requests

namespace LarvaOS
namespace Memory

open Library

/-!
# Single calls in any state of the heap

A heap is reached from one that `heap_create` accepted by any calls of `malloc`
and `free`, the wrong ones among them.  What is live is what the entry table
records.

`malloc` does what it should in every such state.  `free` is given an address and
looks for the beginning of its allocation, but the search tests the entry of the
same block again and again.  It finds the beginning when the address lies in the
first block.  From any other block it runs down to block zero, and what begins
there is released instead.
-/

namespace Heap

/-- A heap that was accepted, with a pool that lies in the address space, after
any calls. -/
def Reached (heap : Heap) : Prop :=
  exists old start stop table, start ≠ 0#32 ∧
    start.toNat + heapBlockSizeBytes * table.total.toNat ≤ 2 ^ 32 ∧
      (heapCreate old start stop table).1 = 0 ∧ Requests (heapCreate old start stop table).2 heap

namespace Reached

variable {heap : Heap}

theorem placed_and_encoded (reached : heap.Reached) : heap.WellPlaced ∧ heap.Encoded := by
  rcases reached with ⟨old, start, stop, table, nonNull, fits, accepted, requests⟩
  rcases heapCreate_accepted accepted with ⟨aligned, _, _, created⟩
  rw [created] at requests
  have positive : 0 < start.toNat :=
    Nat.pos_of_ne_zero fun zero => nonNull (BitVec.eq_of_toNat_eq zero)
  have placed : WellPlaced ⟨⟨clearEntries table.entries table.total.toNat, table.total⟩, start⟩ :=
    ⟨aligned, positive, fits⟩
  have encoded : Encoded ⟨⟨clearEntries table.entries table.total.toNat, table.total⟩, start⟩ := by
    refine ⟨[], fun _ none => absurd none List.not_mem_nil, fun _ none => absurd none List.not_mem_nil,
      List.Pairwise.nil, fun block inside _ => ?_⟩
    have bound : block < table.total.toNat := inside
    change clearEntries table.entries table.total.toNat (block : Int) = _
    rw [clearEntries, if_pos (by omega)]
    rfl
  rcases requests.encoded placed encoded with ⟨pool, later⟩
  exact ⟨pool.wellPlaced placed, later⟩

theorem placed (reached : heap.Reached) : heap.WellPlaced := reached.placed_and_encoded.1

theorem encoded (reached : heap.Reached) : heap.Encoded := reached.placed_and_encoded.2

end Reached

/-! ## malloc -/

/-- A request is served exactly when it asks for bytes and a run of free blocks
is long enough.  The lowest such run is handed out, and a request that is not
served leaves the heap as it was. -/
theorem malloc_serves_iff {heap : Heap} (reached : heap.Reached) (size : Word) :
    ((malloc heap size).1 ≠ 0#32 ↔ 0 < size.toNat ∧ exists start, heap.Fits size start) ∧
      (forall start, 0 < size.toNat -> heap.Fits size start -> (forall earlier, earlier < start -> ¬ heap.Fits size earlier) ->
        (malloc heap size).1 = heap.addressOf start) ∧
      ((malloc heap size).1 = 0#32 -> (malloc heap size).2 = heap) := by
  have placed := reached.placed
  have nonzero : 0 < size.toNat -> size ≠ 0#32 := by
    rintro positive rfl
    exact Nat.lt_irrefl 0 positive
  rcases malloc_spec placed size with ⟨extent, asks, count, fits, lowest, result⟩ | ⟨none, result⟩
  · have inside : extent.first < heap.table.total.toNat := Nat.lt_of_lt_of_le
      (Nat.lt_add_of_pos_right (blocksFor_pos asks)) fits.1
    have served := placed.addressOf_ne_null inside
    rw [result]
    refine ⟨⟨fun _ => ⟨?_, extent.first, fits⟩, fun _ => served⟩, fun start _ fitting first => ?_, fun null =>
      absurd null served⟩
    · exact Nat.pos_of_ne_zero fun zero => asks (BitVec.eq_of_toNat_eq zero)
    · rcases Nat.lt_trichotomy extent.first start with before | same | after
      · exact absurd fits (first extent.first before)
      · exact congrArg heap.addressOf same
      · exact absurd fitting (lowest start after)
  · rw [result]
    refine ⟨⟨fun served => absurd rfl served, fun ⟨positive, start, fitting⟩ => ?_⟩,
      fun start positive fitting _ => ?_, fun _ => rfl⟩
    · exact absurd fitting (none (nonzero positive) start)
    · exact absurd fitting (none (nonzero positive) start)

/-- A pool of three blocks, in which an allocation of one block is followed by one
of two. -/
def threeBlocks : Heap :=
  (malloc (malloc (heapCreate ⟨⟨fun _ => 0#8, 0#32⟩, 0#32⟩ 0x1000#32 0x4000#32 ⟨fun _ => 0#8, 3#32⟩).2 1#32).2 0x1001#32).2

theorem threeBlocks_reached : threeBlocks.Reached :=
  ⟨_, 0x1000#32, 0x4000#32, ⟨fun _ => 0#8, 3#32⟩, by decide, by decide, by decide,
    (Requests.refl.malloc 1#32).malloc 0x1001#32⟩

/-- The pool is full. -/
theorem malloc_serves_iff_full :
    ((malloc threeBlocks 1#32).1 ≠ 0#32 ↔ 0 < (1#32 : Word).toNat ∧ exists start, threeBlocks.Fits 1#32 start) ∧
      (forall start, 0 < (1#32 : Word).toNat -> threeBlocks.Fits 1#32 start ->
        (forall earlier, earlier < start -> ¬ threeBlocks.Fits 1#32 earlier) ->
          (malloc threeBlocks 1#32).1 = threeBlocks.addressOf start) ∧
      ((malloc threeBlocks 1#32).1 = 0#32 -> (malloc threeBlocks 1#32).2 = threeBlocks) :=
  malloc_serves_iff threeBlocks_reached 1#32

/-- A pool of three blocks, the second of which lies at address 0, with one block
taken.  The end of the pool is 32 bits as well, and `heap_create` accepts it. -/
def wrappedPool : Int × Heap := heapCreate ⟨⟨fun _ => 0#8, 0#32⟩, 0#32⟩ 0xFFFFF000#32 0x2000#32 ⟨fun _ => 0#8, 3#32⟩

/-- The next request takes the block at address 0, and is answered as one that was not
served. -/
theorem malloc_wrappedPool_null : wrappedPool.1 = 0 ∧ wrappedPool.2.startAddress ≠ 0#32 ∧
    (malloc wrappedPool.2 1#32).2.Fits 1#32 1 ∧ (malloc (malloc wrappedPool.2 1#32).2 1#32).1 = 0#32 ∧
      (malloc (malloc wrappedPool.2 1#32).2 1#32).2 ≠ (malloc wrappedPool.2 1#32).2 := by
  refine ⟨by decide, by decide, ⟨by decide, ?_⟩, by decide, fun same => ?_⟩
  · intro block from1 below
    obtain rfl : block = 1 := by
      have one : blocksFor 1#32 = 1 := by decide
      omega
    decide
  · have entry := congrArg (fun heap => heap.table.entries 1) same
    exact absurd entry (by decide)

/-! ## free of a live allocation -/

/-- The release of an address finds the beginning of the allocation that it lies
in: the address lies in the first block, or the allocation begins the pool and the
search runs down to it.  Both suppose that the offset of the address fits into an
`int`; beyond that the search reads a byte in front of the table. -/
def FindsBeginning (heap : Heap) (extent : Extent) (pointer : Word) : Prop :=
  let offset := (pointer - heap.startAddress).toNat
  offset < 2 ^ 31 ∧ offset / heapBlockSizeBytes = extent.first ∨
    extent.first = 0 ∧
      (offset < 2 ^ 31 ∨
        heap.table.entries (getBlockNumberFromPhysicalAddress heap pointer) &&& heapBlockIsFirst = 0#8)

/-- The test of the search. -/
theorem begins_eq_false {entry : Byte} : heapMarks.begins entry = false ↔ entry &&& heapBlockIsFirst = 0#8 := by
  change (entry &&& heapBlockIsFirst != 0#8) = false ↔ _
  rw [bne_eq_false_iff_eq]

/-- Without the mark the walk begins at block zero. -/
theorem markBlocksFree_back {heap : Heap} {num : Int} (begins : heapMarks.begins (heap.table.entries num) = false) :
    markBlocksFree heap num =
      heap.withEntries (markBlocksFreeLoop heap.table.total.toNat (0 : Nat) heap.table.entries) := by
  unfold markBlocksFree
  simp only [findFirstBlock_eq, begins, Bool.false_eq_true, if_false, Nat.sub_zero]

/-- With the mark on an entry outside the table nothing is cleared. -/
theorem markBlocksFree_skips {heap : Heap} {num : Int} (begins : heapMarks.begins (heap.table.entries num) = true)
    (outside : heap.table.total.toNat ≤ (intToWord num).toNat) : markBlocksFree heap num = heap := by
  unfold markBlocksFree
  simp only [findFirstBlock_eq, begins, if_true, Nat.sub_eq_zero_of_le outside, markBlocksFreeLoop]
  rfl

/-- A walk from block zero clears an allocation that begins the pool. -/
theorem markBlocksFreeLoop_first {heap : Heap} {extent : Extent} (owned : heap.Owns extent) (first : extent.first = 0) :
    markBlocksFreeLoop heap.table.total.toNat (0 : Nat) heap.table.entries = clearExtent heap.table.entries extent := by
  have covered : extent.Covers 0 := by
    rw [← first]
    exact extent.covers_first
  have within := owned.within
  funext place
  rw [markBlocksFreeLoop_apply extent _ 0 _ covered (by omega)
    (fun block _ inside => owned.recorded.continues_iff inside), clearExtent, first]

/-- A walk from block zero leaves an allocation that does not begin there. -/
theorem markBlocksFreeLoop_later {heap : Heap} (encoded : heap.Encoded) {extent : Extent} (owned : heap.Owns extent)
    (later : extent.first ≠ 0) :
    markBlocksFreeLoop heap.table.total.toNat (0 : Nat) heap.table.entries extent.first =
      heap.table.entries extent.first := by
  rcases encoded with ⟨extents, encodes⟩
  rcases markBlocksFreeLoop_zero encodes with unchanged | ⟨gone, member, first, cleared⟩
  · exact congrArg (fun after => after.table.entries extent.first) unchanged
  · have other : heap.Owns gone := ⟨encodes.recorded gone member, encodes.within gone member⟩
    have apart : extent.Apart gone := by
      rcases owned.eq_or_apart other with rfl | apart
      · exact absurd first later
      · exact apart
    have entry := congrArg (fun after => after.table.entries extent.first) cleared
    exact entry.trans (clearExtent_of_not_covers _ (apart.not_covers extent.covers_first))

/-- An allocation is cleared when its first entry changes. -/
theorem clearExtent_ne {heap : Heap} {extent : Extent} (owned : heap.Owns extent) :
    clearExtent heap.table.entries extent extent.first ≠ heap.table.entries extent.first := by
  intro same
  rw [clearExtent_of_covers _ extent.covers_first] at same
  have taken : blockEntryIsFree (heap.table.entries extent.first) = false :=
    owned.recorded.not_free extent.covers_first
  rw [← same] at taken
  exact absurd taken (by decide)

/-- The offset of an address of an extent. -/
theorem InExtent.covers {heap : Heap} (placed : heap.WellPlaced) {extent : Extent} (owned : heap.Owns extent)
    {pointer : Word} (inside : heap.InExtent extent pointer) :
    extent.Covers ((pointer - heap.startAddress).toNat / heapBlockSizeBytes) := by
  have fits := placed.fits
  have within := owned.within
  have bound := pointer.isLt
  have offset := BitVec.toNat_sub pointer heap.startAddress
  unfold InExtent Extent.Covers heapBlockSizeBytes at *
  omega

/-- `free` of an address in a live allocation marks exactly the blocks of the
allocation free, if and only if its search finds the beginning. -/
theorem free_live_iff {heap : Heap} (reached : heap.Reached) {extent : Extent} (live : heap.Owns extent)
    {pointer : Word} (inside : heap.InExtent extent pointer) :
    free heap pointer = heap.withEntries (clearExtent heap.table.entries extent) ↔
      FindsBeginning heap extent pointer := by
  have placed := reached.placed
  have covered := inside.covers placed live
  have number := getBlockNumber_eq heap pointer
  unfold free FindsBeginning
  generalize (pointer - heap.startAddress).toNat = offset at *
  constructor
  · intro cleared
    have entry := congrArg (fun after => after.table.entries extent.first) cleared
    change (markBlocksFree heap _).table.entries extent.first = clearExtent heap.table.entries extent extent.first at entry
    by_cases low : offset < 2 ^ 31
    · rw [if_pos low] at number
      by_cases first : extent.first = 0
      · exact Or.inr ⟨first, Or.inl low⟩
      · left
        refine ⟨low, ?_⟩
        cases begins : heapMarks.begins (heap.table.entries (offset / heapBlockSizeBytes : Nat)) with
        | true => exact (live.recorded.begins_iff covered).mp begins
        | false =>
            rw [number, markBlocksFree_back begins] at entry
            exact absurd (entry.symm.trans (markBlocksFreeLoop_later reached.encoded live first)) (clearExtent_ne live)
    · rw [if_neg low] at number
      cases begins : heapMarks.begins (heap.table.entries (getBlockNumberFromPhysicalAddress heap pointer)) with
      | true =>
          have outside : heap.table.total.toNat ≤ (intToWord (getBlockNumberFromPhysicalAddress heap pointer)).toNat := by
            have fits := placed.fits
            have aligned := placed.aligned
            have nonNull := placed.nonNull
            have within := live.within
            have upper := covered.2
            rw [number, intToWord, BitVec.toNat_ofInt]
            unfold heapBlockSizeBytes at *
            omega
          rw [markBlocksFree_skips begins outside] at entry
          exact absurd entry.symm (clearExtent_ne live)
      | false =>
          right
          refine ⟨?_, Or.inr (begins_eq_false.mp begins)⟩
          by_contra first
          rw [markBlocksFree_back begins] at entry
          exact clearExtent_ne live (entry.symm.trans (markBlocksFreeLoop_later reached.encoded live first))
  · rintro (⟨low, first⟩ | ⟨first, reads⟩)
    · rw [number, if_pos low, first]
      exact markBlocksFree_first heap extent live.recorded live.within
    · have walks : heapMarks.begins (heap.table.entries (getBlockNumberFromPhysicalAddress heap pointer)) = false ->
          markBlocksFree heap (getBlockNumberFromPhysicalAddress heap pointer) =
            heap.withEntries (clearExtent heap.table.entries extent) := fun begins =>
        (markBlocksFree_back begins).trans (congrArg heap.withEntries (markBlocksFreeLoop_first live first))
      rcases reads with low | unmarked
      · rw [number, if_pos low] at walks ⊢
        cases begins : heapMarks.begins (heap.table.entries (offset / heapBlockSizeBytes : Nat)) with
        | true =>
            rw [(live.recorded.begins_iff covered).mp begins]
            exact markBlocksFree_first heap extent live.recorded live.within
        | false => exact walks begins
      · exact walks (begins_eq_false.mpr unmarked)

/-- The second allocation of the three blocks. -/
theorem threeBlocks_owns : threeBlocks.Owns ⟨1, 2, by decide⟩ := by
  refine ⟨fun block covered => ?_, by decide⟩
  have lower : 1 ≤ block := covered.1
  have upper : block < 3 := covered.2
  have place : block = 1 ∨ block = 2 := by omega
  rcases place with rfl | rfl
  · decide
  · decide

/-- The release of the first block. -/
theorem free_live_iff_first :
    free threeBlocks 0x2000#32 =
        threeBlocks.withEntries (clearExtent threeBlocks.table.entries ⟨1, 2, by decide⟩) ↔
      FindsBeginning threeBlocks ⟨1, 2, by decide⟩ 0x2000#32 :=
  free_live_iff threeBlocks_reached threeBlocks_owns ⟨by decide, by decide⟩

/-- The release of the second block takes away the other allocation. -/
theorem free_interior_other :
    threeBlocks.Reached ∧ threeBlocks.Owns ⟨1, 2, by decide⟩ ∧ threeBlocks.InExtent ⟨1, 2, by decide⟩ 0x3000#32 ∧
      free threeBlocks 0x3000#32 ≠
        threeBlocks.withEntries (clearExtent threeBlocks.table.entries ⟨1, 2, by decide⟩) := by
  refine ⟨threeBlocks_reached, threeBlocks_owns, ⟨by decide, by decide⟩, fun cleared => ?_⟩
  have entry : (free threeBlocks 0x3000#32).table.entries 0 =
      clearExtent threeBlocks.table.entries ⟨1, 2, by decide⟩ 0 :=
    congrArg (fun after => after.table.entries 0) cleared
  exact absurd entry (by decide)

/-! ## free of anything else -/

/-- The entries that the forward walk of `mark_blocks_free` reads and clears. -/
def walkTouches : Nat -> Int -> (Int -> Byte) -> List Int
  | 0, _, _ => []
  | remaining + 1, i, entries =>
      i :: if !blockHasNextBlock (entries i) then []
        else walkTouches remaining (i + 1) (Function.update entries i heapBlockTableEntryFree)

/-- The entries that `free` reads or clears.  The backward search reads the entry
of the block, unless that is block zero. -/
def freeTouches (heap : Heap) (pointer : Word) : List Int :=
  let num := getBlockNumberFromPhysicalAddress heap pointer
  let first := findFirstBlock heap.table.entries num (intToWord num).toNat
  (if (intToWord num).toNat = 0 then [] else [num]) ++
    walkTouches (heap.table.total.toNat - first) first heap.table.entries

/-! ### The release with its accesses -/

/-- An entry of the table is read. -/
def readEntry (entries : Int -> Byte) (place : Int) : Traced Int Byte := Traced.told place (entries place)

/-- An entry of the table is cleared. -/
def clearEntry (entries : Int -> Byte) (place : Int) : Traced Int (Int -> Byte) :=
  Traced.told place (Function.update entries place heapBlockTableEntryFree)

/-- The backward search of `mark_blocks_free`. -/
def findFirstBlockTraced (entries : Int -> Byte) (num : Int) : Nat -> Traced Int Nat
  | 0 => Traced.silent 0
  | counter + 1 =>
      (readEntry entries num).andThen fun entry =>
        if entry &&& heapBlockIsFirst != 0#8 then Traced.silent (counter + 1)
        else findFirstBlockTraced entries num counter

/-- The forward walk of `mark_blocks_free`. -/
def markBlocksFreeLoopTraced : Nat -> Int -> (Int -> Byte) -> Traced Int (Int -> Byte)
  | 0, _, entries => Traced.silent entries
  | remaining + 1, i, entries =>
      (readEntry entries i).andThen fun entry => (clearEntry entries i).andThen fun entries =>
        if !blockHasNextBlock entry then Traced.silent entries
        else markBlocksFreeLoopTraced remaining (i + 1) entries

/-- `free`. -/
def freeTraced (heap : Heap) (pointer : Word) : Traced Int Heap :=
  let num := getBlockNumberFromPhysicalAddress heap pointer
  (findFirstBlockTraced heap.table.entries num (intToWord num).toNat).andThen fun first =>
    (markBlocksFreeLoopTraced (heap.table.total.toNat - first) first heap.table.entries).map heap.withEntries

theorem findFirstBlockTraced_value (entries : Int -> Byte) (num : Int) (counter : Nat) :
    (findFirstBlockTraced entries num counter).value = Memory.findFirstBlock entries num counter := by
  induction counter with
  | zero => rfl
  | succ counter inductionHypothesis =>
      rw [findFirstBlockTraced, Memory.findFirstBlock]
      by_cases later : entries num &&& heapBlockIsFirst = 0#8
      · simp [readEntry, later, inductionHypothesis]
      · simp [readEntry, later]

theorem markBlocksFreeLoopTraced_value (remaining : Nat) (i : Int) (entries : Int -> Byte) :
    (markBlocksFreeLoopTraced remaining i entries).value = markBlocksFreeLoop remaining i entries := by
  induction remaining generalizing i entries with
  | zero => rfl
  | succ remaining inductionHypothesis =>
      rw [markBlocksFreeLoopTraced, markBlocksFreeLoop]
      cases more : blockHasNextBlock (entries i) with
      | false => simp [readEntry, clearEntry, more]
      | true => simp [readEntry, clearEntry, more, inductionHypothesis]

/-- Without the accesses it is `free`. -/
theorem freeTraced_value (heap : Heap) (pointer : Word) : (freeTraced heap pointer).value = free heap pointer := by
  unfold freeTraced free markBlocksFree
  simp only [Traced.andThen_value, Traced.map_value, findFirstBlockTraced_value, markBlocksFreeLoopTraced_value]

theorem mem_findFirstBlockTraced (entries : Int -> Byte) (num : Int) (counter : Nat) (place : Int) :
    place ∈ (findFirstBlockTraced entries num counter).events ↔ place ∈ if counter = 0 then [] else [num] := by
  induction counter with
  | zero => exact Iff.rfl
  | succ counter inductionHypothesis =>
      rw [findFirstBlockTraced, if_neg (Nat.succ_ne_zero counter)]
      by_cases later : entries num &&& heapBlockIsFirst = 0#8
      · cases counter with
        | zero => simp [readEntry, later, findFirstBlockTraced]
        | succ counter => simp [readEntry, later, inductionHypothesis]
      · simp [readEntry, later]

theorem mem_markBlocksFreeLoopTraced (remaining : Nat) (i : Int) (entries : Int -> Byte) (place : Int) :
    place ∈ (markBlocksFreeLoopTraced remaining i entries).events ↔ place ∈ walkTouches remaining i entries := by
  induction remaining generalizing i entries with
  | zero => exact Iff.rfl
  | succ remaining inductionHypothesis =>
      rw [markBlocksFreeLoopTraced, walkTouches]
      cases more : blockHasNextBlock (entries i) with
      | false => simp [readEntry, clearEntry, more]
      | true => simp [readEntry, clearEntry, more, inductionHypothesis]

/-- The accesses of the release are the entries that are listed for it. -/
theorem mem_freeTraced (heap : Heap) (pointer : Word) (place : Int) :
    place ∈ (freeTraced heap pointer).events ↔ place ∈ freeTouches heap pointer := by
  unfold freeTraced freeTouches
  simp only [Traced.andThen_events, Traced.map_events, List.mem_append, mem_findFirstBlockTraced,
    findFirstBlockTraced_value, mem_markBlocksFreeLoopTraced]

/-! ### The releases that change nothing -/

/-- The release touches no entry outside the table and leaves the heap as it is. -/
structure HarmlessRelease (heap : Heap) (pointer : Word) : Prop where
  inside : forall place, place ∈ freeTouches heap pointer -> 0 ≤ place ∧ place < heap.table.total.toNat
  unchanged : free heap pointer = heap

/-- The address lies in no live allocation. -/
def Dead (heap : Heap) (pointer : Word) : Prop := forall extent, heap.Owns extent -> ¬ heap.InExtent extent pointer

/-- The walk from block zero when block zero is free. -/
theorem walk_blank {heap : Heap} (blank : heap.table.entries 0 = heapBlockTableEntryFree) (remaining : Nat) :
    walkTouches (remaining + 1) (0 : Nat) heap.table.entries = [0] ∧
      markBlocksFreeLoop (remaining + 1) (0 : Nat) heap.table.entries = heap.table.entries := by
  have ends : blockHasNextBlock heapBlockTableEntryFree = false := by decide
  constructor
  · simp only [walkTouches, Int.natCast_zero, blank, ends, Bool.not_false, if_true]
  · simp only [markBlocksFreeLoop, Int.natCast_zero, blank, ends, Bool.not_false, if_true]
    rw [← blank]
    exact Function.update_eq_self 0 _

/-- The addresses for which `free` computes the number of a block of the kernel
heap: those of the pool, and almost a block in front of it. -/
def NearPool (pointer : Word) : Prop := 0x00FFF000 < pointer.toNat ∧ pointer.toNat < 0x07400000

section KernelHeap

variable {heap : Heap} (kernelHeap : heap.IsKernelHeap) {pointer : Word}
include kernelHeap

theorem IsKernelHeap.offset : (pointer - heap.startAddress).toNat = (2 ^ 32 - 0x01000000 + pointer.toNat) % 2 ^ 32 := by
  rw [kernelHeap.start, BitVec.toNat_sub]
  rfl

/-- Near the pool the number is that of a block, and it is zero or that of the
block which holds the address. -/
theorem IsKernelHeap.number_near (near : NearPool pointer) :
    exists num : Nat, getBlockNumberFromPhysicalAddress heap pointer = num ∧ num < 25600 ∧
      (num ≠ 0 -> 0x01000000 + 4096 * num ≤ pointer.toNat ∧ pointer.toNat < 0x01000000 + 4096 * (num + 1)) := by
  rcases near with ⟨lower, upper⟩
  have number := getBlockNumber_eq heap pointer
  have offset := @Heap.IsKernelHeap.offset _ kernelHeap pointer
  by_cases inside : 0x01000000 ≤ pointer.toNat
  · have distance : (pointer - heap.startAddress).toNat = pointer.toNat - 0x01000000 := by omega
    rw [distance, if_pos (by omega)] at number
    refine ⟨_, number, ?_, fun _ => ?_⟩
    · unfold heapBlockSizeBytes
      omega
    · unfold heapBlockSizeBytes
      omega
  · have distance : (pointer - heap.startAddress).toNat = 2 ^ 32 - 0x01000000 + pointer.toNat := by omega
    have zero : (2 ^ 32 - (pointer - heap.startAddress).toNat) / heapBlockSizeBytes = 0 := by
      unfold heapBlockSizeBytes
      omega
    rw [zero, if_neg (by omega)] at number
    exact ⟨0, number, by decide, fun impossible => absurd rfl impossible⟩

/-- Elsewhere the number is that of no block. -/
theorem IsKernelHeap.number_far (far : ¬ NearPool pointer) :
    ¬ (0 ≤ getBlockNumberFromPhysicalAddress heap pointer ∧ getBlockNumberFromPhysicalAddress heap pointer < 25600) ∧
      (intToWord (getBlockNumberFromPhysicalAddress heap pointer)).toNat ≠ 0 := by
  have bound := pointer.isLt
  have offset := @Heap.IsKernelHeap.offset _ kernelHeap pointer
  rw [getBlockNumber_eq]
  unfold NearPool at far
  unfold intToWord heapBlockSizeBytes
  rw [BitVec.toNat_ofInt]
  generalize (pointer - heap.startAddress).toNat = distance at *
  by_cases low : distance < 2 ^ 31
  · rw [if_pos low]
    omega
  · rw [if_neg low]
    omega

/-- For a dead address near the pool the search runs down to block zero. -/
theorem Dead.findFirstBlock (dead : heap.Dead pointer) (encoded : heap.Encoded) (near : NearPool pointer) :
    Memory.findFirstBlock heap.table.entries (getBlockNumberFromPhysicalAddress heap pointer)
      (intToWord (getBlockNumberFromPhysicalAddress heap pointer)).toNat = 0 := by
  rcases kernelHeap.number_near near with ⟨num, number, inside, place⟩
  rw [number, toNat_intToWord num (by omega), findFirstBlock_eq]
  cases begins : heapMarks.begins (heap.table.entries num) with
  | false => rfl
  | true =>
      by_contra nonzero
      rcases encoded with ⟨extents, encodes⟩
      have total : heap.table.total.toNat = 25600 := congrArg BitVec.toNat kernelHeap.total
      have start : heap.startAddress.toNat = 0x01000000 := congrArg BitVec.toNat kernelHeap.start
      rcases encodes.exists_first (by omega) begins with ⟨extent, member, first⟩
      refine dead extent ⟨encodes.recorded extent member, encodes.within extent member⟩ ?_
      rcases place nonzero with ⟨lower, upper⟩
      have positive := extent.nonempty
      unfold InExtent heapBlockSizeBytes
      omega

end KernelHeap

/-- A release of a dead address is harmless if and only if the address is near
the pool and block zero is free.  Far from the pool an entry outside the table is
read, and near the pool the allocation that begins the pool is released. -/
theorem release_harmless_iff {kernel : Kernel} {entries : Int -> Byte} {heap : Heap}
    (reached : (kheapInit kernel entries).heap.Requests heap) {pointer : Word} (dead : heap.Dead pointer) :
    HarmlessRelease heap pointer ↔ NearPool pointer ∧ BlockFree heap.table.entries 0 := by
  have created := kheapInit_isKernelHeap kernel entries
  rcases reached.encoded created.wellPlaced (kheapInit_encoded kernel entries) with ⟨pool, extents, encodes⟩
  have kernelHeap := created.samePool pool
  have total : heap.table.total.toNat = 25600 := congrArg BitVec.toNat kernelHeap.total
  constructor
  · intro harmless
    have near : NearPool pointer := by
      by_contra far
      rcases kernelHeap.number_far far with ⟨outside, nonzero⟩
      have read : getBlockNumberFromPhysicalAddress heap pointer ∈ freeTouches heap pointer := by
        unfold freeTouches
        dsimp only
        rw [if_neg nonzero]
        exact List.mem_append_left _ (List.mem_singleton_self _)
      have touched := harmless.inside _ read
      rw [total] at touched
      exact outside touched
    refine ⟨near, ?_⟩
    by_contra taken
    rcases encodes.exists_covers (by omega) taken with ⟨extent, member, covers⟩
    have owned : heap.Owns extent := ⟨encodes.recorded extent member, encodes.within extent member⟩
    have first : extent.first = 0 := Nat.le_zero.mp covers.1
    have unchanged := harmless.unchanged
    rw [free, markBlocksFree, dead.findFirstBlock kernelHeap ⟨extents, encodes⟩ near, Nat.sub_zero] at unchanged
    have entry := congrArg (fun after => after.table.entries extent.first) unchanged
    refine clearExtent_ne owned ?_
    rw [← markBlocksFreeLoop_first owned first]
    exact entry
  · rintro ⟨near, isFree⟩
    have blank : heap.table.entries 0 = heapBlockTableEntryFree := encodes.blank_of_free (show 0 < heap.table.total.toNat by omega) isFree
    have walk := walk_blank blank 25599
    have search := dead.findFirstBlock kernelHeap ⟨extents, encodes⟩ near
    rcases kernelHeap.number_near near with ⟨num, number, inside, _⟩
    constructor
    · intro place touched
      rw [freeTouches, search, total, walk.1, number] at touched
      rcases List.mem_append.mp touched with read | walked
      · by_cases zero : (intToWord num).toNat = 0
        · rw [if_pos zero] at read
          exact absurd read List.not_mem_nil
        · rw [if_neg zero] at read
          obtain rfl := List.mem_singleton.mp read
          omega
      · obtain rfl := List.mem_singleton.mp walked
        omega
    · rw [free, markBlocksFree, search, total, walk.2]
      rfl

/-- The kernel heap after one allocation of one byte. -/
def oneByte : Heap :=
  (malloc (kheapInit (Kernel.loaded Store.blank (fun _ _ => 0#8) fun _ => 0#8) fun _ => 0#8).heap 1#32).2

theorem oneByte_reached :
    (kheapInit (Kernel.loaded Store.blank (fun _ _ => 0#8) fun _ => 0#8) fun _ => 0#8).heap.Requests oneByte :=
  Requests.refl.malloc 1#32

/-- The allocation begins the pool. -/
theorem oneByte_eq :
    oneByte = (kheapInit (Kernel.loaded Store.blank (fun _ _ => 0#8) fun _ => 0#8) fun _ => 0#8).heap.withEntries
      (markExtent (clearEntries (fun _ => 0#8) 25600) (Extent.single 0)) := by
  have kernelHeap := kheapInit_isKernelHeap (Kernel.loaded Store.blank (fun _ _ => 0#8) fun _ => 0#8) fun _ => 0#8
  have free := kheapInit_freeFrom (Kernel.loaded Store.blank (fun _ _ => 0#8) fun _ => 0#8) fun _ => 0#8
  have total := congrArg BitVec.toNat kernelHeap.total
  have fits : Heap.Fits (kheapInit (Kernel.loaded Store.blank (fun _ _ => 0#8) fun _ => 0#8) fun _ => 0#8).heap 1#32 0 :=
    ⟨by rw [total]; decide, fun block above below => free block above (by rw [total]; exact Nat.lt_trans below (by decide))⟩
  have served := malloc_first_fit kernelHeap.wellPlaced 1#32 (Extent.single 0) rfl fits
    fun _ before => absurd before (Nat.not_lt_zero _)
  rw [oneByte, served, kheapInit_heap]

theorem oneByte_start : oneByte.startAddress = 0x01000000#32 := by
  rw [oneByte_eq, kheapInit_heap]
  rfl

theorem oneByte_entries :
    oneByte.table.entries = markExtent (clearEntries (fun _ => 0#8) 25600) (Extent.single 0) := by
  rw [oneByte_eq]
  rfl

theorem oneByte_owns : oneByte.Owns (Extent.single 0) := by
  rw [oneByte_eq, kheapInit_heap]
  exact owns_marked (by decide)

/-- Only the addresses of the first block belong to a live allocation. -/
theorem oneByte_dead {pointer : Word} (other : pointer.toNat < 0x01000000 ∨ 0x01001000 ≤ pointer.toNat) :
    oneByte.Dead pointer := by
  intro extent owned inside
  have start : oneByte.startAddress.toNat = 0x01000000 := congrArg BitVec.toNat oneByte_start
  have within := owned.within
  have positive := extent.nonempty
  have only : forall block, extent.Covers block -> block = 0 := by
    intro block covers
    by_contra later
    have taken := owned.recorded.not_free covers
    have upper := covers.2
    have blank : oneByte.table.entries block = heapBlockTableEntryFree := by
      rw [oneByte_entries, markExtent_of_not_covers _ (fun single => later (Extent.covers_single.mp single)),
        clearEntries]
      split <;> rfl
    change blockEntryIsFree (oneByte.table.entries block) = false at taken
    rw [blank] at taken
    exact absurd taken (by decide)
  have first := only extent.first extent.covers_first
  have last := only (extent.first + extent.count - 1) ⟨by omega, by omega⟩
  unfold InExtent heapBlockSizeBytes at inside
  omega

/-- `NULL` when the byte at address `0x6E00` is not marked. -/
theorem release_harmless_iff_null :
    HarmlessRelease oneByte 0#32 ↔ NearPool 0#32 ∧ BlockFree oneByte.table.entries 0 :=
  release_harmless_iff oneByte_reached (oneByte_dead (Or.inl (by decide)))

/-- The release of `NULL` takes away the allocation that begins the pool. -/
theorem release_null_harms :
    oneByte.Dead 0#32 ∧ ¬ HarmlessRelease oneByte 0#32 ∧ BlockFree (free oneByte 0#32).table.entries 0 := by
  have number : getBlockNumberFromPhysicalAddress oneByte 0#32 = -4096 := by
    unfold getBlockNumberFromPhysicalAddress
    rw [oneByte_start]
    decide
  have unmarked : heapMarks.begins (oneByte.table.entries (-4096)) = false := by
    rw [oneByte_entries]
    decide
  have cleared : free oneByte 0#32 = oneByte.withEntries (clearExtent oneByte.table.entries (Extent.single 0)) := by
    rw [free, number, markBlocksFree_back unmarked, markBlocksFreeLoop_first oneByte_owns rfl]
  refine ⟨oneByte_dead (Or.inl (by decide)), fun harmless => ?_, ?_⟩
  · have entry := congrArg (fun after => after.table.entries 0) (cleared.symm.trans harmless.unchanged)
    exact clearExtent_ne oneByte_owns entry
  · rw [cleared]
    decide

end Heap

end Memory
end LarvaOS
