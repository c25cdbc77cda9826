import LarvaOS.Memory.Kheap

namespace LarvaOS
namespace Memory

open Library

/-!
# Ownership of heap blocks

An extent is owned when the entry table records it.  The marks of an owned
extent separate it from every other owned extent and from every run that the
search may hand out, so the statements below need nothing about the rest of
the table.

`Keeps guard before after` is the frame relation of the kernel: the extents
that were owned before and satisfy the guard are still owned, and the memory
in them is unchanged.  Allocation keeps everything.  A store or a release
keeps what it does not touch, and what it touches is usually fresh: it was
allocated after the state that is compared with, or lies below the pool, where
a store through `NULL` goes.
-/

/-- The entry table records this extent as an allocation. -/
structure Heap.Owns (heap : Heap) (extent : Extent) : Prop where
  recorded : heapMarks.Records heap.blocks extent
  within : extent.first + extent.count ≤ heap.table.total.toNat

/-- An address inside the blocks of an extent. -/
def Heap.InExtent (heap : Heap) (extent : Extent) (address : Word) : Prop :=
  heap.startAddress.toNat + heapBlockSizeBytes * extent.first ≤ address.toNat ∧
    address.toNat < heap.startAddress.toNat + heapBlockSizeBytes * (extent.first + extent.count)

/-- Heaps over the same pool. -/
structure Heap.SamePool (heap heap' : Heap) : Prop where
  start : heap'.startAddress = heap.startAddress
  total : heap'.table.total = heap.table.total

/-- The extent that a request receives. -/
structure Heap.Hands (heap : Heap) (size : Word) (extent : Extent) : Prop where
  nonzero : size ≠ 0#32
  count : extent.count = blocksFor size
  fits : heap.Fits size extent.first
  lowest : forall earlier, earlier < extent.first -> ¬ heap.Fits size earlier

/-- A request that no run of free blocks can serve. -/
def Heap.Refuses (heap : Heap) (size : Word) : Prop :=
  size ≠ 0#32 -> forall start, ¬ heap.Fits size start

namespace Heap

variable {heap heap' : Heap} {extent left right : Extent} {size address : Word}

theorem SamePool.refl (heap : Heap) : heap.SamePool heap := ⟨rfl, rfl⟩

theorem SamePool.trans {heap'' : Heap} (first : heap.SamePool heap') (second : heap'.SamePool heap'') :
    heap.SamePool heap'' :=
  ⟨second.start.trans first.start, second.total.trans first.total⟩

theorem SamePool.wellPlaced (same : heap.SamePool heap') (placed : heap.WellPlaced) : heap'.WellPlaced := by
  rcases placed with ⟨aligned, nonNull, fits⟩
  exact ⟨same.start ▸ aligned, same.start ▸ nonNull, same.start ▸ same.total ▸ fits⟩

theorem SamePool.addressOf (same : heap.SamePool heap') (block : Nat) :
    heap'.addressOf block = heap.addressOf block := by
  rw [Heap.addressOf, Heap.addressOf, same.start]

theorem SamePool.inExtent (same : heap.SamePool heap') :
    heap'.InExtent extent address ↔ heap.InExtent extent address := by
  rw [InExtent, InExtent, same.start]

theorem Owns.eq_or_apart (leftOwned : heap.Owns left) (rightOwned : heap.Owns right) :
    left = right ∨ left.Apart right :=
  leftOwned.recorded.eq_or_apart rightOwned.recorded

/-- Owned extents that begin at the same block are equal. -/
theorem Owns.eq_of_first (leftOwned : heap.Owns left) (rightOwned : heap.Owns right)
    (same : left.first = right.first) : left = right := by
  rcases leftOwned.eq_or_apart rightOwned with equal | apart
  · exact equal
  · have leftPositive := left.nonempty
    have rightPositive := right.nonempty
    unfold Extent.Apart at apart
    omega

theorem Owns.address_inside (owned : heap.Owns extent) : extent.first < heap.table.total.toNat := by
  have positive := extent.nonempty
  have within := owned.within
  omega

theorem not_inExtent_of_apart (apart : left.Apart right) (inLeft : heap.InExtent left address) :
    ¬ heap.InExtent right address := by
  unfold Extent.Apart InExtent heapBlockSizeBytes at *
  omega

/-- A handed out extent is apart from every owned one. -/
theorem Hands.apart (hands : heap.Hands size right) (owned : heap.Owns left) : left.Apart right := by
  apply owned.recorded.apart_of_freeRun
  rw [hands.count]
  exact hands.fits.2

theorem Hands.within (hands : heap.Hands size extent) :
    extent.first + extent.count ≤ heap.table.total.toNat := by
  rw [hands.count]
  exact hands.fits.1

theorem Hands.inside (hands : heap.Hands size extent) : extent.first < heap.table.total.toNat := by
  have positive := extent.nonempty
  have within := hands.within
  omega

/-- Marking keeps the owned extents that are apart from the marked one. -/
theorem Owns.mark (owned : heap.Owns left) (apart : left.Apart right) :
    (heap.withEntries (markExtent heap.table.entries right)).Owns left where
  recorded := owned.recorded.transport fun _ covered =>
    markExtent_of_not_covers _ (apart.not_covers covered)
  within := owned.within

theorem owns_marked (within : extent.first + extent.count ≤ heap.table.total.toNat) :
    (heap.withEntries (markExtent heap.table.entries extent)).Owns extent where
  recorded := fun _ covered => markExtent_of_covers _ covered
  within := within

/-- Clearing keeps the owned extents that are apart from the cleared one. -/
theorem Owns.clear (owned : heap.Owns left) (apart : left.Apart right) :
    (heap.withEntries (clearExtent heap.table.entries right)).Owns left where
  recorded := owned.recorded.transport fun _ covered =>
    clearExtent_of_not_covers _ (apart.not_covers covered)
  within := owned.within

/-- An address between the ends of an allocated object lies in its extent. -/
theorem WellPlaced.inExtent_of_lt (placed : heap.WellPlaced) (hands : heap.Hands size extent)
    (inside : (address - heap.addressOf extent.first).toNat < size.toNat) :
    heap.InExtent extent address := by
  have fits := placed.fits
  have within := hands.within
  have base := placed.toNat_addressOf hands.inside
  have count := hands.count
  have bound := address.isLt
  rw [BitVec.toNat_sub, base] at inside
  unfold blocksFor at count
  unfold InExtent heapBlockSizeBytes at *
  omega

/-- An address in the one page of an extent. -/
theorem WellPlaced.inExtent_of_page (placed : heap.WellPlaced) (owned : heap.Owns extent)
    (inside : (address - heap.addressOf extent.first).toNat < heapBlockSizeBytes * extent.count) :
    heap.InExtent extent address := by
  have fits := placed.fits
  have within := owned.within
  have base := placed.toNat_addressOf owned.address_inside
  have bound := address.isLt
  rw [BitVec.toNat_sub, base] at inside
  unfold InExtent heapBlockSizeBytes at *
  omega

end Heap

/-- The address at which an extent begins lies in it. -/
theorem inExtent_addressOf {heap : Heap} (placed : heap.WellPlaced) {extent : Extent} (owned : heap.Owns extent) :
    heap.InExtent extent (heap.addressOf extent.first) := by
  refine placed.inExtent_of_page owned ?_
  have positive := extent.nonempty
  rw [BitVec.sub_self, BitVec.toNat_ofNat]
  unfold heapBlockSizeBytes
  omega

/-- No block of a heap has an error number for its address. -/
theorem isErr_addressOf {heap : Heap} (placed : heap.WellPlaced) {block : Nat}
    (inside : block < heap.table.total.toNat) : isErr (heap.addressOf block) = false := by
  have aligned := placed.addressOf_aligned inside
  have bound := (heap.addressOf block).isLt
  have first : (intToWord (-MAX_ERRNO)).toNat = 4294963201 := by decide
  unfold heapBlockSizeBytes at aligned
  rw [isErr, first]
  exact decide_eq_false (by omega)

/-! ## kzalloc and kfree -/

/-- The kernel after a request was served. -/
def Kernel.served (kernel : Kernel) (size : Word) (extent : Extent) : Kernel :=
  (kernel.withHeap (kernel.heap.withEntries (markExtent kernel.heap.table.entries extent))).withStore
    (kernel.toStore.fillZero (kernel.heap.addressOf extent.first) size)

/-- The kernel after a request was refused. -/
def Kernel.refusal (kernel : Kernel) : Kernel := { kernel with refused := kernel.refused + 1 }

theorem kzalloc_cases {kernel : Kernel} (placed : kernel.heap.WellPlaced) (size : Word) :
    (exists extent, kernel.heap.Hands size extent ∧
      kzalloc kernel size = (kernel.heap.addressOf extent.first, Kernel.served kernel size extent)) ∨
    (kernel.heap.Refuses size ∧ kzalloc kernel size = (0#32, Kernel.refusal kernel)) := by
  unfold kzalloc kmalloc
  rcases malloc_spec placed size with
    ⟨extent, nonzero, count, fits, lowest, result⟩ | ⟨none, result⟩
  · left
    have hands : kernel.heap.Hands size extent := ⟨nonzero, count, fits, lowest⟩
    refine ⟨extent, hands, ?_⟩
    simp only [result, placed.addressOf_ne_null hands.inside, if_false]
    rfl
  · right
    refine ⟨none, ?_⟩
    simp only [result, if_true]
    rfl

/-- Every block of the pool is taken. -/
def Heap.Exhausted (heap : Heap) : Prop :=
  forall block, block < heap.table.total.toNat -> ¬ BlockFree heap.table.entries block

theorem Heap.Hands.not_exhausted {heap : Heap} {size : Word} {extent : Extent}
    (hands : heap.Hands size extent) : ¬ heap.Exhausted := fun exhausted =>
  exhausted extent.first hands.inside
    (hands.fits.2 extent.first (Nat.le_refl _) (Nat.lt_add_of_pos_right (blocksFor_pos hands.nonzero)))

/-- A request is served in one way only. -/
theorem Heap.Hands.unique {heap : Heap} {size : Word} {left right : Extent} (leftHands : heap.Hands size left)
    (rightHands : heap.Hands size right) : left = right := by
  have lower := Nat.not_lt.mp fun above => leftHands.lowest _ above rightHands.fits
  have upper := Nat.not_lt.mp fun above => rightHands.lowest _ above leftHands.fits
  have first := Nat.le_antisymm lower upper
  have count := leftHands.count.trans rightHands.count.symm
  cases left
  cases right
  subst first
  subst count
  rfl

/-- A request of one block is refused only by an exhausted heap. -/
theorem kzalloc_page {kernel : Kernel} (placed : kernel.heap.WellPlaced) {size : Word}
    (one : blocksFor size = 1) :
    (exists block, kernel.heap.Hands size (Extent.single block) ∧
      kzalloc kernel size =
        (kernel.heap.addressOf block, Kernel.served kernel size (Extent.single block))) ∨
    (kernel.heap.Exhausted ∧ kzalloc kernel size = (0#32, Kernel.refusal kernel)) := by
  rcases kzalloc_cases placed size with ⟨extent, hands, result⟩ | ⟨refuses, result⟩
  · have same : extent = Extent.single extent.first := Extent.eq_single (hands.count.trans one)
    left
    refine ⟨extent.first, same ▸ hands, ?_⟩
    rw [← same]
    exact result
  · right
    refine ⟨fun block inside free => ?_, result⟩
    have nonzero : size ≠ 0#32 := by
      rintro rfl
      exact absurd one (by decide)
    refine refuses nonzero block ⟨by rw [one]; exact inside, fun other above below => ?_⟩
    rw [one] at below
    have same : other = block := Nat.le_antisymm (Nat.le_of_lt_succ below) above
    exact same ▸ free

/-- Every block from this one on is free. -/
def Heap.FreeFrom (heap : Heap) (first : Nat) : Prop :=
  forall block, first ≤ block -> block < heap.table.total.toNat -> BlockFree heap.table.entries block

/-- First fit takes no block above the ones it needs. -/
theorem kzalloc_freeFrom {kernel : Kernel} (placed : kernel.heap.WellPlaced) (size : Word) {first : Nat}
    (nonzero : size ≠ 0#32) (free : kernel.heap.FreeFrom first)
    (room : first + blocksFor size ≤ kernel.heap.table.total.toNat) :
    (kzalloc kernel size).1 ≠ 0#32 ∧ (kzalloc kernel size).2.heap.FreeFrom (first + blocksFor size) := by
  have fits : kernel.heap.Fits size first :=
    ⟨room, fun block above below => free block above (by omega)⟩
  rcases kzalloc_cases placed size with ⟨extent, hands, result⟩ | ⟨refuses, _⟩
  · have lower : extent.first ≤ first := Nat.not_lt.mp fun above => hands.lowest first above fits
    rw [result]
    refine ⟨placed.addressOf_ne_null hands.inside, fun block above inside => ?_⟩
    refine blockFree_markExtent.mpr ⟨fun covered => ?_, free block (by omega) inside⟩
    have below := covered.2
    rw [hands.count] at below
    omega
  · exact absurd fits (refuses nonzero first)

theorem Heap.FreeFrom.free {heap : Heap} {first : Nat} (free : heap.FreeFrom first) (pointer : Word) :
    (Memory.free heap pointer).FreeFrom first := fun block above inside =>
  blockFree_free heap pointer (free block above inside)

theorem Heap.FreeFrom.mono {heap : Heap} {first later : Nat} (free : heap.FreeFrom first) (le : first ≤ later) :
    heap.FreeFrom later := fun block above inside => free block (Nat.le_trans le above) inside

/-! ## The frame relation -/

/-- What was owned before, as far as the guard selects it, is owned after and
holds the same objects. -/
structure Keeps (guard : Extent -> Prop) (before after : Kernel) : Prop where
  pool : before.heap.SamePool after.heap
  owns : forall extent, guard extent -> before.heap.Owns extent -> after.heap.Owns extent
  same : forall extent, guard extent -> before.heap.Owns extent -> forall address,
    before.heap.InExtent extent address -> before.toStore.SameAt after.toStore address

/-- No guarded extent contains the address. -/
def Fresh (guard : Extent -> Prop) (kernel : Kernel) (address : Word) : Prop :=
  forall extent, guard extent -> kernel.heap.Owns extent -> ¬ kernel.heap.InExtent extent address

/-- The bytes from a pointer on are fresh. -/
def FreshRange (guard : Extent -> Prop) (kernel : Kernel) (pointer : Word) (count : Nat) : Prop :=
  forall address : Word, (address - pointer).toNat < count -> Fresh guard kernel address

/-- The extent has no block in common with a guarded one. -/
def FreshExtent (guard : Extent -> Prop) (kernel : Kernel) (extent : Extent) : Prop :=
  forall old, guard old -> kernel.heap.Owns old -> old.Apart extent

namespace Keeps

variable {guard : Extent -> Prop} {first before after : Kernel}

theorem refl (guard : Extent -> Prop) (kernel : Kernel) : Keeps guard kernel kernel where
  pool := Heap.SamePool.refl _
  owns := fun _ _ owned => owned
  same := fun _ _ _ address _ => Store.SameAt.refl _ address

theorem trans (left : Keeps guard first before) (right : Keeps guard before after) :
    Keeps guard first after where
  pool := left.pool.trans right.pool
  owns := fun extent guarded owned => right.owns extent guarded (left.owns extent guarded owned)
  same := fun extent guarded owned address inside =>
    (left.same extent guarded owned address inside).trans
      (right.same extent guarded (left.owns extent guarded owned) address (left.pool.inExtent.mpr inside))

theorem fresh (keeps : Keeps guard first before) {address : Word} (fresh : Fresh guard before address) :
    Fresh guard first address := fun extent guarded owned inside =>
  fresh extent guarded (keeps.owns extent guarded owned) (keeps.pool.inExtent.mpr inside)

theorem freshRange (keeps : Keeps guard first before) {pointer : Word} {count : Nat}
    (fresh : FreshRange guard before pointer count) : FreshRange guard first pointer count :=
  fun address inside => keeps.fresh (fresh address inside)

/-- A change of memory that leaves every address alone which is not fresh. -/
theorem withStore (keeps : Keeps guard first before) {store : Store}
    (same : forall address, ¬ Fresh guard first address -> before.toStore.SameAt store address) :
    Keeps guard first (before.withStore store) where
  pool := keeps.pool
  owns := keeps.owns
  same := fun extent guarded owned address inside =>
    (keeps.same extent guarded owned address inside).trans
      (same address fun fresh => fresh extent guarded owned inside)

/-- A change of global variables only. -/
theorem globals (keeps : Keeps guard first before) (heap : after.heap = before.heap)
    (store : after.toStore = before.toStore) : Keeps guard first after where
  pool := heap ▸ keeps.pool
  owns := fun extent guarded owned => heap ▸ keeps.owns extent guarded owned
  same := fun extent guarded owned address inside => store ▸ keeps.same extent guarded owned address inside

end Keeps

/-- The page at address 0 lies below the pool. -/
theorem freshRange_null {guard : Extent -> Prop} {kernel : Kernel} (placed : kernel.heap.WellPlaced) :
    FreshRange guard kernel 0#32 heapBlockSizeBytes := by
  intro address low extent _ _ inside
  have aligned := placed.aligned
  have nonNull := placed.nonNull
  rw [BitVec.sub_zero] at low
  unfold Heap.InExtent heapBlockSizeBytes at *
  omega

theorem FreshRange.mono {guard : Extent -> Prop} {kernel : Kernel} {pointer : Word} {count less : Nat}
    (fresh : FreshRange guard kernel pointer count) (le : less ≤ count) :
    FreshRange guard kernel pointer less :=
  fun address inside => fresh address (Nat.lt_of_lt_of_le inside le)

theorem FreshRange.base {guard : Extent -> Prop} {kernel : Kernel} {pointer : Word} {count : Nat}
    (fresh : FreshRange guard kernel pointer count) (positive : 0 < count) : Fresh guard kernel pointer :=
  fresh pointer (by rwa [BitVec.sub_self, BitVec.toNat_ofNat])

/-- The pages of a fresh extent are fresh. -/
theorem FreshExtent.freshRange {guard : Extent -> Prop} {kernel : Kernel}
    (placed : kernel.heap.WellPlaced) {extent : Extent} (fresh : FreshExtent guard kernel extent)
    (within : extent.first + extent.count ≤ kernel.heap.table.total.toNat) :
    FreshRange guard kernel (kernel.heap.addressOf extent.first) (heapBlockSizeBytes * extent.count) := by
  intro address inside old guarded owned inOld
  have positive := extent.nonempty
  have fits := placed.fits
  have base := placed.toNat_addressOf (show extent.first < kernel.heap.table.total.toNat by omega)
  have inNew : kernel.heap.InExtent extent address := by
    have bound := address.isLt
    rw [BitVec.toNat_sub, base] at inside
    unfold Heap.InExtent heapBlockSizeBytes at *
    omega
  exact Heap.not_inExtent_of_apart (fresh old guarded owned) inOld inNew

theorem Heap.Hands.freshExtent {guard : Extent -> Prop} {kernel : Kernel} {size : Word} {extent : Extent}
    (hands : kernel.heap.Hands size extent) : FreshExtent guard kernel extent :=
  fun _ _ owned => hands.apart owned

/-- Allocation keeps everything, whether it succeeds or not. -/
theorem keeps_kzalloc (guard : Extent -> Prop) {kernel : Kernel} (placed : kernel.heap.WellPlaced)
    (size : Word) : Keeps guard kernel (kzalloc kernel size).2 := by
  rcases kzalloc_cases placed size with ⟨extent, hands, result⟩ | ⟨_, result⟩
  · rw [result]
    refine ⟨⟨rfl, rfl⟩, fun old _ owned => owned.mark (hands.apart owned), ?_⟩
    intro old _ owned address inside
    refine Store.fillZero_sameAt _ fun covered => ?_
    exact Heap.not_inExtent_of_apart (hands.apart owned) inside (placed.inExtent_of_lt hands covered)
  · rw [result]
    exact (Keeps.refl guard kernel).globals rfl rfl

/-- Whatever pointer `kzalloc` returns, the page at it is fresh. -/
theorem freshRange_kzalloc (guard : Extent -> Prop) {kernel : Kernel} (placed : kernel.heap.WellPlaced)
    (size : Word) : FreshRange guard kernel (kzalloc kernel size).1 heapBlockSizeBytes := by
  rcases kzalloc_cases placed size with ⟨extent, hands, result⟩ | ⟨_, result⟩
  · rw [result]
    refine (hands.freshExtent.freshRange placed hands.within).mono ?_
    have positive := extent.nonempty
    unfold heapBlockSizeBytes
    omega
  · rw [result]
    exact freshRange_null placed

theorem Keeps.allocated {guard : Extent -> Prop} {first before : Kernel} (keeps : Keeps guard first before)
    (placed : first.heap.WellPlaced) (size : Word) :
    Keeps guard first (kzalloc before size).2 ∧
      FreshRange guard first (kzalloc before size).1 heapBlockSizeBytes :=
  have placed' := keeps.pool.wellPlaced placed
  ⟨keeps.trans (keeps_kzalloc guard placed' size), keeps.freshRange (freshRange_kzalloc guard placed' size)⟩

/-! ## Around the streams -/

/-- The frame relation for all objects but the streams, which the file system
moves as it reads. -/
structure KeepsObjects (guard : Extent -> Prop) (before after : Kernel) : Prop where
  pool : before.heap.SamePool after.heap
  owns : forall extent, guard extent -> before.heap.Owns extent -> after.heap.Owns extent
  same : forall extent, guard extent -> before.heap.Owns extent -> forall address,
    before.heap.InExtent extent address -> before.toStore.SameObjects after.toStore address

theorem Keeps.objects {guard : Extent -> Prop} {before after : Kernel} (keeps : Keeps guard before after) :
    KeepsObjects guard before after :=
  ⟨keeps.pool, keeps.owns, fun extent guarded owned address inside =>
    (keeps.same extent guarded owned address inside).objects⟩

namespace KeepsObjects

variable {guard : Extent -> Prop} {first before after : Kernel}

theorem refl (guard : Extent -> Prop) (kernel : Kernel) : KeepsObjects guard kernel kernel :=
  (Keeps.refl guard kernel).objects

theorem trans (left : KeepsObjects guard first before) (right : KeepsObjects guard before after) :
    KeepsObjects guard first after where
  pool := left.pool.trans right.pool
  owns := fun extent guarded owned => right.owns extent guarded (left.owns extent guarded owned)
  same := fun extent guarded owned address inside =>
    (left.same extent guarded owned address inside).trans
      (right.same extent guarded (left.owns extent guarded owned) address (left.pool.inExtent.mpr inside))

theorem freshExtent (keeps : KeepsObjects guard first before) {extent : Extent}
    (fresh : FreshExtent guard before extent) : FreshExtent guard first extent :=
  fun old guarded owned => fresh old guarded (keeps.owns old guarded owned)

theorem fresh (keeps : KeepsObjects guard first before) {address : Word} (fresh : Fresh guard before address) :
    Fresh guard first address := fun extent guarded owned inside =>
  fresh extent guarded (keeps.owns extent guarded owned) (keeps.pool.inExtent.mpr inside)

/-- A change that leaves the heap and the objects which are not fresh alone. -/
theorem of_same (keeps : KeepsObjects guard first before) (heap : after.heap = before.heap)
    (same : forall address, ¬ Fresh guard first address -> before.toStore.SameObjects after.toStore address) :
    KeepsObjects guard first after where
  pool := heap ▸ keeps.pool
  owns := fun extent guarded owned => heap ▸ keeps.owns extent guarded owned
  same := fun extent guarded owned address inside =>
    (keeps.same extent guarded owned address inside).trans
      (same address fun fresh => fresh extent guarded owned inside)

/-- A change of memory that leaves the objects which are not fresh alone. -/
theorem withStore (keeps : KeepsObjects guard first before) {store : Store}
    (same : forall address, ¬ Fresh guard first address -> before.toStore.SameObjects store address) :
    KeepsObjects guard first (before.withStore store) := keeps.of_same rfl same

theorem kzalloc (keeps : KeepsObjects guard first before) (placed : first.heap.WellPlaced) (size : Word) :
    KeepsObjects guard first (Memory.kzalloc before size).2 :=
  keeps.trans (keeps_kzalloc guard (keeps.pool.wellPlaced placed) size).objects

/-- The release of a fresh allocation. -/
theorem released (keeps : KeepsObjects guard first before) (placed : first.heap.WellPlaced) {extent : Extent}
    (owned : before.heap.Owns extent) (low : heapBlockSizeBytes * extent.first < 2 ^ 31)
    (fresh : FreshExtent guard first extent) :
    KeepsObjects guard first (kfree before (before.heap.addressOf extent.first)) where
  pool := by
    rw [kfree, free_spec (keeps.pool.wellPlaced placed) extent owned.recorded owned.within low]
    exact ⟨keeps.pool.start, keeps.pool.total⟩
  owns := by
    rw [kfree, free_spec (keeps.pool.wellPlaced placed) extent owned.recorded owned.within low]
    exact fun old guarded oldOwned => (keeps.owns old guarded oldOwned).clear (fresh old guarded oldOwned)
  same := keeps.same

end KeepsObjects

/-! ## Acquired memory -/

/-- The pointer is the beginning of an allocation that is owned, and that has no
block in common with what was guarded at first. -/
structure Acquired (guard : Extent -> Prop) (first kernel : Kernel) (pointer : Word) (extent : Extent) : Prop where
  owned : kernel.heap.Owns extent
  address : pointer = kernel.heap.addressOf extent.first
  fresh : FreshExtent guard first extent

namespace Acquired

variable {guard : Extent -> Prop} {first kernel : Kernel} {pointer : Word} {extent : Extent}

theorem of_heap {kernel' : Kernel} (acquired : Acquired guard first kernel pointer extent)
    (same : kernel'.heap = kernel.heap) : Acquired guard first kernel' pointer extent :=
  ⟨same ▸ acquired.owned, same ▸ acquired.address, acquired.fresh⟩

theorem kzalloc (acquired : Acquired guard first kernel pointer extent) (placed : kernel.heap.WellPlaced)
    (size : Word) : Acquired guard first (Memory.kzalloc kernel size).2 pointer extent := by
  have keeps := keeps_kzalloc (fun _ => True) placed size
  refine ⟨keeps.owns extent trivial acquired.owned, ?_, acquired.fresh⟩
  rw [keeps.pool.addressOf]
  exact acquired.address

/-- The bytes of the allocation are fresh. -/
theorem freshRange (acquired : Acquired guard first kernel pointer extent) (placed : first.heap.WellPlaced)
    (pool : first.heap.SamePool kernel.heap) :
    FreshRange guard first pointer (heapBlockSizeBytes * extent.count) := by
  have within := acquired.owned.within
  rw [pool.total] at within
  rw [acquired.address, pool.addressOf]
  exact acquired.fresh.freshRange placed within

theorem fresh_pointer (acquired : Acquired guard first kernel pointer extent) (placed : first.heap.WellPlaced)
    (pool : first.heap.SamePool kernel.heap) : Fresh guard first pointer := by
  refine (acquired.freshRange placed pool).base (Nat.mul_pos ?_ extent.nonempty)
  decide

end Acquired

theorem fresh_null {guard : Extent -> Prop} {first : Kernel} (placed : first.heap.WellPlaced) :
    Fresh guard first 0#32 := (freshRange_null placed).base (by decide)

namespace KeepsObjects

variable {guard : Extent -> Prop} {first before : Kernel}

/-- A request that is served acquires memory of its size, apart from all that
is owned. -/
theorem acquired (keeps : KeepsObjects guard first before) (placed : first.heap.WellPlaced) {size : Word}
    (served : (Memory.kzalloc before size).1 ≠ 0#32) :
    exists extent, Acquired guard first (Memory.kzalloc before size).2 (Memory.kzalloc before size).1 extent ∧
      size.toNat ≤ heapBlockSizeBytes * extent.count ∧
        forall other, before.heap.Owns other -> other.Apart extent := by
  rcases kzalloc_cases (keeps.pool.wellPlaced placed) size with ⟨extent, hands, result⟩ | ⟨_, result⟩
  · refine ⟨extent, ?_, ?_, fun other owned => hands.apart owned⟩
    · rw [result]
      exact ⟨Heap.owns_marked hands.within, rfl, keeps.freshExtent hands.freshExtent⟩
    · rw [hands.count]
      unfold blocksFor heapBlockSizeBytes
      omega
  · rw [result] at served
    exact absurd rfl served

/-- The release of what was acquired. -/
theorem kfree (keeps : KeepsObjects guard first before) (placed : first.heap.WellPlaced)
    (low : forall block, block < first.heap.table.total.toNat -> heapBlockSizeBytes * block < 2 ^ 31)
    {pointer : Word} {extent : Extent} (acquired : Acquired guard first before pointer extent) :
    KeepsObjects guard first (Memory.kfree before pointer) := by
  rw [acquired.address]
  refine keeps.released placed acquired.owned (low _ ?_) acquired.fresh
  rw [← keeps.pool.total]
  exact acquired.owned.address_inside

end KeepsObjects

/-- The release of one allocation leaves the others. -/
theorem Acquired.kfree_other {guard : Extent -> Prop} {first kernel : Kernel} {pointer other : Word}
    {extent otherExtent : Extent} (acquired : Acquired guard first kernel pointer extent)
    (released : Acquired guard first kernel other otherExtent) (placed : kernel.heap.WellPlaced)
    (low : heapBlockSizeBytes * otherExtent.first < 2 ^ 31) (apart : extent.Apart otherExtent) :
    Acquired guard first (kfree kernel other) pointer extent := by
  have same : (kfree kernel other).heap =
      kernel.heap.withEntries (clearExtent kernel.heap.table.entries otherExtent) := by
    rw [released.address, kfree, free_spec placed otherExtent released.owned.recorded released.owned.within low]
    rfl
  refine ⟨?_, ?_, acquired.fresh⟩
  · rw [same]
    exact acquired.owned.clear apart
  · rw [same]
    exact acquired.address

/-! ## Objects that are held -/

/-- The pointer is `NULL` or the beginning of an allocation. -/
def Held (kernel : Kernel) (pointer : Word) : Prop :=
  pointer = 0#32 ∨ exists extent, kernel.heap.Owns extent ∧ pointer = kernel.heap.addressOf extent.first

theorem held_kzalloc {kernel : Kernel} (placed : kernel.heap.WellPlaced) (size : Word) :
    Held (kzalloc kernel size).2 (kzalloc kernel size).1 := by
  rcases kzalloc_cases placed size with ⟨extent, hands, result⟩ | ⟨_, result⟩
  · rw [result]
    exact Or.inr ⟨extent, Heap.owns_marked hands.within, rfl⟩
  · rw [result]
    exact Or.inl rfl

/-- No request touches an object that is held. -/
theorem Held.kzalloc {kernel : Kernel} {pointer : Word} (held : Held kernel pointer)
    (placed : kernel.heap.WellPlaced) (size : Word) :
    Held (kzalloc kernel size).2 pointer ∧ kernel.toStore.SameAt (kzalloc kernel size).2.toStore pointer := by
  have keeps := keeps_kzalloc (fun _ => True) placed size
  rcases held with rfl | ⟨extent, owned, rfl⟩
  · refine ⟨Or.inl rfl, ?_⟩
    rcases kzalloc_cases placed size with ⟨extent, hands, result⟩ | ⟨_, result⟩
    · rw [result]
      refine Store.fillZero_sameAt _ fun covered => ?_
      have inside := placed.inExtent_of_lt hands covered
      have aligned := placed.aligned
      have nonNull := placed.nonNull
      have null : (0#32 : Word).toNat = 0 := rfl
      unfold Heap.InExtent heapBlockSizeBytes at *
      omega
    · rw [result]
      exact Store.SameAt.refl _ _
  · refine ⟨Or.inr ⟨extent, keeps.owns extent trivial owned, (keeps.pool.addressOf _).symm⟩, ?_⟩
    refine keeps.same extent trivial owned _ (placed.inExtent_of_page owned ?_)
    have positive := extent.nonempty
    rw [BitVec.sub_self, BitVec.toNat_ofNat]
    unfold heapBlockSizeBytes
    omega

theorem kzalloc_wellPlaced {kernel : Kernel} (placed : kernel.heap.WellPlaced) (size : Word) :
    (kzalloc kernel size).2.heap.WellPlaced :=
  (keeps_kzalloc (fun _ => True) placed size).pool.wellPlaced placed

/-! ## The kernel heap -/

theorem Heap.IsKernelHeap.wellPlaced {heap : Heap} (kernelHeap : heap.IsKernelHeap) : heap.WellPlaced := by
  refine ⟨?_, ?_, ?_⟩
  · rw [kernelHeap.start]
    decide
  · rw [kernelHeap.start]
    decide
  · rw [kernelHeap.start, kernelHeap.total]
    decide

/-- No block of the kernel heap lies 2^31 bytes above its start. -/
theorem Heap.IsKernelHeap.low {heap : Heap} (kernelHeap : heap.IsKernelHeap) {block : Nat}
    (inside : block < heap.table.total.toNat) : heapBlockSizeBytes * block < 2 ^ 31 := by
  have bound : block < 25600 := by
    rw [kernelHeap.total] at inside
    exact inside
  unfold heapBlockSizeBytes
  omega

theorem Heap.IsKernelHeap.samePool {heap heap' : Heap} (kernelHeap : heap.IsKernelHeap)
    (pool : heap.SamePool heap') : heap'.IsKernelHeap :=
  ⟨pool.start.trans kernelHeap.start, pool.total.trans kernelHeap.total⟩

/-- The release of one allocation keeps the others. -/
theorem kfree_keepsApart {kernel : Kernel} (kernelHeap : kernel.heap.IsKernelHeap) {pointer : Word} {extent : Extent}
    (owned : kernel.heap.Owns extent) (address : pointer = kernel.heap.addressOf extent.first) :
    KeepsObjects (fun other => other.Apart extent) kernel (kfree kernel pointer) := by
  have acquired : Acquired (fun other => other.Apart extent) kernel kernel pointer extent :=
    ⟨owned, address, fun other apart _ => apart⟩
  exact (KeepsObjects.refl _ kernel).kfree kernelHeap.wellPlaced (fun _ => kernelHeap.low) acquired

theorem kheapInit_isKernelHeap (kernel : Kernel) (entries : Int -> Byte) :
    (kheapInit kernel entries).heap.IsKernelHeap := by
  rw [kheapInit_heap]
  exact ⟨rfl, rfl⟩

theorem clearEntries_free (entries : Int -> Byte) {total block : Nat} (inside : block < total) :
    BlockFree (clearEntries entries total) block := by
  rw [BlockFree, clearEntries, if_pos (by omega)]
  rfl

theorem kheapInit_freeFrom (kernel : Kernel) (entries : Int -> Byte) :
    (kheapInit kernel entries).heap.FreeFrom 0 := by
  rw [kheapInit_heap]
  exact fun _ _ inside => clearEntries_free entries inside

end Memory
end LarvaOS
