import LarvaOS.Memory.Ownership

namespace LarvaOS
namespace Memory

open Library

/-!
# Several allocations at once

An object that is made of several allocations is described by the list of the
pointers that its release follows.  When each pointer begins an allocation of its
own, the releases do not get in each other's way: whatever is apart from all of
them is kept.
-/

/-- The releases of a list of pointers, in this order. -/
def releaseAll (kernel : Kernel) (pointers : List Word) : Kernel := pointers.foldl kfree kernel

theorem releaseAll_append (kernel : Kernel) (left right : List Word) :
    releaseAll kernel (left ++ right) = releaseAll (releaseAll kernel left) right := List.foldl_append

theorem releaseAll_toStore (kernel : Kernel) (pointers : List Word) :
    (releaseAll kernel pointers).toStore = kernel.toStore := by
  induction pointers generalizing kernel with
  | nil => rfl
  | cons pointer rest inductionHypothesis => exact inductionHypothesis (kfree kernel pointer)

theorem releaseAll_toGlobals (kernel : Kernel) (pointers : List Word) :
    (releaseAll kernel pointers).toGlobals = kernel.toGlobals := by
  induction pointers generalizing kernel with
  | nil => rfl
  | cons pointer rest inductionHypothesis => exact inductionHypothesis (kfree kernel pointer)

theorem KeepsObjects.mono {guard weaker : Extent -> Prop} {before after : Kernel}
    (keeps : KeepsObjects guard before after) (implies : forall extent, weaker extent -> guard extent) :
    KeepsObjects weaker before after where
  pool := keeps.pool
  owns := fun extent guarded => keeps.owns extent (implies extent guarded)
  same := fun extent guarded => keeps.same extent (implies extent guarded)

/-- The pointers begin allocations that have no block in common. -/
structure Allocated (kernel : Kernel) (pointers : List Word) (extents : List Extent) : Prop where
  addresses : pointers = extents.map fun extent => kernel.heap.addressOf extent.first
  owned : forall extent, extent ∈ extents -> kernel.heap.Owns extent
  apart : extents.Pairwise Extent.Apart

namespace Allocated

variable {kernel after : Kernel} {pointers : List Word} {extents : List Extent}

/-- Allocations stay as long as their extents are owned in the same pool. -/
theorem keep (allocated : Allocated kernel pointers extents) (pool : kernel.heap.SamePool after.heap)
    (owned : forall extent, extent ∈ extents -> after.heap.Owns extent) : Allocated after pointers extents where
  addresses := by
    rw [allocated.addresses]
    exact List.map_congr_left fun extent _ => (pool.addressOf extent.first).symm
  owned := owned
  apart := allocated.apart

theorem of_heap (allocated : Allocated kernel pointers extents) (same : after.heap = kernel.heap) :
    Allocated after pointers extents := by
  refine allocated.keep ⟨?_, ?_⟩ ?_
  · rw [same]
  · rw [same]
  · rw [same]
    exact allocated.owned

theorem append {pointers' : List Word} {extents' : List Extent} (left : Allocated kernel pointers extents)
    (right : Allocated kernel pointers' extents')
    (apart : forall extent, extent ∈ extents -> forall other, other ∈ extents' -> extent.Apart other) :
    Allocated kernel (pointers ++ pointers') (extents ++ extents') where
  addresses := by rw [List.map_append, ← left.addresses, ← right.addresses]
  owned := by
    intro extent member
    rcases List.mem_append.mp member with inLeft | inRight
    · exact left.owned extent inLeft
    · exact right.owned extent inRight
  apart := List.pairwise_append.mpr ⟨left.apart, right.apart, apart⟩

/-- Every pointer has its extent. -/
theorem exists_extent (allocated : Allocated kernel pointers extents) {pointer : Word} (member : pointer ∈ pointers) :
    exists extent, extent ∈ extents ∧ kernel.heap.Owns extent ∧ pointer = kernel.heap.addressOf extent.first := by
  rw [allocated.addresses] at member
  rcases List.mem_map.mp member with ⟨extent, memberExtent, rfl⟩
  exact ⟨extent, memberExtent, allocated.owned extent memberExtent, rfl⟩

/-- The objects at the pointers are kept. -/
theorem same {guard : Extent -> Prop} (allocated : Allocated kernel pointers extents)
    (placed : kernel.heap.WellPlaced) (keeps : KeepsObjects guard kernel after)
    (guarded : forall extent, extent ∈ extents -> guard extent) {pointer : Word} (member : pointer ∈ pointers) :
    kernel.toStore.SameObjects after.toStore pointer := by
  rcases allocated.exists_extent member with ⟨extent, memberExtent, owned, rfl⟩
  exact keeps.same extent (guarded extent memberExtent) owned _ (inExtent_addressOf placed owned)

/-- The first pointer of several. -/
theorem head {pointer : Word} {rest : List Word} (allocated : Allocated kernel (pointer :: rest) extents) :
    exists extent others, extents = extent :: others ∧ kernel.heap.Owns extent ∧
      pointer = kernel.heap.addressOf extent.first ∧ Allocated kernel rest others ∧
        forall other, other ∈ others -> extent.Apart other := by
  cases extents with
  | nil => exact absurd allocated.addresses (List.cons_ne_nil pointer rest)
  | cons extent others =>
      rcases List.cons.inj allocated.addresses with ⟨address, addresses⟩
      rcases List.pairwise_cons.mp allocated.apart with ⟨apart, othersApart⟩
      exact ⟨extent, others, rfl, allocated.owned extent List.mem_cons_self, address,
        ⟨addresses, fun other member => allocated.owned other (List.mem_cons_of_mem extent member), othersApart⟩, apart⟩

/-- The pointers have no other extents. -/
theorem unique {extents' : List Extent} (placed : kernel.heap.WellPlaced) (left : Allocated kernel pointers extents)
    (right : Allocated kernel pointers extents') : extents = extents' := by
  induction pointers generalizing extents extents' with
  | nil => rw [List.map_eq_nil_iff.mp left.addresses.symm, List.map_eq_nil_iff.mp right.addresses.symm]
  | cons pointer rest inductionHypothesis =>
      rcases left.head with ⟨extent, others, rfl, owned, address, restLeft, _⟩
      rcases right.head with ⟨extent', others', rfl, owned', address', restRight, _⟩
      have first := placed.addressOf_injective owned.address_inside owned'.address_inside (address.symm.trans address')
      rw [owned.eq_of_first owned' first, inductionHypothesis restLeft restRight]

/-- The releases keep what is apart from all the allocations. -/
theorem releaseAll_keeps (kernelHeap : kernel.heap.IsKernelHeap) (allocated : Allocated kernel pointers extents) :
    KeepsObjects (fun extent => forall released, released ∈ extents -> extent.Apart released) kernel
      (releaseAll kernel pointers) := by
  induction pointers generalizing kernel extents with
  | nil => exact KeepsObjects.refl _ kernel
  | cons pointer rest inductionHypothesis =>
      rcases allocated.head with ⟨extent, others, rfl, owned, address, restAllocated, apart⟩
      have released := kfree_keepsApart kernelHeap owned address
      have restKept := restAllocated.keep released.pool fun other member =>
        released.owns other (apart other member).symm (restAllocated.owned other member)
      have later := inductionHypothesis (kernelHeap.samePool released.pool) restKept
      have first : KeepsObjects (fun old => forall gone, gone ∈ extent :: others -> old.Apart gone) kernel
          (kfree kernel pointer) := released.mono fun old guarded => guarded extent List.mem_cons_self
      exact first.trans (later.mono fun old guarded gone member => guarded gone (List.mem_cons_of_mem extent member))

end Allocated

/-- The pointer is the beginning of an allocation. -/
def Live (kernel : Kernel) (pointer : Word) : Prop :=
  exists extent, kernel.heap.Owns extent ∧ pointer = kernel.heap.addressOf extent.first

/-- Each of the releases is one of an allocation. -/
def ReleasesLive (kernel : Kernel) : List Word -> Prop
  | [] => True
  | pointer :: rest => Live kernel pointer ∧ ReleasesLive (kfree kernel pointer) rest

/-- Allocations that are apart can be released one after the other. -/
theorem Allocated.releasesLive {kernel : Kernel} {pointers : List Word} {extents : List Extent}
    (kernelHeap : kernel.heap.IsKernelHeap) (allocated : Allocated kernel pointers extents) : ReleasesLive kernel pointers := by
  induction pointers generalizing kernel extents with
  | nil => trivial
  | cons pointer rest inductionHypothesis =>
      rcases allocated.head with ⟨extent, others, rfl, owned, address, restAllocated, apart⟩
      have released := kfree_keepsApart kernelHeap owned address
      have restKept := restAllocated.keep released.pool fun other member =>
        released.owns other (apart other member).symm (restAllocated.owned other member)
      exact ⟨⟨extent, owned, address⟩, inductionHypothesis (kernelHeap.samePool released.pool) restKept⟩

/-! ## Allocations that are new -/

/-- The pointers begin allocations that have no block in common with each other
or with what was owned at first. -/
structure Gained (first kernel : Kernel) (pointers : List Word) (extents : List Extent) : Prop where
  allocated : Allocated kernel pointers extents
  fresh : forall extent, extent ∈ extents -> FreshExtent (fun _ => True) first extent

namespace Gained

variable {first kernel after : Kernel} {pointers pointers' : List Word} {extents extents' : List Extent}

theorem of_heap (gained : Gained first kernel pointers extents) (same : after.heap = kernel.heap) :
    Gained first after pointers extents := ⟨gained.allocated.of_heap same, gained.fresh⟩

/-- What was kept from an earlier kernel on is not gained since. -/
theorem since (gained : Gained kernel after pointers extents)
    (keeps : KeepsObjects (fun _ => True) first kernel) : Gained first after pointers extents :=
  ⟨gained.allocated, fun extent member => keeps.freshExtent (gained.fresh extent member)⟩

theorem keep (gained : Gained first kernel pointers extents) (keeps : KeepsObjects (fun _ => True) kernel after) :
    Gained first after pointers extents :=
  ⟨gained.allocated.keep keeps.pool fun extent member => keeps.owns extent trivial (gained.allocated.owned extent member),
    gained.fresh⟩

section Later

variable (gained : Gained first kernel pointers extents) (start : KeepsObjects (fun _ => True) first kernel)
  (later : KeepsObjects (fun _ => True) kernel after) (gained' : Gained kernel after pointers' extents')
include gained start later gained'

/-- Later allocations in front of the earlier ones. -/
theorem prepend : Gained first after (pointers' ++ pointers) (extents' ++ extents) where
  allocated := by
    refine gained'.allocated.append (gained.keep later).allocated fun new memberNew old memberOld => ?_
    exact (gained'.fresh new memberNew old trivial (gained.allocated.owned old memberOld)).symm
  fresh := by
    intro extent member
    rcases List.mem_append.mp member with new | old
    · exact (gained'.since start).fresh extent new
    · exact gained.fresh extent old

/-- Later allocations behind the earlier ones. -/
theorem append : Gained first after (pointers ++ pointers') (extents ++ extents') where
  allocated := by
    refine (gained.keep later).allocated.append gained'.allocated fun old memberOld new memberNew => ?_
    exact gained'.fresh new memberNew old trivial (gained.allocated.owned old memberOld)
  fresh := by
    intro extent member
    rcases List.mem_append.mp member with old | new
    · exact gained.fresh extent old
    · exact (gained'.since start).fresh extent new

end Later

/-- No allocation. -/
theorem nothing (first kernel : Kernel) : Gained first kernel [] [] :=
  ⟨⟨rfl, fun _ member => absurd member List.not_mem_nil, List.Pairwise.nil⟩,
    fun _ member => absurd member List.not_mem_nil⟩

/-- One allocation. -/
theorem of_acquired {pointer : Word} {extent : Extent} (acquired : Acquired (fun _ => True) first kernel pointer extent) :
    Gained first kernel [pointer] [extent] := by
  refine ⟨⟨congrArg (fun pointer => [pointer]) acquired.address, ?_, List.pairwise_singleton _ _⟩, ?_⟩
  · intro other member
    obtain rfl := List.mem_singleton.mp member
    exact acquired.owned
  · intro other member
    obtain rfl := List.mem_singleton.mp member
    exact acquired.fresh

/-- Two allocations. -/
theorem of_two {pointer pointer' : Word} {extent extent' : Extent}
    (acquired : Acquired (fun _ => True) first kernel pointer extent)
    (acquired' : Acquired (fun _ => True) first kernel pointer' extent') (apart : extent.Apart extent') :
    Gained first kernel [pointer, pointer'] [extent, extent'] := by
  have left := of_acquired acquired
  have right := of_acquired acquired'
  refine ⟨left.allocated.append right.allocated ?_, ?_⟩
  · intro one memberOne other memberOther
    obtain rfl := List.mem_singleton.mp memberOne
    obtain rfl := List.mem_singleton.mp memberOther
    exact apart
  · intro one member
    rcases List.mem_cons.mp member with rfl | last
    · exact acquired.fresh
    · exact right.fresh one last

end Gained

/-! ## The entry table -/

/-- The entry table is the same. -/
def SameEntries (before after : Kernel) : Prop :=
  forall block : Nat, block < before.heap.table.total.toNat ->
    after.heap.table.entries block = before.heap.table.entries block

/-- What is owned in one of two equal tables is owned in the other. -/
theorem SameEntries.owns {before after : Kernel} (same : SameEntries before after)
    (pool : before.heap.SamePool after.heap) {extent : Extent} (owned : after.heap.Owns extent) :
    before.heap.Owns extent := by
  have within := owned.within
  rw [pool.total] at within
  refine ⟨owned.recorded.transport fun block covered => (same block ?_).symm, within⟩
  have below := covered.2
  omega

theorem SameEntries.symm {before after : Kernel} (same : SameEntries before after)
    (pool : before.heap.SamePool after.heap) : SameEntries after before := by
  intro block inside
  rw [pool.total] at inside
  exact (same block inside).symm

/-- New memory that stays owned keeps two tables apart. -/
theorem not_sameEntries {before after : Kernel} (pool : before.heap.SamePool after.heap) {extent : Extent}
    (fresh : FreshExtent (fun _ => True) before extent) (owned : after.heap.Owns extent) : ¬ SameEntries before after := by
  intro same
  have apart := fresh extent trivial (same.owns pool owned)
  have positive := extent.nonempty
  unfold Extent.Apart at apart
  omega

end Memory
end LarvaOS
