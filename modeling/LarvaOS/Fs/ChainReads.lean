import LarvaOS.Fs.Delivery

namespace LarvaOS
namespace Fs

open Library Disk

/-!
# Chains that are read whole

A read from the beginning of a cluster goes through if every cluster that it begins is found
in the chain.  It then delivers the clusters one behind the other, wherever the positions of
the clusters are.
-/

/-- The lookup of the cluster with this number succeeds. -/
def ChainLeadsTo (kernel : Kernel) (cluster number : Nat) : Prop :=
  (forall i, i < number -> chainStops (fatChain kernel cluster (i + 1)) = false) ∧ 0 ≤ fatChain kernel cluster number

/-- Every cluster of the first bytes of the chain is found. -/
def ChainServes (kernel : Kernel) (cluster number : Nat) (total : Int) : Prop :=
  forall ahead : Nat, sizeOfClusterBytes (privateOf kernel) * ahead < total -> ChainLeadsTo kernel cluster (number + ahead)

theorem ChainServes.congr {kernel after : Kernel} (same : SameVolume kernel after) {cluster number : Nat} {total : Int} :
    ChainServes after cluster number total ↔ ChainServes kernel cluster number total := by
  unfold ChainServes ChainLeadsTo
  simp only [fatChain_sameVolume same, same.fatPrivate]

/-- The byte at this place of the clusters that the table strings together.  A position is an
`int`. -/
def chainByte (kernel : Kernel) (cluster place : Nat) : Byte :=
  let size := (sizeOfClusterBytes (privateOf kernel)).toNat
  (driveOf kernel).byteAt
    (wrapInt (clusterPosition (privateOf kernel) (fatChain kernel cluster (place / size)) 0 + (place % size : Nat)))

theorem chainByte_sameVolume {kernel after : Kernel} (same : SameVolume kernel after) (cluster place : Nat) :
    chainByte after cluster place = chainByte kernel cluster place := by
  unfold chainByte
  dsimp only
  rw [same.fatPrivate, same.drive, fatChain_sameVolume same]

/-- Inside a cluster the bytes follow each other. -/
theorem chainByte_cluster {kernel : Kernel} {cluster number place : Nat}
    (inside : place < (sizeOfClusterBytes (privateOf kernel)).toNat) :
    chainByte kernel cluster ((sizeOfClusterBytes (privateOf kernel)).toNat * number + place) =
      (driveOf kernel).byteAt (wrapInt (clusterPosition (privateOf kernel) (fatChain kernel cluster number) 0 + place)) := by
  unfold chainByte
  dsimp only
  rw [Nat.mul_add_div (Nat.zero_lt_of_lt inside), Nat.mul_add_mod, Nat.div_eq_of_lt inside, Nat.mod_eq_of_lt inside,
    Nat.add_zero]

/-! ## One cluster -/

/-- Clusters begin with sectors. -/
theorem clusterPosition_aligned (fatPrivate : FatPrivateData) (cluster : Int) :
    clusterPosition fatPrivate cluster 0 % 512 = 0 ∧ -2 ^ 31 ≤ clusterPosition fatPrivate cluster 0 ∧
      clusterPosition fatPrivate cluster 0 < 2 ^ 31 := by
  have position : clusterPosition fatPrivate cluster 0 =
      wrapInt (fat16ClusterToSector fatPrivate cluster * DISK_SECTOR_SIZE) := by
    unfold clusterPosition
    dsimp only
    rw [wrapInt_add_wrapInt, Int.add_zero]
  have fits := (wrapInt_eq_iff (clusterPosition fatPrivate cluster 0)).mp (by
    rw [position]
    have twice := wrapInt_add_wrapInt (fat16ClusterToSector fatPrivate cluster * DISK_SECTOR_SIZE) 0
    rwa [Int.add_zero, Int.add_zero] at twice)
  have congruent := wrapInt_emod (fat16ClusterToSector fatPrivate cluster * DISK_SECTOR_SIZE)
  rw [← position] at congruent
  unfold DISK_SECTOR_SIZE at congruent
  exact ⟨by omega, fits⟩

/-- A chunk from the beginning of a sector is stored in the buffer. -/
theorem readChunk_aligned (kernel : Kernel) (stream : Word) {start length : Int} (aligned : start % 512 = 0)
    (lowest : -2 ^ 31 ≤ start) (highest : start < 2 ^ 31) (short : length ≤ 2 ^ 32) (out : Word) :
    Filled kernel (readChunk kernel stream start length out).kernel out length.toNat fun place =>
      (driveOf kernel).byteAt (wrapInt (start + place)) := by
  have items : (diskStreamRead (diskStreamSeek kernel stream start) stream length).1.bytes =
      slice (fun place => (driveOf kernel).byteAt (wrapInt place)) start length.toNat := by
    rw [diskStreamRead_sought]
    exact streamTransfer_aligned_bytes _ aligned lowest highest
  unfold readChunk
  simp only [diskStreamRead_result, Int.lt_irrefl, if_false, items]
  refine ⟨((Transferred.seek kernel stream start).trans (Transferred.read _ stream length)).trans
    (Transferred.stored _ out _), ?_⟩
  exact storeBytes_fills (diskStreamRead (diskStreamSeek kernel stream start) stream length).2 out
    (slice_length _ _ _) (by omega) fun place below => slice_getElem? _ _ below

section Clusters

variable {kernel : Kernel} (positive : 0 < sizeOfClusterBytes (privateOf kernel)) (cluster number : Nat)
include positive

/-- The number of the cluster that begins at the offset. -/
theorem clusterOffset_ediv :
    (sizeOfClusterBytes (privateOf kernel) * number / sizeOfClusterBytes (privateOf kernel)).toNat = number := by
  rw [Int.mul_ediv_cancel_left _ (Int.ne_of_gt positive), Int.toNat_natCast]

theorem clusterOffset_nonneg : 0 ≤ sizeOfClusterBytes (privateOf kernel) * number :=
  Int.mul_nonneg (Int.le_of_lt positive) (Int.natCast_nonneg number)

/-- The lookup at the beginning of a cluster. -/
theorem clusterLookup :
    exists found, fat16GetClusterForOffset kernel cluster (sizeOfClusterBytes (privateOf kernel) * number) = some found ∧
      (0 ≤ found.1 ↔ ChainLeadsTo kernel cluster number) := by
  have found := clusterForOffset_eq fat16GetFatEntry (Int.ne_of_gt positive) (cluster : Int)
    (clusterOffset_nonneg positive number)
  rw [clusterOffset_ediv positive] at found
  have value := followClusters_value fat16GetFatEntry kernel cluster number
  refine ⟨_, found, ?_⟩
  by_cases passes : forall i, i < number -> chainStops (fatChain kernel cluster (i + 1)) = false
  · rw [value.2 passes]
    exact ⟨fun arrived => ⟨passes, arrived⟩, fun leads => leads.2⟩
  · have stopped : exists i, i < number ∧ chainStops (fatChain kernel cluster (i + 1)) = true := by
      by_contra none
      exact passes fun i below => Bool.eq_false_of_not_eq_true fun stops => none ⟨i, below, stops⟩
    rw [value.1 stopped]
    exact ⟨fun impossible => absurd impossible (by decide), fun leads => absurd leads.1 passes⟩

/-- The first chunk of a read from the beginning of a cluster that is found. -/
theorem readClusters_firstCluster {total : Int} (short : total < 2 ^ 31) (leads : ChainLeadsTo kernel cluster number)
    (stream out : Word) :
    let length := chunkLength (sizeOfClusterBytes (privateOf kernel)) total
    exists chunk : Reading, chunk.res = 0 ∧ SameVolume kernel chunk.kernel ∧
      (Filled kernel chunk.kernel out length.toNat fun place =>
        chainByte kernel cluster ((sizeOfClusterBytes (privateOf kernel)).toNat * number + place)) ∧
      forall more, readClusters (more + 1) kernel stream cluster (sizeOfClusterBytes (privateOf kernel) * number) total out =
        if total - length > 0 then
          (readClusters more chunk.kernel stream cluster
            (wrapInt (sizeOfClusterBytes (privateOf kernel) * number + length)) (total - length)
              (out + intToWord length)).map chunk.andThen
        else some chunk := by
  intro length
  have quotient := clusterOffset_ediv positive number
  have served := readClusters_served (Int.ne_of_gt positive) (clusterOffset_nonneg positive number)
    (by rw [quotient]; exact leads.1) (by rw [quotient]; exact leads.2) stream total out
  rcases served with ⟨chunk, explicit, _, volume, _, step⟩
  rw [quotient, Int.mul_emod_right] at explicit
  refine ⟨chunk, by rw [explicit, readChunk_res], volume, ?_, step⟩
  have looked := followClusters_transferred kernel number cluster
  have sector := clusterPosition_aligned (privateOf kernel) (fatChain kernel cluster number)
  have bounds := chunkLength_le (sizeOfClusterBytes (privateOf kernel)) total
  have filled := readChunk_aligned (followClusters fat16GetFatEntry number kernel cluster).2 stream sector.1 sector.2.1
    sector.2.2 (show length ≤ 2 ^ 32 by omega) out
  rw [driveOf_congr looked.1.toGlobals] at filled
  rw [explicit]
  refine ⟨looked.1.trans filled.transferred, ?_⟩
  have bytes := filled.bytes
  rw [looked.2] at bytes
  refine bytes.congr fun place below => ?_
  exact (chainByte_cluster (by omega)).symm

end Clusters

/-! ## The whole read -/

theorem ChainServes.first {kernel : Kernel} {cluster number : Nat} {total : Int} (serves : ChainServes kernel cluster number total)
    (asked : 0 < total) : ChainLeadsTo kernel cluster number :=
  serves 0 (by rw [Int.natCast_zero, Int.mul_zero]; exact asked)

/-- The chain of a read, behind its first cluster. -/
theorem chainServes_succ {kernel : Kernel} {cluster number : Nat} {total : Int} (asked : 0 < total) :
    ChainServes kernel cluster number total ↔ ChainLeadsTo kernel cluster number ∧
      ChainServes kernel cluster (number + 1) (total - sizeOfClusterBytes (privateOf kernel)) := by
  constructor
  · refine fun serves => ⟨serves.first asked, fun ahead below => ?_⟩
    rw [Nat.add_assoc]
    refine serves (1 + ahead) ?_
    rw [Int.natCast_add, Int.mul_add]
    omega
  · rintro ⟨first, rest⟩ ahead below
    cases ahead with
    | zero => exact first
    | succ ahead =>
        rw [Nat.add_comm ahead 1, ← Nat.add_assoc]
        refine rest ahead ?_
        rw [Int.natCast_add, Int.mul_add] at below
        omega

/-- The offset of the next cluster. -/
theorem nextCluster {size total : Int} {number : Nat} (lower : 0 ≤ size * number) (positive : 0 < size)
    (bound : size * number + total < 2 ^ 31) (longer : size < total) :
    wrapInt (size * number + size) = size * ((number + 1 : Nat) : Int) := by
  have next : size * number + size = size * ((number + 1 : Nat) : Int) := by
    rw [Int.natCast_add, Int.mul_add]
    omega
  rw [wrapInt_of_small (by omega) (by omega), next]

/-- A read that is refused a cluster fails. -/
theorem readClusters_refused {kernel : Kernel} {cluster offset : Int} {found : Int × Kernel}
    (lookup : fat16GetClusterForOffset kernel cluster offset = some found) (refused : found.1 < 0) (more : Nat)
    (stream : Word) (total : Int) (out : Word) :
    readClusters more kernel stream cluster offset total out = some ⟨found.1, [], found.2⟩ := by
  unfold readClusters
  rw [lookup]
  exact if_pos refused

/-- A read from the beginning of a cluster delivers the clusters that are found. -/
theorem readClusters_whole (more : Nat) {kernel : Kernel} (positive : 0 < sizeOfClusterBytes (privateOf kernel))
    (cluster number : Nat) {total : Int} (asked : 0 < total) (enough : total ≤ more)
    (bound : sizeOfClusterBytes (privateOf kernel) * number + total < 2 ^ 31)
    (serves : ChainServes kernel cluster number total) (stream out : Word) :
    exists reading, readClusters more kernel stream cluster (sizeOfClusterBytes (privateOf kernel) * number) total out =
      some reading ∧ reading.res = 0 ∧ Filled kernel reading.kernel out total.toNat fun place =>
        chainByte kernel cluster ((sizeOfClusterBytes (privateOf kernel)).toNat * number + place) := by
  induction more generalizing kernel number total out with
  | zero => omega
  | succ more inductionHypothesis =>
      have lower := clusterOffset_nonneg positive number
      have short : total < 2 ^ 31 := by omega
      rcases readClusters_firstCluster positive cluster number short (serves.first asked) stream out with
        ⟨chunk, res, volume, filled, step⟩
      rw [step more]
      by_cases longer : sizeOfClusterBytes (privateOf kernel) < total
      · have length : chunkLength (sizeOfClusterBytes (privateOf kernel)) total = sizeOfClusterBytes (privateOf kernel) :=
          if_pos longer
        have next := nextCluster lower positive bound longer
        have moved : sizeOfClusterBytes (privateOf kernel) * ((number + 1 : Nat) : Int) =
            sizeOfClusterBytes (privateOf kernel) * number + sizeOfClusterBytes (privateOf kernel) := by
          rw [Int.natCast_add, Int.mul_add]
          omega
        have size : sizeOfClusterBytes (privateOf chunk.kernel) = sizeOfClusterBytes (privateOf kernel) := by
          rw [volume.fatPrivate]
        have rest := @inductionHypothesis chunk.kernel (by rw [size]; exact positive) (number + 1)
          (total - sizeOfClusterBytes (privateOf kernel)) (by omega) (by omega) (by rw [size, moved]; omega)
          ((ChainServes.congr volume).mpr ((chainServes_succ asked).mp serves).2)
          (out + intToWord (sizeOfClusterBytes (privateOf kernel)))
        rw [size] at rest
        rcases rest with ⟨later, explicit, laterRes, laterFilled⟩
        rw [length] at filled ⊢
        rw [if_pos (by omega), next, explicit]
        refine ⟨chunk.andThen later, rfl, laterRes, ?_⟩
        rw [intToWord_of_nonneg (Int.le_of_lt positive)] at laterFilled
        have both := filled.append laterFilled (by omega)
        have count : (sizeOfClusterBytes (privateOf kernel)).toNat +
            (total - sizeOfClusterBytes (privateOf kernel)).toNat = total.toNat := by omega
        rw [count] at both
        refine ⟨both.transferred, both.bytes.congr fun place _ => ?_⟩
        by_cases below : place < (sizeOfClusterBytes (privateOf kernel)).toNat
        · rw [if_pos below]
        · rw [if_neg below, chainByte_sameVolume volume, Nat.mul_add, Nat.mul_one, Nat.add_assoc,
            Nat.add_sub_cancel' (Nat.le_of_not_lt below)]
      · rw [chunkLength, if_neg longer] at filled ⊢
        rw [if_neg (by omega)]
        exact ⟨chunk, rfl, res, filled⟩

/-- Only a chain whose clusters are found can be read. -/
theorem chainServes_of_read (more : Nat) {kernel : Kernel} (positive : 0 < sizeOfClusterBytes (privateOf kernel))
    (cluster number : Nat) {total : Int} (asked : 0 < total) (enough : total ≤ more)
    (bound : sizeOfClusterBytes (privateOf kernel) * number + total < 2 ^ 31) {stream out : Word} {reading : Reading}
    (read : readClusters more kernel stream cluster (sizeOfClusterBytes (privateOf kernel) * number) total out = some reading)
    (succeeds : 0 ≤ reading.res) : ChainServes kernel cluster number total := by
  induction more generalizing kernel number total out reading with
  | zero => omega
  | succ more inductionHypothesis =>
      rcases clusterLookup positive cluster number with ⟨found, lookup, leads⟩
      have arrives : ChainLeadsTo kernel cluster number := by
        refine leads.mp (Int.not_lt.mp fun refused => ?_)
        rw [readClusters_refused lookup refused] at read
        obtain rfl := Option.some.inj read
        exact absurd succeeds (Int.not_le.mpr refused)
      rw [chainServes_succ asked]
      refine ⟨arrives, ?_⟩
      have lower := clusterOffset_nonneg positive number
      have short : total < 2 ^ 31 := by omega
      rcases readClusters_firstCluster positive cluster number short arrives stream out with ⟨chunk, _, volume, _, step⟩
      rw [step more] at read
      by_cases longer : sizeOfClusterBytes (privateOf kernel) < total
      · have length : chunkLength (sizeOfClusterBytes (privateOf kernel)) total = sizeOfClusterBytes (privateOf kernel) :=
          if_pos longer
        have moved : sizeOfClusterBytes (privateOf kernel) * ((number + 1 : Nat) : Int) =
            sizeOfClusterBytes (privateOf kernel) * number + sizeOfClusterBytes (privateOf kernel) := by
          rw [Int.natCast_add, Int.mul_add]
          omega
        rw [length, if_pos (by omega), nextCluster lower positive bound longer] at read
        rcases Option.map_eq_some_iff.mp read with ⟨later, explicit, rfl⟩
        have size : sizeOfClusterBytes (privateOf chunk.kernel) = sizeOfClusterBytes (privateOf kernel) := by
          rw [volume.fatPrivate]
        have rest := @inductionHypothesis chunk.kernel (by rw [size]; exact positive) (number + 1)
          (total - sizeOfClusterBytes (privateOf kernel)) (by omega) (by omega) (by rw [size, moved]; omega)
          (out + intToWord (sizeOfClusterBytes (privateOf kernel))) later
        rw [size, ChainServes.congr volume] at rest
        exact rest explicit succeeds
      · intro ahead below
        have lower := clusterOffset_nonneg positive ahead
        omega

/-- A read from the beginning of a cluster succeeds exactly if the chain goes far
enough. -/
theorem readClusters_succeeds_iff (more : Nat) {kernel : Kernel} (positive : 0 < sizeOfClusterBytes (privateOf kernel))
    (cluster number : Nat) {total : Int} (asked : 0 < total) (enough : total ≤ more)
    (bound : sizeOfClusterBytes (privateOf kernel) * number + total < 2 ^ 31) (stream out : Word) :
    (exists reading, readClusters more kernel stream cluster (sizeOfClusterBytes (privateOf kernel) * number) total out =
      some reading ∧ 0 ≤ reading.res) ↔ ChainServes kernel cluster number total := by
  constructor
  · rintro ⟨reading, read, succeeds⟩
    exact chainServes_of_read more positive cluster number asked enough bound read succeeds
  · intro serves
    rcases readClusters_whole more positive cluster number asked enough bound serves stream out with ⟨reading, read, res, _⟩
    exact ⟨reading, read, Int.le_of_eq res.symm⟩

theorem readClusters_unsized {kernel : Kernel} (unsized : sizeOfClusterBytes (privateOf kernel) = 0) (more : Nat)
    (stream : Word) (cluster offset total : Int) (out : Word) :
    readClusters more kernel stream cluster offset total out = none := by
  unfold readClusters fat16GetClusterForOffset clusterForOffset
  rw [if_pos unsized]

end Fs
end LarvaOS
