import LarvaOS.Fs.Fat16Volume

namespace LarvaOS
namespace Fs

open Library Disk

/-!
# Chains of clusters

A chain is followed by looking up one entry after the other.  The loop knows
the marks of a table with entries of 12 bits, while the entries have 16.  It
gives up at five numbers that are data clusters, and goes on after the marks
`0xFFF0` to `0xFFFF`.

A read of the chain issues requests that tile the range asked for.  Each is
cut at the size of a cluster, whatever the offset in the cluster was.
-/

/-! ## Functions that move streams only -/

/-- The two kernels have the same disk and the same private data of its file
system. -/
structure SameVolume (before after : Kernel) : Prop where
  fatPrivate : privateOf after = privateOf before
  drive : driveOf after = driveOf before

namespace SameVolume

variable {before middle after : Kernel}

theorem refl (kernel : Kernel) : SameVolume kernel kernel := ⟨rfl, rfl⟩

theorem trans (first : SameVolume before middle) (second : SameVolume middle after) : SameVolume before after :=
  ⟨second.fatPrivate.trans first.fatPrivate, second.drive.trans first.drive⟩

theorem seek (kernel : Kernel) (stream : Word) (pos : Int) : SameVolume kernel (diskStreamSeek kernel stream pos) :=
  ⟨rfl, rfl⟩

theorem read (kernel : Kernel) (stream : Word) (total : Int) :
    SameVolume kernel (diskStreamRead kernel stream total).2 := by
  rw [diskStreamRead]
  exact seek kernel stream _

theorem stored (kernel : Kernel) (address : Word) (bytes : List Byte) :
    SameVolume kernel (storeBytes kernel address bytes) := ⟨rfl, rfl⟩

end SameVolume

theorem streamTransfer_result (drive : Drive) (pos total : Int) : (streamTransfer drive pos total).result = 0 := by
  unfold streamTransfer
  generalize total.toNat / 512 = more
  induction more generalizing pos total with
  | zero => rw [readSectors, copySector_eq]
  | succ more inductionHypothesis =>
      rw [readSectors]
      by_cases beyond : total > DISK_SECTOR_SIZE
      · have first : (copySector drive pos DISK_SECTOR_SIZE).result = 0 := by rw [copySector_eq]
        rw [if_pos beyond]
        simp only [first, Int.lt_irrefl, if_false]
        rw [Transfer.andThen_result]
        exact inductionHypothesis _ _
      · rw [if_neg beyond, copySector_eq]

theorem diskStreamRead_result (kernel : Kernel) (stream : Word) (total : Int) :
    (diskStreamRead kernel stream total).1.result = 0 := streamTransfer_result _ _ _

/-- After a seek, what is read depends on the disk alone. -/
theorem diskStreamRead_sought (kernel : Kernel) (stream : Word) (pos total : Int) :
    (diskStreamRead (diskStreamSeek kernel stream pos) stream total).1 = streamTransfer (driveOf kernel) pos total := by
  change streamTransfer (driveOf kernel) (Function.update kernel.streamPositions stream pos stream) total = _
  rw [Function.update_self]

/-- The entry that is read for a cluster. -/
def fatEntryOf (drive : Drive) (fatPrivate : FatPrivateData) (cluster : Int) : Int :=
  if fatPrivate.fatReadStream = 0#32 then - EIO
  else littleEndian (streamTransfer drive (fatEntryPosition fatPrivate cluster) 2).bytes

theorem fat16GetFatEntry_value (kernel : Kernel) (cluster : Int) :
    (fat16GetFatEntry kernel cluster).1 = fatEntryOf (driveOf kernel) (privateOf kernel) cluster := by
  unfold fat16GetFatEntry fatEntryOf
  by_cases none : (privateOf kernel).fatReadStream = 0#32
  · rw [if_pos none, if_pos none]
  · rw [if_neg none, if_neg none]
    simp only [diskStreamRead_sought, streamTransfer_result, Int.lt_irrefl, if_false]

theorem fat16GetFatEntry_sameVolume (kernel : Kernel) (cluster : Int) :
    SameVolume kernel (fat16GetFatEntry kernel cluster).2 := by
  unfold fat16GetFatEntry
  by_cases none : (privateOf kernel).fatReadStream = 0#32
  · rw [if_pos none]
    exact SameVolume.refl kernel
  · rw [if_neg none]
    simp only [diskStreamRead_result, Int.lt_irrefl, if_false]
    exact (SameVolume.seek kernel _ _).trans (SameVolume.read _ _ _)

/-! ## Following a chain -/

section Following

variable {State : Type} (getFatEntry : State -> Int -> Int × State)

/-- The state and the cluster after a number of lookups. -/
def chainFrom (state : State) (start : Int) : Nat -> State × Int
  | 0 => (state, start)
  | count + 1 =>
      let reached := chainFrom state start count
      let entry := getFatEntry reached.1 reached.2
      (entry.2, entry.1)

/-- The cluster with a number of the chain.  The entry that is looked up for
it is the cluster with the next number. -/
def chainCluster (state : State) (start : Int) (number : Nat) : Int := (chainFrom getFatEntry state start number).2

theorem chainFrom_succ (state : State) (start : Int) (count : Nat) :
    chainFrom getFatEntry state start (count + 1) =
      chainFrom getFatEntry (getFatEntry state start).2 (getFatEntry state start).1 count := by
  induction count with
  | zero => rfl
  | succ count inductionHypothesis =>
      rw [chainFrom, inductionHypothesis]
      rfl

/-- The loop gives up when one of the entries stops it, and else arrives at the
cluster with the number asked for. -/
theorem followClusters_value (state : State) (start : Int) (ahead : Nat) :
    ((exists i, i < ahead ∧ chainStops (chainCluster getFatEntry state start (i + 1)) = true) ->
      (followClusters getFatEntry ahead state start).1 = - EIO) ∧
    ((forall i, i < ahead -> chainStops (chainCluster getFatEntry state start (i + 1)) = false) ->
      (followClusters getFatEntry ahead state start).1 = chainCluster getFatEntry state start ahead) := by
  induction ahead generalizing state start with
  | zero => exact ⟨fun ⟨_, inside, _⟩ => absurd inside (Nat.not_lt_zero _), fun _ => rfl⟩
  | succ ahead inductionHypothesis =>
      have shift : forall number, chainCluster getFatEntry state start (number + 1) =
          chainCluster getFatEntry (getFatEntry state start).2 (getFatEntry state start).1 number := fun number =>
        congrArg Prod.snd (chainFrom_succ getFatEntry state start number)
      rw [followClusters]
      constructor
      · rintro ⟨i, inside, stops⟩
        by_cases now : chainStops (getFatEntry state start).1 = true
        · simp only [now, if_true]
        · simp only [now, Bool.false_eq_true, if_false]
          refine (inductionHypothesis _ _).1 ?_
          cases i with
          | zero => exact absurd stops now
          | succ i => exact ⟨i, by omega, (shift (i + 1)) ▸ stops⟩
      · intro passes
        have now : chainStops (getFatEntry state start).1 = false := passes 0 (by omega)
        simp only [now, Bool.false_eq_true, if_false]
        rw [shift]
        refine (inductionHypothesis _ _).2 fun i inside => ?_
        rw [← shift]
        exact passes (i + 1) (by omega)

/-- What the lookups keep, the loop keeps. -/
theorem followClusters_keeps {keeps : State -> Prop}
    (looked : forall state cluster, keeps state -> keeps (getFatEntry state cluster).2) {state : State}
    (start : keeps state) (ahead : Nat) (cluster : Int) :
    keeps (followClusters getFatEntry ahead state cluster).2 := by
  induction ahead generalizing state cluster with
  | zero => exact start
  | succ ahead inductionHypothesis =>
      rw [followClusters]
      cases chainStops (getFatEntry state cluster).1 with
      | true => exact looked state cluster start
      | false => exact inductionHypothesis (looked state cluster start) _

end Following

/-- The number of a data cluster. -/
def DataCluster (entry : Int) : Prop := 0x0002 ≤ entry ∧ entry ≤ 0xFFEF

/-- An entry that is free, or reserved, bad or the end of a chain. -/
def EndsChain (entry : Int) : Prop := entry = 0x0000 ∨ 0xFFF0 ≤ entry

/-- The marks of a table with entries of 12 bits that the loop knows. -/
def ShortMark (entry : Int) : Prop :=
  entry = 0xFF0 ∨ entry = 0xFF6 ∨ entry = 0xFF7 ∨ entry = 0xFF8 ∨ entry = 0xFFF

theorem chainStops_iff (entry : Int) : chainStops entry = true ↔ ShortMark entry ∨ entry = 0 := by
  unfold chainStops ShortMark FAT16_BAD_SECTOR
  simp only [Bool.or_eq_true, beq_iff_eq]
  omega

theorem chainStops_eq_false (entry : Int) : chainStops entry = false ↔ ¬ ShortMark entry ∧ entry ≠ 0 := by
  rw [← Bool.not_eq_true, chainStops_iff, not_or]

/-- What `fat16_get_cluster_for_offset` promises for the entries that it may
look up: the cluster with the number of the offset when the entries before it
are data clusters, and an error when one of them ends the chain. -/
def FindsCluster (getFatEntry : Kernel -> Int -> Int × Kernel) (kernel : Kernel) (startingCluster offset : Int) : Prop :=
  let ahead := (offset / sizeOfClusterBytes (privateOf kernel)).toNat
  let entry := fun i => chainCluster getFatEntry kernel startingCluster (i + 1)
  exists found, clusterForOffset getFatEntry kernel startingCluster offset = some found ∧
    ((forall i, i < ahead -> DataCluster (entry i)) ->
      found.1 = chainCluster getFatEntry kernel startingCluster ahead) ∧
    ((exists i, i < ahead ∧ EndsChain (entry i)) -> found.1 = - EIO)

/-- No entry of a good chain looks like a mark of 12 bits, and a mark of 16
bits has such an entry or a free one beside it. -/
def MarksTold (getFatEntry : Kernel -> Int -> Int × Kernel) (kernel : Kernel) (startingCluster offset : Int) : Prop :=
  let ahead := (offset / sizeOfClusterBytes (privateOf kernel)).toNat
  let entry := fun i => chainCluster getFatEntry kernel startingCluster (i + 1)
  ((forall i, i < ahead -> DataCluster (entry i)) -> forall i, i < ahead -> ¬ ShortMark (entry i)) ∧
    ((exists i, i < ahead ∧ 0xFFF0 ≤ entry i) -> exists i, i < ahead ∧ (ShortMark (entry i) ∨ entry i = 0))

theorem clusterForOffset_eq (getFatEntry : Kernel -> Int -> Int × Kernel) {kernel : Kernel}
    (sized : sizeOfClusterBytes (privateOf kernel) ≠ 0) (startingCluster : Int) {offset : Int} (lower : 0 ≤ offset) :
    clusterForOffset getFatEntry kernel startingCluster offset =
      some (followClusters getFatEntry (offset / sizeOfClusterBytes (privateOf kernel)).toNat kernel
        startingCluster) := by
  rw [clusterForOffset, if_neg sized, Int.tdiv_eq_ediv_of_nonneg lower]

/-- Whatever entries of 16 bits are looked up, by `fat16_get_fat_entry` or
otherwise, the loop keeps its promise exactly when the marks of 12 and of 16
bits can be told from each other. -/
theorem findsCluster_iff_marksTold (getFatEntry : Kernel -> Int -> Int × Kernel) (kernel : Kernel)
    (sized : sizeOfClusterBytes (privateOf kernel) ≠ 0) (startingCluster offset : Int) (lower : 0 ≤ offset)
    (sixteenBits : forall i, 0 ≤ chainCluster getFatEntry kernel startingCluster (i + 1) ∧
      chainCluster getFatEntry kernel startingCluster (i + 1) ≤ 0xFFFF) :
    FindsCluster getFatEntry kernel startingCluster offset ↔ MarksTold getFatEntry kernel startingCluster offset := by
  unfold FindsCluster MarksTold
  rw [clusterForOffset_eq getFatEntry sized startingCluster lower]
  generalize (offset / sizeOfClusterBytes (privateOf kernel)).toNat = ahead
  have value := followClusters_value getFatEntry kernel startingCluster ahead
  have reached : 0 < ahead -> 0 ≤ chainCluster getFatEntry kernel startingCluster ahead := by
    intro positive
    obtain ⟨count, rfl⟩ : exists count, ahead = count + 1 := ⟨ahead - 1, by omega⟩
    exact (sixteenBits count).1
  constructor
  · rintro ⟨found, same, good, ended⟩
    obtain rfl := Option.some.inj same
    refine ⟨fun data i inside mark => ?_, fun long => ?_⟩
    · have failed := value.1 ⟨i, inside, (chainStops_iff _).mpr (Or.inl mark)⟩
      have arrived := good data
      have lowerBound := reached (by omega)
      rw [failed] at arrived
      unfold EIO at arrived
      omega
    · rcases long with ⟨i, inside, mark⟩
      by_contra none
      have passes : forall j, j < ahead -> chainStops (chainCluster getFatEntry kernel startingCluster (j + 1)) = false := by
        intro j jInside
        rw [← Bool.not_eq_true, chainStops_iff]
        exact fun stops => none ⟨j, jInside, stops⟩
      have arrived := value.2 passes
      have failed := ended ⟨i, inside, Or.inr mark⟩
      have lowerBound := reached (by omega)
      rw [failed] at arrived
      unfold EIO at arrived
      omega
  · rintro ⟨noShort, longTold⟩
    refine ⟨_, rfl, fun data => value.2 fun i inside => ?_, ?_⟩
    · have notZero : 2 ≤ chainCluster getFatEntry kernel startingCluster (i + 1) := (data i inside).1
      exact (chainStops_eq_false _).mpr ⟨noShort data i inside, by omega⟩
    · rintro ⟨i, inside, isFree | mark⟩
      · exact value.1 ⟨i, inside, (chainStops_iff _).mpr (Or.inr isFree)⟩
      · rcases longTold ⟨i, inside, mark⟩ with ⟨j, jInside, stops⟩
        exact value.1 ⟨j, jInside, (chainStops_iff _).mpr stops⟩

/-- A kernel whose volume has one sector in each cluster. -/
abbrev oneSectorClusters : Kernel :=
  Kernel.loaded
    { Store.blank with
      fatPrivates := fun _ => { FatPrivateData.zero with header := fun place => if place = 13 then 1#8 else 0#8 } }
    (fun _ _ => 0#8) fun _ => 0#8

/-- The second cluster of a file is cluster 3. -/
theorem findsCluster_second : FindsCluster (fun kernel _ => (3, kernel)) oneSectorClusters 2 512 := by
  have looked : forall i, chainCluster (fun kernel _ => (3, kernel)) oneSectorClusters 2 (i + 1) = 3 := fun _ => rfl
  refine (findsCluster_iff_marksTold (fun kernel _ => (3, kernel)) oneSectorClusters (by decide) 2 512 (by decide)
    fun i => by rw [looked]; decide).mpr ⟨fun _ i _ => ?_, ?_⟩
  · change ¬ ShortMark (chainCluster _ _ _ (i + 1))
    rw [looked]
    unfold ShortMark
    decide
  · rintro ⟨i, _, long⟩
    change 0xFFF0 ≤ chainCluster _ _ _ (i + 1) at long
    rw [looked] at long
    exact absurd long (by decide)

/-- A file of one cluster ends with `0xFFFF`, which is taken for the number of
its second cluster. -/
theorem findsCluster_fails_endMark : ¬ FindsCluster (fun kernel _ => (0xFFFF, kernel)) oneSectorClusters 2 512 := by
  rintro ⟨found, same, _, ended⟩
  rw [clusterForOffset_eq _ (by decide) 2 (by decide)] at same
  obtain rfl := Option.some.inj same
  have failed := ended ⟨0, by decide, Or.inr (by decide)⟩
  have arrived := (followClusters_value (fun kernel _ => (0xFFFF, kernel)) oneSectorClusters 2 1).2 fun _ _ => rfl
  exact absurd (failed.symm.trans arrived) (by decide)

end Fs
end LarvaOS
