import LarvaOS.Fs.Fat16Chain

namespace LarvaOS
namespace Fs

open Library Disk

/-!
# The requests of a read

A read from offset `o` of a file looks up the cluster of `o`, asks the stream
for at most one cluster, and continues behind what it asked for.  The requests
of a read are compared with the chain that `fat16_get_fat_entry` gives, whatever
entries it finds.
-/

/-- The chain that the table gives for a first cluster. -/
def fatChain (kernel : Kernel) (start : Int) (number : Nat) : Int :=
  chainCluster fat16GetFatEntry kernel start number

/-- Nothing but the volume decides about a chain. -/
theorem fatChain_sameVolume {before after : Kernel} (same : SameVolume before after) (start : Int) (number : Nat) :
    fatChain after start number = fatChain before start number := by
  have reached : (fatChain after start number = fatChain before start number) ∧
      SameVolume (chainFrom fat16GetFatEntry before start number).1
        (chainFrom fat16GetFatEntry after start number).1 := by
    induction number with
    | zero => exact ⟨rfl, same⟩
    | succ number inductionHypothesis =>
        rcases inductionHypothesis with ⟨cluster, volume⟩
        have left := fat16GetFatEntry_sameVolume (chainFrom fat16GetFatEntry before start number).1
          (chainFrom fat16GetFatEntry before start number).2
        have right := fat16GetFatEntry_sameVolume (chainFrom fat16GetFatEntry after start number).1
          (chainFrom fat16GetFatEntry after start number).2
        refine ⟨?_, ?_⟩
        · change (fat16GetFatEntry (chainFrom fat16GetFatEntry after start number).1
              (fatChain after start number)).1 =
            (fat16GetFatEntry (chainFrom fat16GetFatEntry before start number).1 (fatChain before start number)).1
          rw [cluster, fat16GetFatEntry_value, fat16GetFatEntry_value, volume.drive, volume.fatPrivate]
        · exact ⟨right.fatPrivate.trans (volume.fatPrivate.trans left.fatPrivate.symm),
            right.drive.trans (volume.drive.trans left.drive.symm)⟩
  exact reached.1

/-- The requests tile the range of `total` bytes from `offset` on, in order,
and each stays inside the cluster of the chain that its first byte is in. -/
def ServesRange (fatPrivate : FatPrivateData) (chain : Nat -> Int) : Int -> Int -> List (Int × Int) -> Prop
  | _, total, [] => total = 0
  | offset, total, (position, length) :: rest =>
      let size := sizeOfClusterBytes fatPrivate
      position = clusterPosition fatPrivate (chain (offset / size).toNat) (offset % size) ∧
        0 < length ∧ length ≤ size - offset % size ∧
        ServesRange fatPrivate chain (offset + length) (total - length) rest

/-- What `fat16_read_internal_from_stream` promises of its requests. -/
def ReadTiles (kernel : Kernel) (stream : Word) (cluster : Nat) (offset total : Int) (out : Word) : Prop :=
  exists reading, fat16ReadInternalFromStream kernel stream cluster offset total out = some reading ∧
    ServesRange (privateOf kernel) (fatChain kernel cluster) offset total reading.requests

/-- The read begins with a cluster or ends in the cluster where it begins. -/
def ReadsWithinClusters (size offset total : Int) : Prop := offset % size = 0 ∨ offset % size + total ≤ size

/-- The number of the cluster with the last byte of a range. -/
def lastNumber (size offset total : Int) : Nat := ((offset + total - 1) / size).toNat

/-- The entries that lead to the last cluster are data clusters. -/
def ChainReaches (kernel : Kernel) (cluster : Nat) (offset total : Int) : Prop :=
  forall i, i < lastNumber (sizeOfClusterBytes (privateOf kernel)) offset total ->
    DataCluster (fatChain kernel cluster (i + 1))

/-- None of them looks like a mark of a table with entries of 12 bits. -/
def NoShortMark (kernel : Kernel) (cluster : Nat) (offset total : Int) : Prop :=
  forall i, i < lastNumber (sizeOfClusterBytes (privateOf kernel)) offset total ->
    ¬ ShortMark (fatChain kernel cluster (i + 1))

/-! ## One request -/

theorem readChunk_res (kernel : Kernel) (stream : Word) (position totalToRead : Int) (out : Word) :
    (readChunk kernel stream position totalToRead out).res = 0 := by
  unfold readChunk
  simp only [diskStreamRead_result, Int.lt_irrefl, if_false]

theorem readChunk_requests (kernel : Kernel) (stream : Word) (position totalToRead : Int) (out : Word) :
    (readChunk kernel stream position totalToRead out).requests = [(position, totalToRead)] := by
  unfold readChunk
  simp only [diskStreamRead_result, Int.lt_irrefl, if_false]

theorem readChunk_sameVolume (kernel : Kernel) (stream : Word) (position totalToRead : Int) (out : Word) :
    SameVolume kernel (readChunk kernel stream position totalToRead out).kernel := by
  unfold readChunk
  simp only [diskStreamRead_result, Int.lt_irrefl, if_false]
  exact ((SameVolume.seek kernel stream position).trans (SameVolume.read _ _ _)).trans (SameVolume.stored _ _ _)

theorem fat16GetClusterForOffset_sameVolume {kernel : Kernel} {cluster offset : Int} {found : Int × Kernel}
    (same : fat16GetClusterForOffset kernel cluster offset = some found) : SameVolume kernel found.2 := by
  unfold fat16GetClusterForOffset clusterForOffset at same
  by_cases sized : sizeOfClusterBytes (privateOf kernel) = 0
  · rw [if_pos sized] at same
    exact absurd same (by simp)
  · rw [if_neg sized] at same
    obtain rfl := Option.some.inj same
    exact followClusters_keeps fat16GetFatEntry
      (fun state cluster keeps => keeps.trans (fat16GetFatEntry_sameVolume state cluster)) (SameVolume.refl kernel) _ _

theorem fat16GetClusterForOffset_returns {kernel : Kernel} (sized : sizeOfClusterBytes (privateOf kernel) ≠ 0)
    (cluster offset : Int) : exists found, fat16GetClusterForOffset kernel cluster offset = some found := by
  unfold fat16GetClusterForOffset clusterForOffset
  rw [if_neg sized]
  exact ⟨_, rfl⟩

/-- A read of a volume whose clusters are not empty comes to an end. -/
theorem readClusters_returns {kernel : Kernel} (sized : sizeOfClusterBytes (privateOf kernel) ≠ 0) (more : Nat)
    (stream : Word) (cluster offset total : Int) (out : Word) :
    exists reading, readClusters more kernel stream cluster offset total out = some reading := by
  induction more generalizing kernel offset total out with
  | zero =>
      rcases fat16GetClusterForOffset_returns sized cluster offset with ⟨found, same⟩
      rw [readClusters, same]
      simp only [readChunk_res, Int.lt_irrefl, if_false]
      split <;> exact ⟨_, rfl⟩
  | succ more inductionHypothesis =>
      rcases fat16GetClusterForOffset_returns sized cluster offset with ⟨found, same⟩
      have volume := fat16GetClusterForOffset_sameVolume same
      rw [readClusters, same]
      simp only [readChunk_res, Int.lt_irrefl, if_false]
      have later : forall position length (buffer rest : Word) (after left : Int), exists reading,
          readClusters more (readChunk found.2 stream position length buffer).kernel stream cluster after left rest =
            some reading := by
        intro position length buffer rest after left
        have chunk := volume.trans (readChunk_sameVolume found.2 stream position length buffer)
        exact inductionHypothesis (by rwa [chunk.fatPrivate]) after left rest
      by_cases failed : found.1 < 0
      · rw [if_pos failed]
        exact ⟨_, rfl⟩
      · rw [if_neg failed]
        by_cases left : total - chunkLength (sizeOfClusterBytes (privateOf found.2)) total > 0
        · rw [if_pos left]
          rcases later _ _ _ _ _ _ with ⟨reading, read⟩
          rw [read]
          exact ⟨_, rfl⟩
        · rw [if_neg left]
          exact ⟨_, rfl⟩

theorem fat16ReadInternal_returns {kernel : Kernel} (sized : sizeOfClusterBytes (privateOf kernel) ≠ 0)
    (cluster offset total : Int) (out : Word) :
    exists reading, fat16ReadInternal kernel cluster offset total out = some reading :=
  readClusters_returns sized _ _ cluster offset total out

section Steps

variable {kernel : Kernel} {cluster : Nat} {offset : Int}

/-- A stop on the way to the offset makes the read end without a request. -/
theorem readClusters_stopped (sized : sizeOfClusterBytes (privateOf kernel) ≠ 0) (lower : 0 ≤ offset)
    (stopped : exists i, i < (offset / sizeOfClusterBytes (privateOf kernel)).toNat ∧
      chainStops (fatChain kernel cluster (i + 1)) = true)
    (more : Nat) (stream : Word) (total : Int) (out : Word) :
    exists reading, readClusters more kernel stream cluster offset total out = some reading ∧
      reading.requests = [] ∧ reading.res = - EIO := by
  have failed := (followClusters_value fat16GetFatEntry kernel cluster
    (offset / sizeOfClusterBytes (privateOf kernel)).toNat).1 stopped
  refine ⟨⟨- EIO, [], (followClusters fat16GetFatEntry
    (offset / sizeOfClusterBytes (privateOf kernel)).toNat kernel cluster).2⟩, ?_, rfl, rfl⟩
  rw [readClusters, fat16GetClusterForOffset, clusterForOffset_eq _ sized _ lower]
  simp only [failed]
  exact if_pos (by decide)

/-- Otherwise the cluster of the offset is asked for, and the read goes on
behind what was asked for. -/
theorem readClusters_served (sized : sizeOfClusterBytes (privateOf kernel) ≠ 0) (lower : 0 ≤ offset)
    (passes : forall i, i < (offset / sizeOfClusterBytes (privateOf kernel)).toNat ->
      chainStops (fatChain kernel cluster (i + 1)) = false)
    (arrived : 0 ≤ fatChain kernel cluster (offset / sizeOfClusterBytes (privateOf kernel)).toNat)
    (stream : Word) (total : Int) (out : Word) :
    let size := sizeOfClusterBytes (privateOf kernel)
    let length := chunkLength size total
    let position := clusterPosition (privateOf kernel) (fatChain kernel cluster (offset / size).toNat) (offset % size)
    exists chunk : Reading,
      chunk = readChunk (followClusters fat16GetFatEntry (offset / size).toNat kernel cluster).2 stream position length
        out ∧
      chunk.requests = [(position, length)] ∧ SameVolume kernel chunk.kernel ∧
      readClusters 0 kernel stream cluster offset total out = some chunk ∧
      forall more, readClusters (more + 1) kernel stream cluster offset total out =
        if total - length > 0 then
          (readClusters more chunk.kernel stream cluster (wrapInt (offset + length)) (total - length)
            (out + intToWord length)).map chunk.andThen
        else some chunk := by
  intro size length position
  have value := (followClusters_value fat16GetFatEntry kernel cluster (offset / size).toNat).2 passes
  have found := clusterForOffset_eq fat16GetFatEntry sized cluster lower
  have volume := fat16GetClusterForOffset_sameVolume found
  generalize reachedEq : followClusters fat16GetFatEntry (offset / size).toNat kernel cluster = reached at *
  have notError : ¬ reached.1 < 0 := by
    rw [value]
    exact Int.not_lt.mpr arrived
  have samePosition : clusterPosition (privateOf reached.2) reached.1
      (offset.tmod (sizeOfClusterBytes (privateOf reached.2))) = position := by
    rw [volume.fatPrivate, value, Int.tmod_eq_emod_of_nonneg lower]
    rfl
  have sameLength : chunkLength (sizeOfClusterBytes (privateOf reached.2)) total = length := by
    rw [volume.fatPrivate]
  refine ⟨readChunk reached.2 stream position length out, rfl, readChunk_requests _ _ _ _ _,
    volume.trans (readChunk_sameVolume _ _ _ _ _), ?_, fun more => ?_⟩
  · rw [readClusters, fat16GetClusterForOffset, found]
    simp only [notError, if_false, samePosition, sameLength, readChunk_res, Int.lt_irrefl]
  · rw [readClusters, fat16GetClusterForOffset, found]
    simp only [notError, if_false, samePosition, sameLength, readChunk_res, Int.lt_irrefl]

end Steps

/-! ## The whole read -/

/-- A step that stays inside the block of `size` stays inside the quotient. -/
theorem ediv_within {size offset step : Int} (positive : 0 < size) (lower : 0 ≤ step)
    (upper : offset % size + step < size) : (offset + step) / size = offset / size := by
  have remainder := Int.emod_nonneg offset (Int.ne_of_gt positive)
  have whole := Int.emod_add_mul_ediv offset size
  exact ((Int.ediv_emod_unique positive (r := offset % size + step)).mpr ⟨by omega, by omega, upper⟩).1

/-- The cluster of an offset in a chain that reaches at least as far. -/
theorem arrived_of_reaches {chain : Nat -> Int} {size offset total : Int} (positive : 0 < size) (lower : 0 ≤ offset)
    (asked : 0 < total) (start : 0 ≤ chain 0)
    (reaches : forall i, i < lastNumber size offset total -> DataCluster (chain (i + 1))) :
    0 ≤ chain (offset / size).toNat := by
  by_cases first : (offset / size).toNat = 0
  · rw [first]
    exact start
  · have before : (offset / size).toNat - 1 < lastNumber size offset total := by
      have ordered : offset / size ≤ (offset + total - 1) / size := Int.ediv_le_ediv positive (by omega)
      have nonnegative := Int.ediv_nonneg lower (Int.le_of_lt positive)
      unfold lastNumber
      omega
    have data := (reaches _ before).1
    rw [show (offset / size).toNat - 1 + 1 = (offset / size).toNat by omega] at data
    omega

theorem chunkLength_le (size total : Int) : chunkLength size total ≤ size ∧ chunkLength size total ≤ total := by
  unfold chunkLength
  by_cases more : total > size
  · rw [if_pos more]
    omega
  · rw [if_neg more]
    omega

section Reads

variable {kernel : Kernel} {stream : Word} {cluster : Nat}

/-- A read that makes a request was not stopped on the way to its offset. -/
theorem passes_of_requests (sized : sizeOfClusterBytes (privateOf kernel) ≠ 0) {offset total : Int}
    (lower : 0 ≤ offset) {more : Nat} {out : Word} {reading : Reading}
    (same : readClusters more kernel stream cluster offset total out = some reading)
    (asked : reading.requests ≠ []) (i : Nat) (inside : i < (offset / sizeOfClusterBytes (privateOf kernel)).toNat) :
    chainStops (fatChain kernel cluster (i + 1)) = false := by
  rw [← Bool.not_eq_true]
  intro stops
  rcases readClusters_stopped sized lower ⟨i, inside, stops⟩ more stream total out with ⟨none, served, empty, _⟩
  obtain rfl := Option.some.inj (same.symm.trans served)
  exact asked empty

/-- The range ends in the cluster where it begins. -/
theorem lastNumber_within {size offset total : Int} (positive : 0 < size) (asked : 0 < total)
    (within : total ≤ size - offset % size) : lastNumber size offset total = (offset / size).toNat := by
  have same := ediv_within positive (show 0 ≤ total - 1 by omega) (show offset % size + (total - 1) < size by omega)
  rw [lastNumber, show offset + total - 1 = offset + (total - 1) by omega, same]

/-- The first request of a read whose requests tile its range: it is the only
one, or the rest of the requests tile the rest of the range. -/
theorem served_step (positive : 0 < sizeOfClusterBytes (privateOf kernel)) {more : Nat} {current : Kernel}
    (volume : SameVolume kernel current) {offset total : Int} (lower : 0 ≤ offset) (asked : 0 < total)
    (bound : offset + total < 2 ^ 31) (reaches : ChainReaches kernel cluster offset total) {out : Word}
    {reading : Reading} (same : readClusters more current stream cluster offset total out = some reading)
    (serves : ServesRange (privateOf kernel) (fatChain kernel cluster) offset total reading.requests) :
    let size := sizeOfClusterBytes (privateOf kernel)
    let length := chunkLength size total
    length ≤ size - offset % size ∧
      (forall i, i < (offset / size).toNat -> chainStops (fatChain kernel cluster (i + 1)) = false) ∧
      (length = total ∨ 0 < length ∧ 0 < total - length ∧
        exists (fewer : Nat) (next : Kernel) (rest : Reading), more = fewer + 1 ∧ SameVolume kernel next ∧
          readClusters fewer next stream cluster (offset + length) (total - length) (out + intToWord length) =
            some rest ∧
          ServesRange (privateOf kernel) (fatChain kernel cluster) (offset + length) (total - length)
            rest.requests) := by
  intro size length
  have chainSame : fatChain current cluster = fatChain kernel cluster :=
    funext fun number => fatChain_sameVolume volume cluster number
  have arrived := arrived_of_reaches positive lower asked (Int.natCast_nonneg cluster) reaches
  have sized : sizeOfClusterBytes (privateOf current) ≠ 0 := by
    rw [volume.fatPrivate]
    exact Int.ne_of_gt positive
  have nonempty : reading.requests ≠ [] := by
    intro empty
    rw [empty] at serves
    exact absurd serves (Int.ne_of_gt asked)
  have passes := passes_of_requests sized lower same nonempty
  have step := readClusters_served sized lower passes (by rw [chainSame, volume.fatPrivate]; exact arrived) stream
    total out
  rw [chainSame, volume.fatPrivate] at passes step
  rcases step with ⟨chunk, _, requests, chunkVolume, last, next⟩
  have lengths : length ≤ size ∧ length ≤ total := chunkLength_le size total
  -- The chunk is the only request of the read.
  have only : chunk = reading -> length ≤ size - offset % size ∧ length = total := by
    rintro rfl
    rw [requests] at serves
    rcases serves with ⟨_, _, within, nothingLeft⟩
    have left : total - length = 0 := nothingLeft
    exact ⟨within, by omega⟩
  cases more with
  | zero =>
      have both := only (Option.some.inj (last.symm.trans same))
      exact ⟨both.1, passes, Or.inl both.2⟩
  | succ fewer =>
      have continued := (next fewer).symm.trans same
      by_cases goesOn : total - length > 0
      · rw [if_pos goesOn] at continued
        rcases Option.map_eq_some_iff.mp continued with ⟨rest, restSame, rfl⟩
        have joined : ServesRange (privateOf kernel) (fatChain kernel cluster) offset total
            (chunk.requests ++ rest.requests) := serves
        rw [requests] at joined
        rcases joined with ⟨_, advances, within, restServes⟩
        refine ⟨within, passes, Or.inr ⟨advances, goesOn, fewer, chunk.kernel, rest, rfl,
          volume.trans chunkVolume, ?_, restServes⟩⟩
        have forward : 0 < length := advances
        have noWrap : wrapInt (offset + length) = offset + length := wrapInt_of_small (by omega) (by omega)
        rw [← noWrap]
        exact restSame
      · rw [if_neg goesOn] at continued
        have both := only (Option.some.inj continued)
        exact ⟨both.1, passes, Or.inl both.2⟩

/-- Requests that tile a range were not stopped on the way to its last
cluster. -/
theorem passes_of_served (positive : 0 < sizeOfClusterBytes (privateOf kernel)) (more : Nat) {current : Kernel}
    (volume : SameVolume kernel current) {offset total : Int} (lower : 0 ≤ offset) (asked : 0 < total)
    (bound : offset + total < 2 ^ 31) (reaches : ChainReaches kernel cluster offset total) {out : Word}
    {reading : Reading} (same : readClusters more current stream cluster offset total out = some reading)
    (serves : ServesRange (privateOf kernel) (fatChain kernel cluster) offset total reading.requests) (i : Nat)
    (inside : i < lastNumber (sizeOfClusterBytes (privateOf kernel)) offset total) :
    chainStops (fatChain kernel cluster (i + 1)) = false := by
  induction more generalizing current offset total out reading with
  | zero =>
      rcases served_step positive volume lower asked bound reaches same serves with
        ⟨within, passes, whole | ⟨_, _, fewer, _, _, impossible, _⟩⟩
      · rw [whole] at within
        rw [lastNumber_within positive asked within] at inside
        exact passes i inside
      · exact absurd impossible (Nat.succ_ne_zero fewer).symm
  | succ more inductionHypothesis =>
      rcases served_step positive volume lower asked bound reaches same serves with
        ⟨within, passes, whole | ⟨advances, left, fewer, next, rest, fewerSame, nextVolume, restSame, restServes⟩⟩
      · rw [whole] at within
        rw [lastNumber_within positive asked within] at inside
        exact passes i inside
      · obtain rfl := Nat.succ.inj fewerSame
        have shorter := chunkLength_le (sizeOfClusterBytes (privateOf kernel)) total
        have sameEnd : lastNumber (sizeOfClusterBytes (privateOf kernel))
            (offset + chunkLength (sizeOfClusterBytes (privateOf kernel)) total)
            (total - chunkLength (sizeOfClusterBytes (privateOf kernel)) total) =
              lastNumber (sizeOfClusterBytes (privateOf kernel)) offset total := by
          rw [lastNumber, lastNumber]
          congr 2
          omega
        refine inductionHypothesis nextVolume (by omega) left (by omega) ?_ restSame restServes (sameEnd ▸ inside)
        rw [ChainReaches, sameEnd]
        exact reaches

/-- A read that stays within clusters, and is stopped by no entry, makes the
requests that tile its range. -/
theorem served_of_within (positive : 0 < sizeOfClusterBytes (privateOf kernel)) (more : Nat) {current : Kernel}
    (volume : SameVolume kernel current) {offset total : Int} (lower : 0 ≤ offset) (asked : 0 < total)
    (bound : offset + total < 2 ^ 31) (enough : total.toNat ≤ more)
    (reaches : ChainReaches kernel cluster offset total)
    (within : ReadsWithinClusters (sizeOfClusterBytes (privateOf kernel)) offset total)
    (passes : forall i, i < lastNumber (sizeOfClusterBytes (privateOf kernel)) offset total ->
      chainStops (fatChain kernel cluster (i + 1)) = false) (out : Word) :
    exists reading, readClusters more current stream cluster offset total out = some reading ∧
      ServesRange (privateOf kernel) (fatChain kernel cluster) offset total reading.requests := by
  induction more generalizing current offset total out with
  | zero => omega
  | succ more inductionHypothesis =>
      have chainSame : fatChain current cluster = fatChain kernel cluster :=
        funext fun number => fatChain_sameVolume volume cluster number
      have arrived := arrived_of_reaches positive lower asked (Int.natCast_nonneg cluster) reaches
      have sized : sizeOfClusterBytes (privateOf current) ≠ 0 := by
        rw [volume.fatPrivate]
        exact Int.ne_of_gt positive
      have ordered : (offset / sizeOfClusterBytes (privateOf kernel)).toNat ≤
          lastNumber (sizeOfClusterBytes (privateOf kernel)) offset total := by
        have quotient : offset / sizeOfClusterBytes (privateOf kernel) ≤
            (offset + total - 1) / sizeOfClusterBytes (privateOf kernel) := Int.ediv_le_ediv positive (by omega)
        unfold lastNumber
        omega
      have step := readClusters_served sized lower
        (by rw [chainSame, volume.fatPrivate]; exact fun i inside => passes i (by omega))
        (by rw [chainSame, volume.fatPrivate]; exact arrived) stream total out
      rw [chainSame, volume.fatPrivate] at step
      rcases step with ⟨chunk, _, requests, chunkVolume, _, next⟩
      rw [next more]
      have remainder := Int.emod_nonneg offset (Int.ne_of_gt positive)
      by_cases large : total > sizeOfClusterBytes (privateOf kernel)
      · have length : chunkLength (sizeOfClusterBytes (privateOf kernel)) total =
            sizeOfClusterBytes (privateOf kernel) := if_pos large
        have aligned : offset % sizeOfClusterBytes (privateOf kernel) = 0 := by
          rcases within with aligned | fits
          · exact aligned
          · omega
        have sameEnd : lastNumber (sizeOfClusterBytes (privateOf kernel))
            (offset + sizeOfClusterBytes (privateOf kernel)) (total - sizeOfClusterBytes (privateOf kernel)) =
              lastNumber (sizeOfClusterBytes (privateOf kernel)) offset total := by
          rw [lastNumber, lastNumber]
          congr 2
          omega
        have noWrap : wrapInt (offset + sizeOfClusterBytes (privateOf kernel)) =
            offset + sizeOfClusterBytes (privateOf kernel) := wrapInt_of_small (by omega) (by omega)
        rw [length] at requests ⊢
        rw [if_pos (by omega), noWrap]
        rcases @inductionHypothesis chunk.kernel (volume.trans chunkVolume)
            (offset + sizeOfClusterBytes (privateOf kernel)) (total - sizeOfClusterBytes (privateOf kernel))
            (by omega) (by omega) (by omega) (by omega) (by rw [ChainReaches, sameEnd]; exact reaches)
            (Or.inl (by rw [Int.add_emod_right]; exact aligned)) (by rw [sameEnd]; exact passes)
            (out + intToWord (sizeOfClusterBytes (privateOf kernel))) with ⟨rest, restSame, restServes⟩
        refine ⟨chunk.andThen rest, by rw [restSame]; rfl, ?_⟩
        change ServesRange _ _ _ _ (chunk.requests ++ rest.requests)
        rw [requests]
        exact ⟨rfl, positive, by omega, restServes⟩
      · have length : chunkLength (sizeOfClusterBytes (privateOf kernel)) total = total := if_neg large
        rw [length] at requests ⊢
        rw [if_neg (by omega)]
        refine ⟨chunk, rfl, ?_⟩
        rw [requests]
        refine ⟨rfl, asked, ?_, Int.sub_self total⟩
        rcases within with aligned | fits
        · omega
        · omega

end Reads

theorem passes_iff_noShortMark {kernel : Kernel} {cluster : Nat} {offset total : Int}
    (reaches : ChainReaches kernel cluster offset total) :
    (forall i, i < lastNumber (sizeOfClusterBytes (privateOf kernel)) offset total ->
      chainStops (fatChain kernel cluster (i + 1)) = false) ↔ NoShortMark kernel cluster offset total := by
  constructor
  · exact fun passes i inside => ((chainStops_eq_false _).mp (passes i inside)).1
  · intro told i inside
    have data := (reaches i inside).1
    exact (chainStops_eq_false _).mpr ⟨told i inside, by omega⟩

/-- On a chain that is long enough, the requests of a read tile its range
cluster by cluster exactly when the read begins with a cluster or ends in the
cluster where it begins, and no entry on the way looks like a mark of 12 bits. -/
theorem readTiles_iff (kernel : Kernel) (sized : 0 < sizeOfClusterBytes (privateOf kernel)) (stream : Word)
    (cluster : Nat) (offset total : Int) (lower : 0 ≤ offset) (asked : 0 < total) (bound : offset + total < 2 ^ 31)
    (reaches : ChainReaches kernel cluster offset total) (out : Word) :
    ReadTiles kernel stream cluster offset total out ↔
      ReadsWithinClusters (sizeOfClusterBytes (privateOf kernel)) offset total ∧
        NoShortMark kernel cluster offset total := by
  rw [← passes_iff_noShortMark reaches]
  constructor
  · rintro ⟨reading, same, serves⟩
    refine ⟨?_, passes_of_served sized _ (SameVolume.refl kernel) lower asked bound reaches same serves⟩
    have within := (served_step sized (SameVolume.refl kernel) lower asked bound reaches same serves).1
    have remainder := Int.emod_nonneg offset (Int.ne_of_gt sized)
    unfold ReadsWithinClusters
    unfold chunkLength at within
    by_cases large : total > sizeOfClusterBytes (privateOf kernel)
    · rw [if_pos large] at within
      omega
    · rw [if_neg large] at within
      omega
  · rintro ⟨within, passes⟩
    exact served_of_within sized _ (SameVolume.refl kernel) lower asked bound (Nat.le_refl _) reaches within passes out

/-- A volume on which cluster 3 follows every cluster. -/
abbrev threeFollows : Kernel :=
  Kernel.loaded
    { Store.blank with
      fatPrivates := fun _ =>
        { FatPrivateData.zero with
          header := fun place => if place = 13 then 1#8 else 0#8
          fatReadStream := 8#32 } }
    (fun _ place => if place = 0 then 3#8 else 0#8) fun _ => 0#8

/-- A read of a thousand bytes covers the clusters 2 and 3. -/
theorem readTiles_twoClusters : ReadTiles threeFollows 0#32 2 0 1000 0#32 := by
  have two : lastNumber (sizeOfClusterBytes (privateOf threeFollows)) 0 1000 = 1 := by decide
  have next : fatChain threeFollows (2 : Nat) 1 = 3 := by decide
  refine (readTiles_iff threeFollows (by decide) 0#32 2 0 1000 (by decide) (by decide) (by decide) ?_ 0#32).mpr
    ⟨Or.inl (by decide), ?_⟩
  · intro i inside
    rw [two] at inside
    obtain rfl : i = 0 := by omega
    rw [next]
    exact ⟨by decide, by decide⟩
  · intro i inside
    rw [two] at inside
    obtain rfl : i = 0 := by omega
    rw [next, ShortMark]
    decide

/-- A read of 512 bytes from the middle of the first cluster asks for the
first half of whatever cluster comes next on the disk. -/
theorem readTiles_fails_midCluster :
    ChainReaches threeFollows 2 256 512 ∧ ¬ ReadTiles threeFollows 0#32 2 256 512 0#32 := by
  have reaches : ChainReaches threeFollows 2 256 512 := by
    intro i inside
    have first : i = 0 := by
      have two : lastNumber (sizeOfClusterBytes (privateOf threeFollows)) 256 512 = 1 := by decide
      omega
    subst first
    have next : fatChain threeFollows 2 1 = 3 := by decide
    rw [DataCluster]
    change 2 ≤ fatChain threeFollows 2 1 ∧ fatChain threeFollows 2 1 ≤ 0xFFEF
    rw [next]
    decide
  refine ⟨reaches, ?_⟩
  rintro ⟨reading, same, serves⟩
  have within := (served_step (by decide) (SameVolume.refl threeFollows) (by decide) (by decide) (by decide) reaches
    same serves).1
  exact absurd within (by decide)

end Fs
end LarvaOS
