import LarvaOS.Fs.ChainReads
import LarvaOS.Fs.Layout
import LarvaOS.Fs.OpenRoot

namespace LarvaOS
namespace Fs

open Library Disk Memory

/-!
# Reading a file

`fread` reads item by item, and each item anew: it looks up the first cluster,
walks the chain to the offset and is cut into chunks from there.  A call that
finds every entry it looks up, and crosses no boundary that a chunk cannot cross,
fills the buffer with the bytes of the file.  The length of the file plays no
part, and the position stays where it was.
-/

/-! ## The items of a read -/

/-- The buffer lies apart from the copy of the directory entry that the item of
a descriptor holds. -/
def BufferApart (kernel : Kernel) (p out : Word) (count : Nat) : Prop :=
  forall place, place < slotSize ->
    count ≤ ((kernel.fatItems (kernel.fatFileDescriptors p).item).pointer + BitVec.ofNat 32 place - out).toNat

/-- The position of byte `k` of a read of items. -/
def itemPosition (kernel : Kernel) (cluster : Nat) (offset : Int) (size place : Nat) : Int :=
  readPosition kernel cluster (offset + (size * (place / size) : Nat)) (place % size)

section Items

variable {kernel after : Kernel} {cluster : Nat} {offset : Int} {p size out : Word}

theorem Transferred.fatFileDescriptors (transferred : Transferred kernel after) :
    after.fatFileDescriptors = kernel.fatFileDescriptors := by
  rcases transferred with ⟨_, _, rfl⟩
  rfl

/-- Filling the buffer leaves the copy of the directory entry as it was. -/
theorem Filled.slotOf {count : Nat} {content : Nat -> Byte} (filled : Filled kernel after out count content)
    (apart : BufferApart kernel p out count) : SameSlot (slotOf after p) (slotOf kernel p) := by
  intro place below
  unfold Fs.slotOf slotAt
  rw [filled.transferred.fatFileDescriptors, filled.transferred.fatItems]
  exact filled.bytes.outside _ (apart place below)

theorem readPosition_sameVolume (same : SameVolume kernel after) (place : Nat) :
    readPosition after cluster offset place = readPosition kernel cluster offset place := by
  unfold readPosition
  dsimp only
  rw [same.fatPrivate, chunkStart_sameVolume same]

theorem Chunked.sameVolume {total : Int} (same : SameVolume kernel after) (chunked : Chunked kernel cluster offset total) :
    Chunked after cluster offset total := by
  have chain : forall i, fatChain after cluster i = fatChain kernel cluster i := fatChain_sameVolume same cluster
  refine ⟨chunked.lower, chunked.bound, ?_, ?_, ?_⟩
  · rw [same.fatPrivate]
    intro i inside
    rw [chain]
    exact chunked.passes i inside
  · rw [same.fatPrivate]
    intro i inside
    rw [chain]
    exact chunked.reaches i inside
  · rw [same.fatPrivate]
    intro number inside
    rw [chunkStart_sameVolume same]
    exact chunked.straight number inside

/-- As many steps as there are bytes are enough. -/
theorem clusters_enough {clusterSize total : Int} (positive : 0 < clusterSize) :
    total ≤ clusterSize * (total.toNat + 1 : Nat) := by
  have small : (1 : Int) * (total.toNat + 1 : Nat) ≤ clusterSize * (total.toNat + 1 : Nat) :=
    Int.mul_le_mul_of_nonneg_right positive (Int.natCast_nonneg _)
  omega

/-- One item of a read. -/
theorem fat16ReadInternal_filled {total : Int} (positive : 0 < sizeOfClusterBytes (privateOf kernel)) (asked : 0 < total)
    (chunked : Chunked kernel cluster offset total) (out : Word) :
    exists reading, fat16ReadInternal kernel cluster offset total out = some reading ∧ reading.res = 0 ∧
      Filled kernel reading.kernel out total.toNat fun place =>
        (driveOf kernel).byteAt (readPosition kernel cluster offset place) :=
  readClusters_filled total.toNat positive asked (clusters_enough positive) chunked _ out

/-- Behind the first item the positions are those of a read that begins one item
later. -/
theorem itemPosition_next (same : SameVolume kernel after) {size place : Nat} (positive : 0 < size)
    (behind : size ≤ place) :
    itemPosition after cluster (offset + size) size (place - size) = itemPosition kernel cluster offset size place := by
  have whole : place = place - size + size := by omega
  have quotient : place / size = (place - size) / size + 1 := by
    rw [← Nat.add_div_right (place - size) positive, ← whole]
  have remainder : place % size = (place - size) % size := by
    rw [← Nat.add_mod_right (place - size) size, ← whole]
  unfold itemPosition
  rw [readPosition_sameVolume same, quotient, remainder, Nat.mul_add, Nat.mul_one, Int.natCast_add, Int.add_assoc,
    Int.add_comm (size : Int)]

theorem itemPosition_first {size place : Nat} (inside : place < size) :
    itemPosition kernel cluster offset size place = readPosition kernel cluster offset place := by
  unfold itemPosition
  rw [Nat.div_eq_of_lt inside, Nat.mod_eq_of_lt inside, Nat.mul_zero, Int.natCast_zero, Int.add_zero]

/-- A read of items whose chunks are all straight fills the buffer item by
item. -/
theorem readItems_filled (remaining : Nat) (positive : 0 < sizeOfClusterBytes (privateOf kernel))
    (asked : 0 < size.toNat) (signed : wordToInt size = size.toNat)
    (first : fat16GetFirstCluster (slotOf kernel p) = cluster) (fits : size.toNat * remaining ≤ 2 ^ 32)
    (apart : BufferApart kernel p out (size.toNat * remaining))
    (chunked : forall item, item < remaining ->
      Chunked kernel cluster (offset + (size.toNat * item : Nat)) size.toNat) :
    exists after, readItems p size remaining kernel offset out = some (0, after) ∧
      Filled kernel after out (size.toNat * remaining) fun place =>
        (driveOf kernel).byteAt (itemPosition kernel cluster offset size.toNat place) := by
  induction remaining generalizing kernel offset out with
  | zero => exact ⟨kernel, rfl, Transferred.refl kernel, Fills.empty _ _ _⟩
  | succ remaining inductionHypothesis =>
      have here := chunked 0 (Nat.succ_pos remaining)
      rw [Nat.mul_zero, Int.natCast_zero, Int.add_zero] at here
      rcases fat16ReadInternal_filled positive (Int.natCast_pos.mpr asked) here out with ⟨reading, read, res, filled⟩
      rw [Int.toNat_natCast] at filled
      rw [Nat.mul_add, Nat.mul_one] at fits apart
      have volume := filled.sameVolume
      have sameSlot := filled.slotOf fun place below => Nat.le_trans (Nat.le_add_left _ _) (apart place below)
      -- The offset of the next item, where there is one.
      have small : 0 < remaining -> wrapInt (offset + size.toNat) = offset + size.toNat := by
        intro more
        have next := chunked 1 (Nat.succ_lt_succ more)
        have lower := here.lower
        have bound := next.bound
        rw [Nat.mul_one] at bound
        exact wrapInt_of_small (by omega) (by omega)
      have apartNext : BufferApart reading.kernel p (out + size) (size.toNat * remaining) := by
        intro place below
        have whole := apart place below
        rw [filled.transferred.fatFileDescriptors, filled.transferred.fatItems]
        generalize (kernel.fatItems (kernel.fatFileDescriptors p).item).pointer + BitVec.ofNat 32 place = address at *
        rw [BitVec.toNat_sub] at whole
        rw [BitVec.toNat_sub, BitVec.toNat_add]
        omega
      have chunkedNext : forall item, item < remaining -> Chunked reading.kernel cluster
          (wrapInt (offset + size.toNat) + (size.toNat * item : Nat)) size.toNat := by
        intro item below
        have next := (chunked (item + 1) (Nat.succ_lt_succ below)).sameVolume volume
        rw [Nat.mul_add, Nat.mul_one, Int.natCast_add, Int.add_comm (size.toNat * item : Nat), ← Int.add_assoc] at next
        rw [small (Nat.zero_lt_of_lt below)]
        exact next
      have positiveNext : 0 < sizeOfClusterBytes (privateOf reading.kernel) := by
        rw [volume.fatPrivate]
        exact positive
      rcases inductionHypothesis positiveNext (sameSlot.firstCluster.trans first) (by omega) apartNext chunkedNext with
        ⟨after, rest, restFilled⟩
      have step : readItems p size (remaining + 1) kernel offset out = some (0, after) := by
        rw [readItems, first, signed, read, Option.bind_some, res, if_neg (Int.lt_irrefl 0)]
        exact rest
      have along : out + size = out + BitVec.ofNat 32 size.toNat := by
        rw [BitVec.ofNat_toNat, BitVec.setWidth_eq]
      rw [along] at restFilled
      have both := filled.append restFilled (by omega)
      refine ⟨after, step, both.transferred, ?_⟩
      rw [Nat.mul_add, Nat.mul_one, Nat.add_comm (size.toNat * remaining)]
      refine both.bytes.congr fun place below => ?_
      by_cases early : place < size.toNat
      · rw [if_pos early, itemPosition_first early]
      · have more : 0 < remaining := by
          refine Nat.pos_of_ne_zero fun none => ?_
          rw [none, Nat.mul_zero] at below
          omega
        rw [if_neg early, volume.drive, small more, itemPosition_next volume asked (Nat.le_of_not_lt early)]

end Items

/-! ## The bytes of a file -/

/-- The position of a byte of a file, by its number. -/
def storedPosition (drive : Drive) (header : Nat -> Byte) (first place : Int) : Int :=
  clusterStart header (storedCluster drive header first (place / clusterBytes header).toNat) +
    place % clusterBytes header

theorem storedByte_eq (drive : Drive) (header : Nat -> Byte) (first place : Int) :
    storedByte drive header first place = drive.byteAt (storedPosition drive header first place) := rfl

theorem clusterStart_eq (header : Nat -> Byte) (cluster : Int) :
    clusterStart header cluster = clusterSector header cluster * DISK_SECTOR_SIZE := by
  unfold clusterStart dataPosition clusterBytes clusterSector dataSector rootDirSectors rootDirStart
  rw [Int.add_mul, Int.add_mul, Int.mul_assoc]

/-- Clusters that follow each other in number lie behind each other. -/
theorem clusterStart_succ (header : Nat -> Byte) (cluster : Int) :
    clusterStart header (cluster + 1) = clusterStart header cluster + clusterBytes header := by
  have step : cluster + 1 - 2 = cluster - 2 + 1 := by omega
  unfold clusterStart
  rw [step, Int.add_mul, Int.one_mul]
  omega

/-- The place of a byte of a chunk that begins in the middle of a cluster: it is
in that cluster, or in the next one, and the latter should be the next one of the
chain. -/
theorem storedPosition_chunk {drive : Drive} {header : Nat -> Byte} {first offset : Int} {number place : Nat}
    (positive : 0 < clusterBytes header) (lower : 0 ≤ offset) (below : (place : Int) < clusterBytes header)
    (together : clusterBytes header ≤ offset % clusterBytes header + place ->
      storedCluster drive header first ((offset / clusterBytes header).toNat + number + 1) =
        storedCluster drive header first ((offset / clusterBytes header).toNat + number) + 1) :
    storedPosition drive header first (offset + clusterBytes header * number + place) =
      clusterStart header (storedCluster drive header first ((offset / clusterBytes header).toNat + number)) +
        offset % clusterBytes header + place := by
  have natural : 0 ≤ offset / clusterBytes header := Int.ediv_nonneg lower (Int.le_of_lt positive)
  have remainder := Int.emod_nonneg offset (Int.ne_of_gt positive)
  have small := Int.emod_lt_of_pos offset positive
  have whole := Int.emod_add_mul_ediv offset (clusterBytes header)
  unfold storedPosition
  by_cases crosses : clusterBytes header ≤ offset % clusterBytes header + place
  · have split := (Int.ediv_emod_unique positive (a := offset + clusterBytes header * number + place)
      (r := offset % clusterBytes header + place - clusterBytes header)
      (q := offset / clusterBytes header + number + 1)).mpr ⟨by rw [Int.mul_add, Int.mul_add]; omega, by omega, by omega⟩
    have index : (offset / clusterBytes header + number + 1).toNat = (offset / clusterBytes header).toNat + number + 1 := by
      omega
    rw [split.1, split.2, index, together crosses, clusterStart_succ]
    omega
  · have split := (Int.ediv_emod_unique positive (a := offset + clusterBytes header * number + place)
      (r := offset % clusterBytes header + place) (q := offset / clusterBytes header + number)).mpr
        ⟨by rw [Int.mul_add]; omega, by omega, by omega⟩
    have index : (offset / clusterBytes header + number).toNat = (offset / clusterBytes header).toNat + number := by
      omega
    rw [split.1, split.2, index]
    omega

/-- What it takes for `total` bytes from an offset on to be read as they are
stored: each entry that is looked up is found where `fat16_get_fat_entry` looks
for it, and is no mark of 12 bits; a read that begins within a cluster goes on
into clusters that lie behind each other, and one that begins within a sector
ends there; every number fits an `int`. -/
structure FindsBytes (kernel : Kernel) (header : Nat -> Byte) (first offset total : Int) : Prop where
  lookups : forall i, i < lastChunk (clusterBytes header) offset total ->
    fatEntryOf (driveOf kernel) (privateOf kernel) (storedCluster (driveOf kernel) header first i) =
      storedCluster (driveOf kernel) header first (i + 1)
  unmarked : forall i, i < lastChunk (clusterBytes header) offset total ->
    ¬ ShortMark (storedCluster (driveOf kernel) header first (i + 1))
  together : offset % clusterBytes header ≠ 0 -> forall i, (offset / clusterBytes header).toNat ≤ i ->
    i < lastNumber (clusterBytes header) offset total ->
      storedCluster (driveOf kernel) header first (i + 1) = storedCluster (driveOf kernel) header first i + 1
  sectors : ReadsWithinSectors offset total
  bound : offset + total ≤ 2 ^ 31
  positions : forall place, 0 ≤ place -> place < total ->
    storedPosition (driveOf kernel) header first (offset + place) < 2 ^ 31

/-- A read of the first cluster looks nothing up. -/
theorem FindsBytes.inFirstCluster {kernel : Kernel} {header : Nat -> Byte} {first offset total : Int}
    (lower : 0 ≤ offset) (asked : 0 < total) (inside : offset + total ≤ clusterBytes header)
    (sectors : ReadsWithinSectors offset total) (near : clusterStart header first + clusterBytes header ≤ 2 ^ 31)
    (short : clusterBytes header ≤ 2 ^ 31) : FindsBytes kernel header first offset total := by
  have begins : offset / clusterBytes header = 0 := Int.ediv_eq_zero_of_lt lower (by omega)
  have chunk : (total - 1) / clusterBytes header = 0 := Int.ediv_eq_zero_of_lt (by omega) (by omega)
  have ends : (offset + total - 1) / clusterBytes header = 0 := Int.ediv_eq_zero_of_lt (by omega) (by omega)
  have noChunk : lastChunk (clusterBytes header) offset total = 0 := by
    rw [lastChunk, begins, chunk]
    rfl
  have noNumber : lastNumber (clusterBytes header) offset total = 0 := by
    rw [lastNumber, ends]
    rfl
  refine ⟨?_, ?_, ?_, sectors, by omega, ?_⟩
  · rw [noChunk]
    exact fun i below => absurd below (Nat.not_lt_zero i)
  · rw [noChunk]
    exact fun i below => absurd below (Nat.not_lt_zero i)
  · rw [noNumber]
    exact fun _ i _ below => absurd below (Nat.not_lt_zero i)
  · intro place natural below
    have number : (offset + place) / clusterBytes header = 0 := Int.ediv_eq_zero_of_lt (by omega) (by omega)
    have rest : (offset + place) % clusterBytes header = offset + place := Int.emod_eq_of_lt (by omega) (by omega)
    rw [storedPosition, number, rest]
    change clusterStart header first + (offset + place) < 2 ^ 31
    omega

/-- The next cluster of a chain, as it is looked up. -/
theorem fatChain_succ (kernel : Kernel) (start : Int) (number : Nat) :
    fatChain kernel start (number + 1) = fatEntryOf (driveOf kernel) (privateOf kernel) (fatChain kernel start number) := by
  have volume : SameVolume kernel (chainFrom fat16GetFatEntry kernel start number).1 := by
    induction number with
    | zero => exact SameVolume.refl kernel
    | succ number inductionHypothesis => exact inductionHypothesis.trans (fat16GetFatEntry_sameVolume _ _)
  change (fat16GetFatEntry (chainFrom fat16GetFatEntry kernel start number).1 (fatChain kernel start number)).1 = _
  rw [fat16GetFatEntry_value, volume.drive, volume.fatPrivate]

theorem storedCluster_nonneg (drive : Drive) (header : Nat -> Byte) {first : Int} (lower : 0 ≤ first) (number : Nat) :
    0 ≤ storedCluster drive header first number := by
  cases number with
  | zero => exact lower
  | succ number => exact Int.natCast_nonneg _

section Stored

variable {booted kernel : Kernel} {first : Nat} {offset total : Int}

/-- As far as the entries are found, the chain is the stored one. -/
theorem FindsBytes.chain (finds : FindsBytes kernel (bootSector booted) first offset total) {number : Nat}
    (inside : number ≤ lastChunk (clusterBytes (bootSector booted)) offset total) :
    fatChain kernel first number = storedCluster (driveOf kernel) (bootSector booted) first number := by
  induction number with
  | zero => rfl
  | succ number inductionHypothesis =>
      rw [fatChain_succ, inductionHypothesis (Nat.le_of_succ_le inside)]
      exact finds.lookups number inside

/-- The chunks end no later than the bytes. -/
theorem chunk_le_lastChunk (offset : Int) {size : Int} (positive : 0 < size) {number : Nat} (inside : size * number < total) :
    (offset / size).toNat + number ≤ lastChunk size offset total := by
  have least : (number : Int) ≤ (total - 1) / size := by
    rw [Int.le_ediv_iff_mul_le positive, Int.mul_comm]
    omega
  unfold lastChunk
  omega

theorem lastChunk_le_lastNumber {size : Int} (positive : 0 < size) (lower : 0 ≤ offset) (asked : 0 < total) :
    lastChunk size offset total ≤ lastNumber size offset total := by
  have whole := Int.emod_add_mul_ediv offset size
  have rest := Int.emod_add_mul_ediv (total - 1) size
  have remainder := Int.emod_nonneg offset (Int.ne_of_gt positive)
  have remainder' := Int.emod_nonneg (total - 1) (Int.ne_of_gt positive)
  have natural : 0 ≤ offset / size := Int.ediv_nonneg lower (Int.le_of_lt positive)
  have natural' : 0 ≤ (total - 1) / size := Int.ediv_nonneg (by omega) (Int.le_of_lt positive)
  have least : offset / size + (total - 1) / size ≤ (offset + total - 1) / size := by
    rw [Int.le_ediv_iff_mul_le positive, Int.mul_comm, Int.mul_add]
    omega
  unfold lastChunk lastNumber
  omega

section Finding

variable (volume : Resolved booted kernel) (whole : RootDirWhole (bootSector booted))
  (positive : 0 < clusterBytes (bootSector booted)) (lower : 0 ≤ offset)
  (data : forall i, i ≤ lastNumber (clusterBytes (bootSector booted)) offset total ->
    DataCluster (storedCluster (driveOf kernel) (bootSector booted) first i))
  (finds : FindsBytes kernel (bootSector booted) first offset total)
include positive lower finds

/-- The place of byte `place` of a chunk. -/
theorem FindsBytes.inChunk (number place : Nat) (below : (place : Int) < clusterBytes (bootSector booted))
    (inside : clusterBytes (bootSector booted) * number + place < total) :
    storedPosition (driveOf kernel) (bootSector booted) first
        (offset + clusterBytes (bootSector booted) * number + place) =
      clusterStart (bootSector booted) (storedCluster (driveOf kernel) (bootSector booted) first
        ((offset / clusterBytes (bootSector booted)).toNat + number)) +
          offset % clusterBytes (bootSector booted) + place := by
  refine storedPosition_chunk positive lower below fun crosses => ?_
  have split := Int.emod_add_mul_ediv offset (clusterBytes (bootSector booted))
  have natural : 0 ≤ offset / clusterBytes (bootSector booted) := Int.ediv_nonneg lower (Int.le_of_lt positive)
  have behind : offset / clusterBytes (bootSector booted) + number + 1 ≤
      (offset + total - 1) / clusterBytes (bootSector booted) := by
    rw [Int.le_ediv_iff_mul_le positive, Int.mul_comm, Int.mul_add, Int.mul_add]
    omega
  refine finds.together (by omega) _ (Nat.le_add_right _ _) ?_
  unfold lastNumber
  omega

include volume whole data

/-- A chunk begins at the byte that it should begin with. -/
theorem FindsBytes.chunkBegins (number : Nat) (inside : clusterBytes (bootSector booted) * number < total) :
    0 ≤ chunkStart kernel first offset number ∧
      chunkStart kernel first offset number = clusterStart (bootSector booted) (storedCluster (driveOf kernel)
        (bootSector booted) first ((offset / clusterBytes (bootSector booted)).toNat + number)) +
          offset % clusterBytes (bootSector booted) := by
  have size : sizeOfClusterBytes (privateOf kernel) = clusterBytes (bootSector booted) := sizeOfClusterBytes_resolved volume
  have product : 0 ≤ clusterBytes (bootSector booted) * number :=
    Int.mul_nonneg (Int.le_of_lt positive) (Int.natCast_nonneg _)
  have last := chunk_le_lastChunk offset positive inside
  have within := Nat.le_trans last (lastChunk_le_lastNumber positive lower (by omega))
  have cluster := dataSector_le_clusterSector (bootSector booted) (data _ within).1
  have sector := (dataSector_bound (bootSector booted)).1
  have begins := clusterStart_eq (bootSector booted) (storedCluster (driveOf kernel) (bootSector booted) first
    ((offset / clusterBytes (bootSector booted)).toNat + number))
  have remainder := Int.emod_nonneg offset (Int.ne_of_gt positive)
  have place := FindsBytes.inChunk positive lower finds number 0 (by omega) (by omega)
  have bound := finds.positions (clusterBytes (bootSector booted) * number) product inside
  rw [Int.natCast_zero, Int.add_zero, Int.add_zero] at place
  rw [place] at bound
  unfold DISK_SECTOR_SIZE at begins
  have exact : chunkStart kernel first offset number = clusterStart (bootSector booted) (storedCluster (driveOf kernel)
      (bootSector booted) first ((offset / clusterBytes (bootSector booted)).toNat + number)) +
        offset % clusterBytes (bootSector booted) := by
    unfold chunkStart
    dsimp only
    rw [size, finds.chain last, clusterPosition_resolved volume, if_pos whole, Int.sub_zero, ← clusterStart_eq]
    exact wrapInt_of_small (by omega) bound
  exact ⟨by omega, exact⟩

/-- Byte `place` of the read is read where it is stored. -/
theorem FindsBytes.bytePosition {place : Nat} (inside : (place : Int) < total) :
    readPosition kernel first offset place =
      storedPosition (driveOf kernel) (bootSector booted) first (offset + place) := by
  have size : sizeOfClusterBytes (privateOf kernel) = clusterBytes (bootSector booted) := sizeOfClusterBytes_resolved volume
  have split := Nat.div_add_mod place (clusterBytes (bootSector booted)).toNat
  have below := Nat.mod_lt place (Int.pos_iff_toNat_pos.mp positive)
  have split' : clusterBytes (bootSector booted) * (place / (clusterBytes (bootSector booted)).toNat : Nat) +
      (place % (clusterBytes (bootSector booted)).toNat : Nat) = place := by
    have cast := congrArg Int.ofNat split
    simp only [Int.ofNat_eq_natCast] at cast
    rw [Int.natCast_add, Int.natCast_mul, Int.toNat_of_nonneg (Int.le_of_lt positive)] at cast
    exact cast
  have start := FindsBytes.chunkBegins volume whole positive lower data finds
    (place / (clusterBytes (bootSector booted)).toNat) (by omega)
  have within := FindsBytes.inChunk positive lower finds (place / (clusterBytes (bootSector booted)).toNat)
    (place % (clusterBytes (bootSector booted)).toNat) (by omega) (by omega)
  unfold readPosition
  rw [size]
  dsimp only
  rw [start.2, ← within, Int.add_assoc offset, split']

/-- The chunks of the read are straight. -/
theorem FindsBytes.chunked (asked : 0 < total) : Chunked kernel first offset total := by
  have size : sizeOfClusterBytes (privateOf kernel) = clusterBytes (bootSector booted) := sizeOfClusterBytes_resolved volume
  refine ⟨lower, finds.bound, ?_, ?_, ?_⟩
  · rw [size]
    intro i inside
    have bounds := data (i + 1) (Nat.le_trans inside (lastChunk_le_lastNumber positive lower asked))
    rw [finds.chain inside, chainStops_eq_false]
    refine ⟨finds.unmarked i inside, fun free => ?_⟩
    rw [free] at bounds
    exact absurd bounds.1 (by decide)
  · rw [size]
    intro i inside
    rw [finds.chain inside]
    exact storedCluster_nonneg _ _ (Int.natCast_nonneg first) i
  · rw [size]
    intro number inside
    have begins := FindsBytes.chunkBegins volume whole positive lower data finds number inside
    have natural : 0 ≤ clusterBytes (bootSector booted) * number :=
      Int.mul_nonneg (Int.le_of_lt positive) (Int.natCast_nonneg _)
    have shorter := chunkLength_le (clusterBytes (bootSector booted)) (total - clusterBytes (bootSector booted) * number)
    have some : 0 < chunkLength (clusterBytes (bootSector booted)) (total - clusterBytes (bootSector booted) * number) := by
      unfold chunkLength
      split <;> omega
    generalize chunkLength (clusterBytes (bootSector booted)) (total - clusterBytes (bootSector booted) * number) =
      length at *
    have last := FindsBytes.inChunk positive lower finds number (length - 1).toNat (by omega) (by omega)
    have bound := finds.positions (clusterBytes (bootSector booted) * number + (length - 1).toNat) (by omega) (by omega)
    have start := clusterStart_eq (bootSector booted) (storedCluster (driveOf kernel) (bootSector booted) first
      ((offset / clusterBytes (bootSector booted)).toNat + number))
    have sectors := finds.sectors
    have multiple : offset % clusterBytes (bootSector booted) % 512 = offset % 512 :=
      Int.emod_emod_of_dvd offset (Int.dvd_mul_left _ _)
    rw [← Int.add_assoc, last] at bound
    unfold DISK_SECTOR_SIZE at start
    unfold ReadsWithinSectors at sectors
    refine ⟨begins.1, by omega, ?_⟩
    unfold ReadsWithinSectors
    omega

end Finding

end Stored

/-! ## The call -/

/-- The chain on the disk of a file, of at least its length. -/
structure StoredFile (drive : Drive) (header : Nat -> Byte) (slot : Slot) where
  chain : StoredChain drive header
  first : chain.first = slot.low16BitsFirstCluster
  covers : (slot.filesize : Int) ≤ chain.length * clusterBytes header

/-- The directory entry of an open file. -/
def fileSlot (kernel : Kernel) (fd : Int) : Slot := slotOf kernel (fileData kernel fd)

/-- A byte of an open file, by its number. -/
def fileByte (header : Nat -> Byte) (kernel : Kernel) (fd : Int) (place : Int) : Byte :=
  storedByte (driveOf kernel) header (fileSlot kernel fd).low16BitsFirstCluster place

/-- What `fread` promises of a request that ends within the file. -/
def FreadDelivers (header : Nat -> Byte) (kernel : Kernel) (fd : Int) (ptr size nmemb : Word) : Prop :=
  exists after, fread kernel fd ptr size nmemb = some ((nmemb.toNat : Int), after) ∧
    Fills kernel.bytes after.bytes ptr (size.toNat * nmemb.toNat) fun place =>
      fileByte header kernel fd (filePosition kernel fd + place)

/-- Each item of a request is read as it is stored. -/
structure FindsItems (header : Nat -> Byte) (kernel : Kernel) (fd : Int) (size nmemb : Word) : Prop where
  whole : RootDirWhole header
  first : fat16GetFirstCluster (fileSlot kernel fd) = (fileSlot kernel fd).low16BitsFirstCluster
  signed : size.toNat < 2 ^ 31 ∧ nmemb.toNat < 2 ^ 31
  items : forall item, item < nmemb.toNat ->
    FindsBytes kernel header (fileSlot kernel fd).low16BitsFirstCluster
      (filePosition kernel fd + (size.toNat * item : Nat)) size.toNat

section Calls

variable {kernel : Kernel} {fd : Int} {ptr size nmemb : Word}

theorem OpenFile.positive (opened : OpenFile kernel fd) : 0 < fd := by
  by_contra negative
  refine opened.descriptor ?_
  unfold getFileDescriptor
  rw [if_pos (by omega)]

/-- The request passes the checks of `fread`. -/
theorem OpenFile.accepts (opened : OpenFile kernel fd) (some : 0 < size.toNat) (items : 0 < nmemb.toNat) :
    ¬ (fd < 1 ∨ size = 0#32 ∨ nmemb = 0#32) := by
  rintro (negative | rfl | rfl)
  · exact absurd negative (Int.not_lt.mpr opened.positive)
  · exact absurd some (by decide)
  · exact absurd items (by decide)

theorem fread_eq (opened : OpenFile kernel fd) (some : 0 < size.toNat) (items : 0 < nmemb.toNat) :
    fread kernel fd ptr size nmemb = fat16Read kernel (fileData kernel fd) size nmemb ptr := by
  unfold fread
  rw [if_neg (opened.accepts some items)]
  simp only [opened.descriptor, if_false]
  rfl

/-- A read of items, as it is stored. -/
theorem itemPosition_stored {header : Nat -> Byte} {first count place : Nat} {offset : Int} (asked : 0 < count)
    (found : forall item, item < nmemb.toNat -> forall within, within < count ->
      readPosition kernel first (offset + (count * item : Nat)) within =
        storedPosition (driveOf kernel) header first (offset + (count * item : Nat) + within))
    (inside : place < count * nmemb.toNat) :
    itemPosition kernel first offset count place = storedPosition (driveOf kernel) header first (offset + place) := by
  have split := Nat.div_add_mod place count
  have cast := congrArg Int.ofNat split
  simp only [Int.ofNat_eq_natCast] at cast
  rw [Int.natCast_add] at cast
  unfold itemPosition
  rw [found (place / count) (Nat.div_lt_of_lt_mul inside) (place % count) (Nat.mod_lt place asked), Int.add_assoc, cast]

/-- The clusters of a range of the file are data clusters. -/
theorem StoredFile.data {drive : Drive} {header : Nat -> Byte} {slot : Slot} (file : StoredFile drive header slot)
    (positive : 0 < clusterBytes header) {offset total : Int} (lower : 0 ≤ offset) (asked : 0 < total)
    (inside : offset + total ≤ slot.filesize) (i : Nat) (below : i ≤ lastNumber (clusterBytes header) offset total) :
    DataCluster (storedCluster drive header slot.low16BitsFirstCluster i) := by
  have natural : 0 ≤ (offset + total - 1) / clusterBytes header :=
    Int.ediv_nonneg (by omega) (Int.le_of_lt positive)
  have bound : (offset + total - 1) / clusterBytes header < file.chain.length := by
    rw [Int.ediv_lt_iff_lt_mul positive]
    have covers := file.covers
    omega
  unfold lastNumber at below
  rw [← file.first]
  exact file.chain.data i (by omega)

theorem clusterBytes_pos {header : Nat -> Byte} (sized : FatHeader.sectorsPerCluster header ≠ 0) :
    0 < clusterBytes header := by
  have bound := sectorsPerCluster_bound header
  unfold clusterBytes DISK_SECTOR_SIZE
  omega

/-- The clusters of a request within the file are data clusters. -/
theorem StoredFile.requestData {header : Nat -> Byte}
    (file : StoredFile (driveOf kernel) header (fileSlot kernel fd))
    (sized : FatHeader.sectorsPerCluster header ≠ 0) (some : 0 < size.toNat) (items : 0 < nmemb.toNat)
    (inside : filePosition kernel fd + size.toNat * nmemb.toNat ≤ fileLength kernel fd) (i : Nat)
    (below : i ≤ lastNumber (clusterBytes header) (filePosition kernel fd) (size.toNat * nmemb.toNat : Nat)) :
    DataCluster (storedCluster (driveOf kernel) header (fileSlot kernel fd).low16BitsFirstCluster i) := by
  have filesize : fileLength kernel fd = (fileSlot kernel fd).filesize := rfl
  have asked : 0 < size.toNat * nmemb.toNat := Nat.mul_pos some items
  exact file.data (clusterBytes_pos sized) (by omega) (by omega) (by omega) i below

/-- The last cluster of an item is no later than that of the request. -/
theorem lastNumber_item {clusterSize offset : Int} {count item total : Nat} (positive : 0 < clusterSize)
    (inside : count * item + count ≤ total) :
    lastNumber clusterSize (offset + (count * item : Nat)) count ≤ lastNumber clusterSize offset total := by
  have ordered : (offset + (count * item : Nat) + count - 1) / clusterSize ≤ (offset + total - 1) / clusterSize :=
    Int.ediv_le_ediv positive (by omega)
  unfold lastNumber
  omega

section Delivering

variable {booted : Kernel} (volume : Resolved booted kernel)
  (sized : FatHeader.sectorsPerCluster (bootSector booted) ≠ 0) (some : 0 < size.toNat) (items : 0 < nmemb.toNat)
include volume sized some items

/-- The items of a request whose clusters are data clusters. -/
theorem FindsItems.chunked (finds : FindsItems (bootSector booted) kernel fd size nmemb)
    (data : forall i, i ≤ lastNumber (clusterBytes (bootSector booted)) (filePosition kernel fd)
        (size.toNat * nmemb.toNat : Nat) ->
      DataCluster (storedCluster (driveOf kernel) (bootSector booted) (fileSlot kernel fd).low16BitsFirstCluster i)) :
    exists cluster : Nat, (fileSlot kernel fd).low16BitsFirstCluster = cluster ∧
      fat16GetFirstCluster (slotOf kernel (fileData kernel fd)) = cluster ∧
      wordToInt (kernel.fatFileDescriptors (fileData kernel fd)).pos = filePosition kernel fd ∧
      forall item, item < nmemb.toNat ->
        Chunked kernel cluster (filePosition kernel fd + (size.toNat * item : Nat)) size.toNat ∧
        forall within, within < size.toNat ->
          readPosition kernel cluster (filePosition kernel fd + (size.toNat * item : Nat)) within =
            storedPosition (driveOf kernel) (bootSector booted) cluster
              (filePosition kernel fd + (size.toNat * item : Nat) + within) := by
  have positive := clusterBytes_pos sized
  have start := (finds.items 0 items).bound
  have natural : 0 ≤ (fileSlot kernel fd).low16BitsFirstCluster := Int.natCast_nonneg _
  have first := finds.first
  have found := finds.items
  obtain ⟨cluster, low⟩ := Int.eq_ofNat_of_zero_le natural
  rw [low] at first found data
  refine ⟨cluster, low, first, wordToInt_of_small ?_, fun item below => ?_⟩
  · unfold filePosition at start
    omega
  · have itemData : forall i,
        i ≤ lastNumber (clusterBytes (bootSector booted)) (filePosition kernel fd + (size.toNat * item : Nat)) size.toNat ->
          DataCluster (storedCluster (driveOf kernel) (bootSector booted) cluster i) := by
      intro i inside
      have within : size.toNat * item + size.toNat ≤ size.toNat * nmemb.toNat := by
        rw [← Nat.mul_succ]
        exact Nat.mul_le_mul_left _ below
      exact data i (Nat.le_trans inside (lastNumber_item positive within))
    exact ⟨FindsBytes.chunked volume finds.whole positive (by omega) itemData (found item below) (by omega),
      fun within smaller => FindsBytes.bytePosition volume finds.whole positive (by omega) itemData (found item below)
        (by omega)⟩

variable (opened : OpenFile kernel fd) (apart : BufferApart kernel (fileData kernel fd) ptr (size.toNat * nmemb.toNat))
include opened apart

/-- A request whose items are read as they are stored fills the buffer with what
is stored, be it within the file or behind its end. -/
theorem FindsItems.fread (finds : FindsItems (bootSector booted) kernel fd size nmemb)
    (fits : size.toNat * nmemb.toNat < 2 ^ 32)
    (data : forall i, i ≤ lastNumber (clusterBytes (bootSector booted)) (filePosition kernel fd)
        (size.toNat * nmemb.toNat : Nat) ->
      DataCluster (storedCluster (driveOf kernel) (bootSector booted) (fileSlot kernel fd).low16BitsFirstCluster i)) :
    exists after, Fs.fread kernel fd ptr size nmemb = Option.some ((nmemb.toNat : Int), after) ∧
      Filled kernel after ptr (size.toNat * nmemb.toNat) fun place =>
        fileByte (bootSector booted) kernel fd (filePosition kernel fd + place) := by
  have clusters : 0 < sizeOfClusterBytes (privateOf kernel) := by
    rw [sizeOfClusterBytes_resolved volume]
    exact clusterBytes_pos sized
  rcases finds.chunked volume sized some items data with ⟨cluster, low, first, position, chunks⟩
  rcases readItems_filled nmemb.toNat clusters some (wordToInt_of_small finds.signed.1) first (Nat.le_of_lt fits) apart
    fun item below => (chunks item below).1 with ⟨after, reads, filled⟩
  refine ⟨after, ?_, filled.transferred, filled.bytes.congr fun place below => ?_⟩
  · rw [fread_eq opened some items]
    unfold fat16Read
    dsimp only
    rw [position, reads, Option.map_some, if_neg (Int.lt_irrefl 0), wordToInt_of_small finds.signed.2]
  · rw [itemPosition_stored some (fun item below => (chunks item below).2) below]
    unfold fileByte
    rw [storedByte_eq, low]

variable (file : StoredFile (driveOf kernel) (bootSector booted) (fileSlot kernel fd))
include file

/-- Within the file there are the bytes of the file. -/
theorem FindsItems.freadFile (finds : FindsItems (bootSector booted) kernel fd size nmemb)
    (inside : filePosition kernel fd + size.toNat * nmemb.toNat ≤ fileLength kernel fd) :
    exists after, Fs.fread kernel fd ptr size nmemb = Option.some ((nmemb.toNat : Int), after) ∧
      Filled kernel after ptr (size.toNat * nmemb.toNat) fun place =>
        fileByte (bootSector booted) kernel fd (filePosition kernel fd + place) := by
  have length := fileLength_lt kernel fd
  exact finds.fread volume sized some items opened apart (by omega) (file.requestData sized some items inside)

end Delivering

end Calls

/-! ## Files of one and of two clusters -/

theorem SameSlot.low16BitsFirstCluster {slot slot' : Slot} (same : SameSlot slot slot') :
    slot.low16BitsFirstCluster = slot'.low16BitsFirstCluster := by
  unfold Slot.low16BitsFirstCluster halfWordAt
  rw [same 26 (by decide), same (26 + 1) (by decide)]

/-- The stored file, as the kernel has it. -/
def StoredFile.inKernel {drive drive' : Drive} {header : Nat -> Byte} {slot slot' : Slot}
    (file : StoredFile drive header slot) (disk : drive' = drive) (same : SameSlot slot' slot) :
    StoredFile drive' header slot' where
  chain := disk ▸ file.chain
  first := by
    subst disk
    exact file.first.trans same.low16BitsFirstCluster.symm
  covers := by
    subst disk
    rw [same.filesize]
    exact file.covers

/-- A buffer below the heap is apart from what an open file holds there. -/
theorem JustOpened.bufferApart {booted opened : Kernel} {fd : Int} {slot : Slot}
    (just : JustOpened booted opened fd slot) (kernelHeap : opened.heap.IsKernelHeap) {ptr : Word} {count : Nat}
    (below : ptr.toNat + count ≤ KERNEL_HEAP_START_ADDRESS.toNat) :
    BufferApart opened (fileData opened fd) ptr count := by
  rcases just.copy with ⟨extent, _, within⟩
  intro place inside
  have bounds := (within place inside).1
  rw [kernelHeap.start] at bounds
  generalize (opened.fatItems (opened.fatFileDescriptors (fileData opened fd)).item).pointer + BitVec.ofNat 32 place =
    address at *
  rw [BitVec.toNat_sub]
  omega

/-- A buffer that was allocated later lies apart from the file. -/
theorem HeldFile.bufferApart {kernel after : Kernel} {fd : Int} {slot : Slot} (held : HeldFile kernel fd slot)
    (placed : kernel.heap.WellPlaced) (keeps : KeepsObjects (fun _ => True) kernel after)
    (table : after.fileDescriptors = kernel.fileDescriptors) {ptr : Word} {count : Nat}
    (fresh : FreshRange (fun _ => True) kernel ptr count) : BufferApart after (fileData after fd) ptr count := by
  have data := (held.fileData_keep placed keeps table).2
  rcases held.opened.owned with ⟨extent, owned, address⟩
  rcases held.opened.item.owned with ⟨other, itemOwned, itemInside⟩
  rcases held.opened.item.copied with ⟨copy, copyOwned, within⟩
  have inside : kernel.heap.InExtent extent (fileData kernel fd) := by
    rw [address]
    exact inExtent_addressOf placed owned
  intro place below
  rw [data, (keeps.same extent trivial owned _ inside).fatFileDescriptors,
    (keeps.same other trivial itemOwned _ itemInside).fatItems]
  exact Nat.not_lt.mp fun covered => fresh _ covered copy trivial copyOwned (within place below)

/-- The chain of the file of a hundred bytes. -/
def fileChain : StoredFile (driveOf fileVolume) (bootSector fileVolume)
    ((storedRoot (driveOf fileVolume) (bootSector fileVolume)).slots 0) where
  chain :=
    { first := 2
      length := 1
      data := by
        unfold DataCluster
        decide
      ends := by decide }
  first := by decide
  covers := by decide

/-- A request from within the file of a hundred bytes. -/
theorem fileVolume_finds {booted opened : Kernel} {fd : Int}
    (just : JustOpened booted opened fd ((storedRoot (driveOf fileVolume) (bootSector fileVolume)).slots 0))
    {size nmemb : Word} (asked : 0 < size.toNat) (items : 0 < nmemb.toNat) (small : size.toNat * nmemb.toNat ≤ 512) :
    FindsItems (bootSector fileVolume) opened fd size nmemb := by
  have low : (fileSlot opened fd).low16BitsFirstCluster = 2 := just.slot.low16BitsFirstCluster.trans (by decide)
  have first : fat16GetFirstCluster (fileSlot opened fd) = 2 := just.slot.firstCluster.trans (by decide)
  have size512 : clusterBytes (bootSector fileVolume) = 512 := by decide
  have start : clusterStart (bootSector fileVolume) 2 = 2048 := by decide
  have sizeSmall := Nat.le_mul_of_pos_right size.toNat items
  have itemsSmall := Nat.le_mul_of_pos_left nmemb.toNat asked
  refine ⟨by decide, by rw [first, low], ⟨by omega, by omega⟩, ?_⟩
  intro item below
  have within : size.toNat * item + size.toNat ≤ 512 := by
    rw [← Nat.mul_succ]
    exact Nat.le_trans (Nat.mul_le_mul_left _ below) small
  rw [low, just.position]
  refine FindsBytes.inFirstCluster (by omega) (by omega) (by omega) (Or.inr ?_) (by omega) (by omega)
  omega

/-- A volume of one sector a cluster.  Its only file is `A`, of a thousand zeros
in the clusters 2 and 3. -/
abbrev pairSectors : Int -> Nat -> Byte := fun sector place =>
  if sector = 1 then if place = 4 then 3#8 else if place = 6 ∨ place = 7 then 0xFF#8 else 0#8
  else if sector = 3 ∧ place = 28 then 0xE8#8
  else if sector = 3 ∧ place = 29 then 0x03#8
  else if sector = 4 then 0#8
  else fileSectors sector place

/-- The loaded kernel. -/
abbrev pairVolume : Kernel := Kernel.loaded Store.blank pairSectors fun _ => 0#8

/-- The chain of that file. -/
def pairChain : StoredFile (driveOf pairVolume) (bootSector pairVolume)
    ((storedRoot (driveOf pairVolume) (bootSector pairVolume)).slots 0) where
  chain :=
    { first := 2
      length := 2
      data := by
        unfold DataCluster
        decide
      ends := by decide }
  first := by decide
  covers := by decide

theorem pairVolume_ends : RootEnds (driveOf pairVolume) (bootSector pairVolume) 1 :=
  ⟨⟨by decide, by decide⟩, by decide, by decide⟩

theorem pairVolume_opens : exists booted opened,
    boot pairVolume (fun _ => 0#8) = some booted ∧ fopen booted [forwardSlash, 0x41#8] [0x72#8] = some (1, opened) ∧
      Resolved pairVolume opened ∧ RoomFrom opened 1549 ∧
      JustOpened booted opened 1 ((storedRoot (driveOf pairVolume) (bootSector pairVolume)).slots 0) :=
  @onlyFile_opens pairSectors (fun _ => 0#8) (by decide) (by decide) (by decide) pairVolume_ends (by decide) [0x41#8]
    (by decide) (by decide) (by decide) (by decide) (by decide)

/-- The entry of cluster 2 is looked up at 2048, in the file itself. -/
theorem pairVolume_entry {kernel : Kernel} (volume : Resolved pairVolume kernel) :
    fatEntryOf (driveOf kernel) (privateOf kernel) 2 = 0 ∨ fatEntryOf (driveOf kernel) (privateOf kernel) 2 = - EIO := by
  have position : fatEntryPosition (privateOf kernel) 2 = 2048 := by
    rw [fatEntryPosition_eq, tablePosition, volume.header.reservedSectors]
    decide
  unfold fatEntryOf
  rw [position, volume.drive]
  by_cases none : (privateOf kernel).fatReadStream = 0#32
  · rw [if_pos none]
    exact Or.inr rfl
  · rw [if_neg none]
    exact Or.inl (by decide)

/-- The second cluster of that file is not found. -/
theorem pairVolume_refuses {kernel : Kernel} (volume : Resolved pairVolume kernel) :
    exists found, fat16GetClusterForOffset kernel 2 512 = some found ∧ found.1 < 0 := by
  have size : sizeOfClusterBytes (privateOf kernel) = 512 := (sizeOfClusterBytes_resolved volume).trans (by decide)
  have entry := pairVolume_entry volume
  rw [← fat16GetFatEntry_value] at entry
  refine ⟨followClusters fat16GetFatEntry 1 kernel 2, ?_, ?_⟩
  · unfold fat16GetClusterForOffset clusterForOffset
    rw [size]
    rfl
  · unfold followClusters followClusters
    dsimp only
    rcases entry with zero | failed
    · rw [zero, if_pos (by decide)]
      exact (by decide : - EIO < 0)
    · rw [failed, if_neg (by decide)]
      exact (by decide : - EIO < 0)

/-- A read of more than the first cluster of that file fails. -/
theorem pairVolume_fails {kernel : Kernel} (volume : Resolved pairVolume kernel) (out : Word) :
    exists reading, fat16ReadInternal kernel 2 0 1000 out = some reading ∧ reading.res < 0 := by
  have size : sizeOfClusterBytes (privateOf kernel) = 512 := (sizeOfClusterBytes_resolved volume).trans (by decide)
  have begins : (0 / sizeOfClusterBytes (privateOf kernel)).toNat = 0 := by
    rw [size]
    decide
  have passes : forall i, i < (0 / sizeOfClusterBytes (privateOf kernel)).toNat ->
      chainStops (fatChain kernel (2 : Nat) (i + 1)) = false := by
    rw [begins]
    exact fun i below => absurd below (Nat.not_lt_zero i)
  have arrived : 0 ≤ fatChain kernel (2 : Nat) (0 / sizeOfClusterBytes (privateOf kernel)).toNat := by
    rw [begins]
    exact Int.natCast_nonneg 2
  have sized : sizeOfClusterBytes (privateOf kernel) ≠ 0 := by
    rw [size]
    decide
  rcases @readClusters_served kernel 2 0 sized (Int.le_refl 0) passes arrived (privateOf kernel).clusterReadStream
    1000 out with ⟨chunk, _, _, chunkVolume, _, next⟩
  rw [size] at next
  rcases pairVolume_refuses (volume.later chunkVolume) with ⟨found, lookup, refused⟩
  have goesOn := next 999
  rw [if_pos (by decide)] at goesOn
  refine ⟨chunk.andThen ⟨found.1, [], found.2⟩, goesOn.trans ?_, refused⟩
  have second := readClusters_refused lookup refused 999 (privateOf kernel).clusterReadStream (1000 - 512)
    (out + intToWord 512)
  have rest : readClusters 999 chunk.kernel (privateOf kernel).clusterReadStream (2 : Nat)
      (wrapInt (0 + chunkLength 512 1000)) (1000 - chunkLength 512 1000) (out + intToWord (chunkLength 512 1000)) =
        some ⟨found.1, [], found.2⟩ := second
  rw [rest]
  rfl

/-- The same file, whose first bytes are `03 00`.  The entry of cluster 2 is looked up there,
and is found. -/
abbrev chainedSectors : Int -> Nat -> Byte := fun sector place =>
  if sector = 4 ∧ place = 0 then 3#8 else if sector = 5 then BitVec.ofNat 8 place else pairSectors sector place

/-- The loaded kernel. -/
abbrev chainedVolume : Kernel := Kernel.loaded Store.blank chainedSectors fun _ => 0#8

/-- The chain of that file. -/
def chainedFile : StoredFile (driveOf chainedVolume) (bootSector chainedVolume)
    ((storedRoot (driveOf chainedVolume) (bootSector chainedVolume)).slots 0) where
  chain :=
    { first := 2
      length := 2
      data := by
        unfold DataCluster
        decide
      ends := by decide }
  first := by decide
  covers := by decide

theorem chainedVolume_ends : RootEnds (driveOf chainedVolume) (bootSector chainedVolume) 1 :=
  ⟨⟨by decide, by decide⟩, by decide, by decide⟩

theorem chainedVolume_opens : exists booted opened,
    boot chainedVolume (fun _ => 0#8) = some booted ∧ fopen booted [forwardSlash, 0x41#8] [0x72#8] = some (1, opened) ∧
      Resolved chainedVolume opened ∧ RoomFrom opened 1549 ∧
      JustOpened booted opened 1 ((storedRoot (driveOf chainedVolume) (bootSector chainedVolume)).slots 0) :=
  @onlyFile_opens chainedSectors (fun _ => 0#8) (by decide) (by decide) (by decide) chainedVolume_ends (by decide) [0x41#8]
    (by decide) (by decide) (by decide) (by decide) (by decide)

/-- The entry of cluster 2, as it is looked up. -/
theorem chainedVolume_entry {booted kernel : Kernel} (boots : boot chainedVolume (fun _ => 0#8) = some booted)
    (same : SameVolume booted kernel) (volume : Resolved chainedVolume kernel) :
    fatEntryOf (driveOf kernel) (privateOf kernel) 2 = 3 := by
  have position : fatEntryPosition (privateOf kernel) 2 = 2048 := by
    rw [fatEntryPosition_eq, tablePosition, volume.header.reservedSectors]
    decide
  rcases boot_room Store.blank (fun _ => 0#8) (fun _ => 0#8) (by decide) (by decide) chainedVolume_ends.directoryEnds with
    ⟨booted', boots', _, fs⟩
  obtain rfl := Option.some.inj (boots.symm.trans boots')
  have stream := boot_table boots fs (by decide) chainedVolume_ends
  rw [← same.fatPrivate] at stream
  unfold fatEntryOf
  rw [if_neg stream, position, volume.drive]
  decide

/-- The whole file is one request. -/
theorem chainedVolume_finds {booted opened : Kernel} (boots : boot chainedVolume (fun _ => 0#8) = some booted)
    (volume : Resolved chainedVolume opened)
    (just : JustOpened booted opened 1 ((storedRoot (driveOf chainedVolume) (bootSector chainedVolume)).slots 0)) :
    FindsItems (bootSector chainedVolume) opened 1 1000#32 1#32 := by
  have low : (fileSlot opened 1).low16BitsFirstCluster = 2 := just.slot.low16BitsFirstCluster.trans (by decide)
  have first : fat16GetFirstCluster (fileSlot opened 1) = 2 := just.slot.firstCluster.trans (by decide)
  have entry := chainedVolume_entry boots just.volume volume
  have next : storedCluster (driveOf opened) (bootSector chainedVolume) 2 1 = 3 := by
    rw [volume.drive]
    decide
  have size : clusterBytes (bootSector chainedVolume) = 512 := by decide
  refine ⟨by decide, by rw [first, low], ⟨by decide, by decide⟩, ?_⟩
  intro item below
  obtain rfl : item = 0 := by
    have one : (1#32).toNat = 1 := rfl
    omega
  have begins : filePosition opened 1 + (((1000#32).toNat * 0 : Nat) : Int) = 0 := by
    rw [just.position]
    rfl
  have last : lastChunk 512 0 (1000#32).toNat = 1 := by decide
  rw [low, begins]
  refine ⟨?_, ?_, fun begun => absurd rfl begun, Or.inl rfl, by decide, ?_⟩
  · intro i inside
    rw [size, last] at inside
    obtain rfl : i = 0 := by omega
    change fatEntryOf (driveOf opened) (privateOf opened) 2 = _
    rw [entry, next]
  · intro i inside
    rw [size, last] at inside
    obtain rfl : i = 0 := by omega
    rw [next, ShortMark]
    decide
  · intro place natural below
    have total : ((1000#32).toNat : Int) = 1000 := rfl
    have remainder := Int.emod_lt_of_pos (0 + place) (show (0 : Int) < 512 by decide)
    unfold storedPosition
    rw [size]
    by_cases early : place < 512
    · have number : ((0 + place) / 512).toNat = 0 := by omega
      have start : clusterStart (bootSector chainedVolume) 2 = 2048 := by decide
      rw [number]
      change clusterStart _ 2 + _ < _
      omega
    · have number : ((0 + place) / 512).toNat = 1 := by omega
      have start : clusterStart (bootSector chainedVolume) 3 = 2560 := by decide
      rw [number, next]
      omega

/-! ## The bytes that are delivered -/

/-- `fread` delivers the bytes of a file that it was asked for, if each entry of
the table that it looks up is found and is no mark of 12 bits, each item crosses
only boundaries that lie behind each other, and every number fits an `int`. -/
theorem fread_delivers {booted kernel : Kernel} {fd : Int} {ptr size nmemb : Word} (volume : Resolved booted kernel)
    (sized : FatHeader.sectorsPerCluster (bootSector booted) ≠ 0) (opened : OpenFile kernel fd)
    (some : 0 < size.toNat) (items : 0 < nmemb.toNat)
    (apart : BufferApart kernel (fileData kernel fd) ptr (size.toNat * nmemb.toNat))
    (file : StoredFile (driveOf kernel) (bootSector booted) (fileSlot kernel fd))
    (inside : filePosition kernel fd + size.toNat * nmemb.toNat ≤ fileLength kernel fd)
    (finds : FindsItems (bootSector booted) kernel fd size nmemb) :
    FreadDelivers (bootSector booted) kernel fd ptr size nmemb := by
  rcases finds.freadFile volume sized some items opened apart file inside with ⟨after, reads, filled⟩
  exact ⟨after, reads, filled.bytes⟩

/-- The thousand bytes of a file in two clusters. -/
theorem fread_delivers_chained : exists booted opened, boot chainedVolume (fun _ => 0#8) = some booted ∧
    fopen booted [forwardSlash, 0x41#8] [0x72#8] = some (1, opened) ∧
    FreadDelivers (bootSector chainedVolume) opened 1 0x00400000#32 1000#32 1#32 := by
  rcases chainedVolume_opens with ⟨booted, opened, boots, opens, volume, room, just⟩
  have length : fileLength opened 1 = 1000 := just.slot.filesize.trans (by decide)
  have inside : filePosition opened 1 + (1000#32).toNat * (1#32).toNat ≤ fileLength opened 1 := by
    rw [just.position, length]
    decide
  exact ⟨booted, opened, boots, opens, fread_delivers volume (by decide) just.openFile (by decide) (by decide)
    (just.bufferApart room.kernelHeap (by decide)) (chainedFile.inKernel volume.drive just.slot) inside
    (chainedVolume_finds boots volume just)⟩

/-- A thousand bytes of zeros cannot be read at once. -/
theorem fread_fails_pair : exists booted opened, boot pairVolume (fun _ => 0#8) = some booted ∧
    fopen booted [forwardSlash, 0x41#8] [0x72#8] = some (1, opened) ∧
    Nonempty (StoredFile (driveOf opened) (bootSector pairVolume) (fileSlot opened 1)) ∧
    filePosition opened 1 + (1000#32).toNat * (1#32).toNat ≤ fileLength opened 1 ∧
    ¬ FreadDelivers (bootSector pairVolume) opened 1 0x00400000#32 1000#32 1#32 := by
  rcases pairVolume_opens with ⟨booted, opened, boots, opens, volume, _, just⟩
  have length : fileLength opened 1 = 1000 := just.slot.filesize.trans (by decide)
  have first : fat16GetFirstCluster (slotOf opened (fileData opened 1)) = (2 : Nat) :=
    just.slot.firstCluster.trans (by decide)
  have size : sizeOfClusterBytes (privateOf opened) = 512 := (sizeOfClusterBytes_resolved volume).trans (by decide)
  have position : wordToInt (opened.fatFileDescriptors (fileData opened 1)).pos = 0 := by
    have zero : (opened.fatFileDescriptors (fileData opened 1)).pos = 0#32 := BitVec.eq_of_toNat_eq just.position
    rw [zero]
    decide
  refine ⟨booted, opened, boots, opens, ⟨pairChain.inKernel volume.drive just.slot⟩, ?_, ?_⟩
  · rw [just.position, length]
    decide
  · rintro ⟨after, reads, _⟩
    rcases pairVolume_fails volume 0x00400000#32 with ⟨reading, read, failed⟩
    have items : readItems (fileData opened 1) 1000#32 (1#32).toNat opened 0 0x00400000#32 =
        some (reading.res, reading.kernel) := by
      change (fat16ReadInternal opened (fat16GetFirstCluster (slotOf opened (fileData opened 1))) 0 1000
        0x00400000#32).bind _ = _
      rw [first]
      change (fat16ReadInternal opened 2 0 1000 0x00400000#32).bind _ = _
      rw [read]
      exact if_pos failed
    rw [fread_eq just.openFile (by decide) (by decide)] at reads
    unfold fat16Read at reads
    dsimp only at reads
    rw [position, items, Option.map_some, if_pos failed] at reads
    have result := congrArg Prod.fst (Option.some.inj reads)
    have one : reading.res = 1 := result
    omega

end Fs
end LarvaOS
