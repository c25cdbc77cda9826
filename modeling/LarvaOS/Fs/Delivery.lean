import LarvaOS.Fs.Fat16Frame
import LarvaOS.Library.Buffer

namespace LarvaOS
namespace Fs

open Library Disk

/-!
# What a read delivers

A read of a chain is cut into chunks of one cluster, counted from the offset at
which the read begins and not from the beginning of a cluster.  As long as no
lookup stops the read, and each chunk is one that the stream reads rightly, byte
`k` of the buffer is the byte at place `k mod B` of chunk `k div B`, where `B` is
the size of a cluster.
-/

/-! ## One chunk -/

/-- A read has stored these bytes into the buffer, and nothing else into
memory. -/
structure Filled (before after : Kernel) (out : Word) (count : Nat) (content : Nat -> Byte) : Prop where
  transferred : Transferred before after
  bytes : Fills before.bytes after.bytes out count content

theorem Filled.append {before middle after : Kernel} {out : Word} {count rest : Nat} {content later : Nat -> Byte}
    (first : Filled before middle out count content)
    (second : Filled middle after (out + BitVec.ofNat 32 count) rest later) (fits : count + rest ≤ 2 ^ 32) :
    Filled before after out (count + rest) fun place => if place < count then content place else later (place - count) :=
  ⟨first.transferred.trans second.transferred, first.bytes.append second.bytes fits⟩

theorem Filled.sameVolume {before after : Kernel} {out : Word} {count : Nat} {content : Nat -> Byte}
    (filled : Filled before after out count content) : SameVolume before after := by
  rcases filled.transferred with ⟨_, _, rfl⟩
  exact ⟨rfl, rfl⟩

/-- Lookups move streams only. -/
theorem fat16GetFatEntry_transferred (kernel : Kernel) (cluster : Int) :
    Transferred kernel (fat16GetFatEntry kernel cluster).2 ∧ (fat16GetFatEntry kernel cluster).2.bytes = kernel.bytes := by
  unfold fat16GetFatEntry
  by_cases none : (privateOf kernel).fatReadStream = 0#32
  · rw [if_pos none]
    exact ⟨Transferred.refl kernel, rfl⟩
  · rw [if_neg none]
    simp only [diskStreamRead_result, Int.lt_irrefl, if_false]
    exact ⟨(Transferred.seek kernel _ _).trans (Transferred.read _ _ _), rfl⟩

theorem followClusters_transferred (kernel : Kernel) (ahead : Nat) (cluster : Int) :
    Transferred kernel (followClusters fat16GetFatEntry ahead kernel cluster).2 ∧
      (followClusters fat16GetFatEntry ahead kernel cluster).2.bytes = kernel.bytes := by
  have keeps : forall (state : Kernel) (cluster : Int), Transferred kernel state ∧ state.bytes = kernel.bytes ->
      Transferred kernel (fat16GetFatEntry state cluster).2 ∧ (fat16GetFatEntry state cluster).2.bytes = kernel.bytes :=
    fun state cluster kept =>
      have looked := fat16GetFatEntry_transferred state cluster
      ⟨kept.1.trans looked.1, looked.2.trans kept.2⟩
  exact @followClusters_keeps Kernel fat16GetFatEntry (fun state => Transferred kernel state ∧ state.bytes = kernel.bytes)
    keeps kernel ⟨Transferred.refl kernel, rfl⟩ ahead cluster

/-- Bytes that are stored. -/
theorem storeBytes_fills (kernel : Kernel) (out : Word) {bytes : List Byte} {count : Nat} {content : Nat -> Byte}
    (size : bytes.length = count) (short : count ≤ 2 ^ 32)
    (same : forall place, place < count -> bytes[place]? = some (content place)) :
    Fills kernel.bytes (storeBytes kernel out bytes).bytes out count content := by
  subst size
  exact Fills.of_list (fun address => storeBytes_bytes kernel out bytes address) short same

/-- A chunk that the stream reads rightly. -/
structure Straight (start length : Int) : Prop where
  natural : 0 ≤ start
  bound : start + length ≤ 2 ^ 31
  within : ReadsWithinSectors start length

/-- Such a chunk is stored in the buffer. -/
theorem readChunk_filled (kernel : Kernel) (stream : Word) {start length : Int} (straight : Straight start length)
    (out : Word) :
    Filled kernel (readChunk kernel stream start length out).kernel out length.toNat fun place =>
      (driveOf kernel).byteAt (start + place) := by
  have bound := straight.bound
  have natural := straight.natural
  have delivers := streamTransfer_bytes (driveOf kernel) natural bound straight.within
  have items : (diskStreamRead (diskStreamSeek kernel stream start) stream length).1.bytes =
      slice (driveOf kernel).byteAt start length.toNat := by
    rw [diskStreamRead_sought]
    exact delivers
  unfold readChunk
  simp only [diskStreamRead_result, Int.lt_irrefl, if_false, items]
  refine ⟨((Transferred.seek kernel stream start).trans (Transferred.read _ stream length)).trans
    (Transferred.stored _ out _), ?_⟩
  exact storeBytes_fills (diskStreamRead (diskStreamSeek kernel stream start) stream length).2 out
    (slice_length _ _ _) (by omega) fun place below => slice_getElem? _ _ below

/-! ## The chunks of a read -/

/-- The position of a chunk, by its number. -/
def chunkStart (kernel : Kernel) (cluster : Nat) (offset : Int) (number : Nat) : Int :=
  let size := sizeOfClusterBytes (privateOf kernel)
  clusterPosition (privateOf kernel) (fatChain kernel cluster ((offset / size).toNat + number)) (offset % size)

/-- The number of the cluster that the last chunk begins in. -/
def lastChunk (size offset total : Int) : Nat := (offset / size).toNat + ((total - 1) / size).toNat

/-- No lookup stops the read, and the stream reads each chunk rightly. -/
structure Chunked (kernel : Kernel) (cluster : Nat) (offset total : Int) : Prop where
  lower : 0 ≤ offset
  bound : offset + total ≤ 2 ^ 31
  passes : forall i, i < lastChunk (sizeOfClusterBytes (privateOf kernel)) offset total ->
    chainStops (fatChain kernel cluster (i + 1)) = false
  reaches : forall i, i ≤ lastChunk (sizeOfClusterBytes (privateOf kernel)) offset total ->
    0 ≤ fatChain kernel cluster i
  straight : forall number : Nat, sizeOfClusterBytes (privateOf kernel) * number < total ->
    Straight (chunkStart kernel cluster offset number)
      (chunkLength (sizeOfClusterBytes (privateOf kernel)) (total - sizeOfClusterBytes (privateOf kernel) * number))

section Chunks

variable {kernel after : Kernel} {cluster : Nat} {offset total : Int}

theorem chunkStart_sameVolume (same : SameVolume kernel after) (number : Nat) :
    chunkStart after cluster offset number = chunkStart kernel cluster offset number := by
  unfold chunkStart
  dsimp only
  rw [same.fatPrivate, fatChain_sameVolume same]

/-- Behind the first chunk the numbers are one lower. -/
theorem chunkStart_next (positive : 0 < sizeOfClusterBytes (privateOf kernel)) (lower : 0 ≤ offset) (number : Nat) :
    chunkStart kernel cluster (offset + sizeOfClusterBytes (privateOf kernel)) number =
      chunkStart kernel cluster offset (number + 1) := by
  unfold chunkStart
  dsimp only
  have quotient : (offset + sizeOfClusterBytes (privateOf kernel)) / sizeOfClusterBytes (privateOf kernel) =
      offset / sizeOfClusterBytes (privateOf kernel) + 1 := Int.add_ediv_of_dvd_right (Int.dvd_refl _) |>.trans (by
    rw [Int.ediv_self (Int.ne_of_gt positive)])
  have natural : 0 ≤ offset / sizeOfClusterBytes (privateOf kernel) := Int.ediv_nonneg lower (Int.le_of_lt positive)
  rw [Int.add_emod_right, quotient]
  congr 2
  omega

/-- The rest of a read that is longer than a cluster. -/
theorem Chunked.next (positive : 0 < sizeOfClusterBytes (privateOf kernel)) (chunked : Chunked kernel cluster offset total)
    (same : SameVolume kernel after) (more : sizeOfClusterBytes (privateOf kernel) < total) :
    Chunked after cluster (offset + sizeOfClusterBytes (privateOf kernel))
      (total - sizeOfClusterBytes (privateOf kernel)) := by
  have lower := chunked.lower
  have bound := chunked.bound
  have natural : 0 ≤ offset / sizeOfClusterBytes (privateOf kernel) := Int.ediv_nonneg lower (Int.le_of_lt positive)
  have last : lastChunk (sizeOfClusterBytes (privateOf kernel)) (offset + sizeOfClusterBytes (privateOf kernel))
      (total - sizeOfClusterBytes (privateOf kernel)) = lastChunk (sizeOfClusterBytes (privateOf kernel)) offset total := by
    have left := Int.add_mul_ediv_left offset 1 (Int.ne_of_gt positive)
    have right := Int.add_mul_ediv_left (total - 1) (-1) (Int.ne_of_gt positive)
    have rest : 0 ≤ (total - sizeOfClusterBytes (privateOf kernel) - 1) / sizeOfClusterBytes (privateOf kernel) :=
      Int.ediv_nonneg (by omega) (Int.le_of_lt positive)
    have shifted : total - 1 + sizeOfClusterBytes (privateOf kernel) * -1 =
        total - sizeOfClusterBytes (privateOf kernel) - 1 := by omega
    rw [Int.mul_one] at left
    rw [shifted] at right
    unfold lastChunk
    rw [left]
    omega
  refine ⟨by omega, by omega, ?_, ?_, ?_⟩
  · rw [same.fatPrivate, last]
    intro i inside
    rw [fatChain_sameVolume same]
    exact chunked.passes i inside
  · rw [same.fatPrivate, last]
    intro i inside
    rw [fatChain_sameVolume same]
    exact chunked.reaches i inside
  · rw [same.fatPrivate]
    intro number inside
    have later := chunked.straight (number + 1)
    have shifted : total - sizeOfClusterBytes (privateOf kernel) * ((number + 1 : Nat) : Int) =
        total - sizeOfClusterBytes (privateOf kernel) - sizeOfClusterBytes (privateOf kernel) * number := by
      rw [Int.natCast_add, Int.mul_add]
      omega
    rw [shifted] at later
    rw [chunkStart_sameVolume same, chunkStart_next positive lower]
    refine later ?_
    rw [Int.natCast_add, Int.mul_add]
    omega

/-- The position of byte `k` of a read. -/
def readPosition (kernel : Kernel) (cluster : Nat) (offset : Int) (place : Nat) : Int :=
  let size := (sizeOfClusterBytes (privateOf kernel)).toNat
  chunkStart kernel cluster offset (place / size) + (place % size : Nat)

theorem readPosition_first {place : Nat} (inside : place < (sizeOfClusterBytes (privateOf kernel)).toNat) :
    readPosition kernel cluster offset place = chunkStart kernel cluster offset 0 + place := by
  unfold readPosition
  dsimp only
  rw [Nat.div_eq_of_lt inside, Nat.mod_eq_of_lt inside]

theorem readPosition_next (same : SameVolume kernel after) (positive : 0 < sizeOfClusterBytes (privateOf kernel))
    (lower : 0 ≤ offset) {place : Nat} (behind : (sizeOfClusterBytes (privateOf kernel)).toNat ≤ place) :
    readPosition after cluster (offset + sizeOfClusterBytes (privateOf kernel))
      (place - (sizeOfClusterBytes (privateOf kernel)).toNat) = readPosition kernel cluster offset place := by
  unfold readPosition
  dsimp only
  rw [same.fatPrivate, chunkStart_sameVolume same, chunkStart_next positive lower]
  generalize sizeNumber : (sizeOfClusterBytes (privateOf kernel)).toNat = size at *
  have positiveSize : 0 < size := by omega
  have whole : place = place - size + size := by omega
  have quotient : place / size = (place - size) / size + 1 := by
    rw [← Nat.add_div_right (place - size) positiveSize, ← whole]
  have remainder : place % size = (place - size) % size := by
    rw [← Nat.add_mod_right (place - size) size, ← whole]
  rw [quotient, remainder]

/-- The first chunk of such a read. -/
theorem readClusters_firstChunk (positive : 0 < sizeOfClusterBytes (privateOf kernel)) (asked : 0 < total)
    (chunked : Chunked kernel cluster offset total) (stream out : Word) :
    let length := chunkLength (sizeOfClusterBytes (privateOf kernel)) total
    exists chunk : Reading, chunk.res = 0 ∧ SameVolume kernel chunk.kernel ∧
      (Filled kernel chunk.kernel out length.toNat fun place =>
        (driveOf kernel).byteAt (chunkStart kernel cluster offset 0 + place)) ∧
      readClusters 0 kernel stream cluster offset total out = some chunk ∧
      forall more, readClusters (more + 1) kernel stream cluster offset total out =
        if total - length > 0 then
          (readClusters more chunk.kernel stream cluster (wrapInt (offset + length)) (total - length)
            (out + intToWord length)).map chunk.andThen
        else some chunk := by
  intro length
  have inside : (offset / sizeOfClusterBytes (privateOf kernel)).toNat ≤
      lastChunk (sizeOfClusterBytes (privateOf kernel)) offset total := Nat.le_add_right _ _
  have straight := chunked.straight 0 (by rw [Int.natCast_zero, Int.mul_zero]; exact asked)
  rw [Int.natCast_zero, Int.mul_zero, Int.sub_zero] at straight
  rcases readClusters_served (Int.ne_of_gt positive) chunked.lower
    (fun i below => chunked.passes i (Nat.lt_of_lt_of_le below inside)) (chunked.reaches _ inside) stream total out with
    ⟨chunk, explicit, _, volume, last, next⟩
  have looked := followClusters_transferred kernel (offset / sizeOfClusterBytes (privateOf kernel)).toNat cluster
  have start : clusterPosition (privateOf kernel)
      (fatChain kernel cluster (offset / sizeOfClusterBytes (privateOf kernel)).toNat)
      (offset % sizeOfClusterBytes (privateOf kernel)) = chunkStart kernel cluster offset 0 := rfl
  rw [start] at explicit
  have filled := readChunk_filled (followClusters fat16GetFatEntry (offset / sizeOfClusterBytes (privateOf kernel)).toNat
    kernel cluster).2 stream straight out
  have drive := driveOf_congr looked.1.toGlobals
  rw [drive] at filled
  refine ⟨chunk, ?_, volume, ?_, last, next⟩
  · rw [explicit]
    exact readChunk_res _ _ _ _ _
  · rw [explicit]
    refine ⟨looked.1.trans filled.transferred, ?_⟩
    have bytes := filled.bytes
    rw [looked.2] at bytes
    exact bytes

/-- A read of one chunk. -/
theorem Filled.single {out : Word} (short : total ≤ sizeOfClusterBytes (privateOf kernel))
    (filled : Filled kernel after out (chunkLength (sizeOfClusterBytes (privateOf kernel)) total).toNat fun place =>
      (driveOf kernel).byteAt (chunkStart kernel cluster offset 0 + place)) :
    Filled kernel after out total.toNat fun place =>
      (driveOf kernel).byteAt (readPosition kernel cluster offset place) := by
  rw [chunkLength, if_neg (Int.not_lt.mpr short)] at filled
  refine ⟨filled.transferred, filled.bytes.congr fun place below => ?_⟩
  rw [readPosition_first (by omega)]

/-- A read that goes through is filled chunk by chunk. -/
theorem readClusters_filled (more : Nat) (positive : 0 < sizeOfClusterBytes (privateOf kernel)) (asked : 0 < total)
    (fuel : total ≤ sizeOfClusterBytes (privateOf kernel) * (more + 1 : Nat))
    (chunked : Chunked kernel cluster offset total) (stream out : Word) :
    exists reading, readClusters more kernel stream cluster offset total out = some reading ∧ reading.res = 0 ∧
      Filled kernel reading.kernel out total.toNat fun place =>
        (driveOf kernel).byteAt (readPosition kernel cluster offset place) := by
  induction more generalizing kernel offset total out with
  | zero =>
      rcases readClusters_firstChunk positive asked chunked stream out with ⟨chunk, res, _, filled, last, _⟩
      rw [Nat.zero_add, Int.natCast_one, Int.mul_one] at fuel
      exact ⟨chunk, last, res, filled.single fuel⟩
  | succ more inductionHypothesis =>
      rcases readClusters_firstChunk positive asked chunked stream out with ⟨chunk, res, volume, filled, _, next⟩
      rw [next more]
      by_cases longer : total > sizeOfClusterBytes (privateOf kernel)
      · have length : chunkLength (sizeOfClusterBytes (privateOf kernel)) total = sizeOfClusterBytes (privateOf kernel) :=
          if_pos longer
        have lower := chunked.lower
        have bound := chunked.bound
        have rest := chunked.next positive volume longer
        have small : wrapInt (offset + sizeOfClusterBytes (privateOf kernel)) =
            offset + sizeOfClusterBytes (privateOf kernel) := wrapInt_of_small (by omega) (by omega)
        have enough : total - sizeOfClusterBytes (privateOf kernel) ≤
            sizeOfClusterBytes (privateOf kernel) * (more + 1 : Nat) := by
          rw [Int.natCast_add, Int.mul_add, Int.natCast_one, Int.mul_one] at fuel
          omega
        have sameSize : sizeOfClusterBytes (privateOf chunk.kernel) = sizeOfClusterBytes (privateOf kernel) := by
          rw [volume.fatPrivate]
        have positiveNext : 0 < sizeOfClusterBytes (privateOf chunk.kernel) := by
          rw [sameSize]
          exact positive
        have enoughNext : total - sizeOfClusterBytes (privateOf kernel) ≤
            sizeOfClusterBytes (privateOf chunk.kernel) * (more + 1 : Nat) := by
          rw [sameSize]
          exact enough
        rcases inductionHypothesis positiveNext (Int.sub_pos_of_lt longer) enoughNext rest
          (out + intToWord (sizeOfClusterBytes (privateOf kernel))) with ⟨later, explicit, laterRes, laterFilled⟩
        rw [length] at filled
        rw [length, if_pos (Int.sub_pos_of_lt longer), small, explicit]
        refine ⟨chunk.andThen later, rfl, ?_, ?_⟩
        · rw [Reading.andThen, laterRes]
        · rw [intToWord_of_nonneg (Int.le_of_lt positive)] at laterFilled
          have fits : (sizeOfClusterBytes (privateOf kernel)).toNat +
              (total - sizeOfClusterBytes (privateOf kernel)).toNat ≤ 2 ^ 32 := by
            omega
          have both := filled.append laterFilled fits
          have count : (sizeOfClusterBytes (privateOf kernel)).toNat +
              (total - sizeOfClusterBytes (privateOf kernel)).toNat = total.toNat := by
            omega
          rw [count] at both
          refine ⟨both.transferred, both.bytes.congr fun place _ => ?_⟩
          by_cases below : place < (sizeOfClusterBytes (privateOf kernel)).toNat
          · rw [if_pos below, readPosition_first below]
          · rw [if_neg below, readPosition_next volume positive lower (Nat.le_of_not_lt below),
              driveOf_congr filled.transferred.toGlobals]
      · rw [chunkLength, if_neg longer, if_neg (by omega)]
        exact ⟨chunk, rfl, res, filled.single (Int.not_lt.mp longer)⟩

end Chunks

end Fs
end LarvaOS
