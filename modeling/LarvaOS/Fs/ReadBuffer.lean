import LarvaOS.Fs.ReadEnd
import LarvaOS.Fs.Seek

namespace LarvaOS
namespace Fs

open Disk Memory

/-!
# The buffer of a read

Whatever `fread` comes to, it stores to the bytes of its buffer alone: those of the
items that it was asked for, one behind the other.  An item whose size is no positive
`int` stores nothing.
-/

/-- No byte outside a buffer has changed. -/
def StoresWithin (out : Word) (count : Nat) (before after : Kernel) : Prop :=
  forall address, count ≤ (address - out).toNat -> after.bytes address = before.bytes address

namespace StoresWithin

variable {out : Word} {count : Nat} {before middle after : Kernel}

theorem of_bytes (same : after.bytes = before.bytes) : StoresWithin out count before after :=
  fun address _ => congrFun same address

theorem trans (left : StoresWithin out count before middle) (right : StoresWithin out count middle after) :
    StoresWithin out count before after :=
  fun address outside => (right address outside).trans (left address outside)

theorem mono {more : Nat} (within : StoresWithin out count before after) (least : count ≤ more) :
    StoresWithin out more before after := fun address outside => within address (Nat.le_trans least outside)

/-- A buffer behind a first part. -/
theorem behind {length : Word} (within : StoresWithin (out + length) count before after) :
    StoresWithin out (length.toNat + count) before after := by
  intro address outside
  apply within
  have split : address - (out + length) = address - out - length := by bv_omega
  rw [split, BitVec.toNat_sub_of_le]
  · omega
  · exact BitVec.le_def.mpr (by omega)

end StoresWithin

theorem storeBytes_within (kernel : Kernel) (out : Word) (bytes : List Byte) :
    StoresWithin out bytes.length kernel (storeBytes kernel out bytes) := by
  intro address outside
  rw [storeBytes_bytes, List.getElem?_eq_none outside]
  rfl

/-! ## The steps of a read -/

theorem fat16GetFatEntry_bytes (kernel : Kernel) (cluster : Int) : (fat16GetFatEntry kernel cluster).2.bytes = kernel.bytes := by
  unfold fat16GetFatEntry
  by_cases none : (privateOf kernel).fatReadStream = 0#32
  · rw [if_pos none]
  · rw [if_neg none]
    simp only [diskStreamRead_result, Int.lt_irrefl, if_false]
    rfl

theorem fat16GetClusterForOffset_bytes {kernel : Kernel} {cluster offset : Int} {found : Int × Kernel}
    (same : fat16GetClusterForOffset kernel cluster offset = some found) : found.2.bytes = kernel.bytes := by
  unfold fat16GetClusterForOffset clusterForOffset at same
  by_cases sized : sizeOfClusterBytes (privateOf kernel) = 0
  · rw [if_pos sized] at same
    cases same
  · rw [if_neg sized] at same
    cases same
    exact followClusters_keeps fat16GetFatEntry
      (fun state cluster (kept : state.bytes = kernel.bytes) => (fat16GetFatEntry_bytes state cluster).trans kept) rfl _ _

theorem readChunk_within (kernel : Kernel) (stream : Word) (position totalToRead : Int) (out : Word) :
    StoresWithin out totalToRead.toNat kernel (readChunk kernel stream position totalToRead out).kernel := by
  unfold readChunk
  simp only [diskStreamRead_result, Int.lt_irrefl, if_false]
  have stored := storeBytes_within (diskStreamRead (diskStreamSeek kernel stream position) stream totalToRead).2 out
    (diskStreamRead (diskStreamSeek kernel stream position) stream totalToRead).1.bytes
  have length : (diskStreamRead (diskStreamSeek kernel stream position) stream totalToRead).1.bytes.length =
      totalToRead.toNat := by
    rw [diskStreamRead_sought, streamTransfer_length]
  rw [length] at stored
  exact stored

theorem chunkLength_toNat_le (size total : Int) : (chunkLength size total).toNat ≤ total.toNat :=
  Int.toNat_le_toNat (chunkLength_le size total).2

/-- The length of a chunk that is not the last one. -/
theorem chunkLength_rest {fatPrivate : FatPrivateData} {total : Int} (bound : total < 2 ^ 31)
    (left : total - chunkLength (sizeOfClusterBytes fatPrivate) total > 0) :
    (intToWord (chunkLength (sizeOfClusterBytes fatPrivate) total)).toNat =
        (chunkLength (sizeOfClusterBytes fatPrivate) total).toNat ∧
      (chunkLength (sizeOfClusterBytes fatPrivate) total).toNat +
        (total - chunkLength (sizeOfClusterBytes fatPrivate) total).toNat = total.toNat := by
  have nonnegative := sizeOfClusterBytes_nonneg fatPrivate
  have shorter := chunkLength_le (sizeOfClusterBytes fatPrivate) total
  have lower : 0 ≤ chunkLength (sizeOfClusterBytes fatPrivate) total := by
    unfold chunkLength at left ⊢
    split_ifs at left ⊢
    · exact nonnegative
    · omega
  have value := intToWord_toNat lower (by omega)
  exact ⟨by omega, by omega⟩

/-- The number of bytes that requests ask for. -/
abbrev requestedBytes (requests : List (Int × Int)) : Nat := (requests.map fun request => request.2.toNat).sum

/-- A read stores to the bytes that its requests ask for, and asks for no more than it
was asked for. -/
theorem readClusters_within (more : Nat) {kernel : Kernel} {stream out : Word} {cluster offset total : Int}
    (bound : total < 2 ^ 31) {reading : Reading}
    (same : readClusters more kernel stream cluster offset total out = some reading) :
    StoresWithin out (requestedBytes reading.requests) kernel reading.kernel ∧
      requestedBytes reading.requests ≤ total.toNat := by
  induction more using Nat.strongRecOn generalizing kernel offset total out reading with
  | _ more inductionHypothesis =>
      rcases readClusters_cases same with ⟨found, lookedUp, rfl | rfl | ⟨fewer, rest, rfl, left, restSame, rfl⟩⟩
      · exact ⟨StoresWithin.of_bytes (fat16GetClusterForOffset_bytes lookedUp), Nat.zero_le _⟩
      · rw [requestedBytes, readChunk_requests, List.map_singleton, List.sum_singleton]
        exact ⟨(StoresWithin.of_bytes (fat16GetClusterForOffset_bytes lookedUp)).trans (readChunk_within found.2 stream _ _ out),
          chunkLength_toNat_le _ total⟩
      · rcases chunkLength_rest bound left with ⟨value, split⟩
        rcases inductionHypothesis fewer (Nat.lt_succ_self fewer) (by omega) restSame with ⟨later, least⟩
        have chunk := readChunk_within found.2 stream
          (clusterPosition (privateOf found.2) found.1 (offset.tmod (sizeOfClusterBytes (privateOf found.2))))
          (chunkLength (sizeOfClusterBytes (privateOf found.2)) total) out
        have behind := later.behind
        rw [value] at behind
        rw [requestedBytes, Reading.andThen, List.map_append, List.sum_append, readChunk_requests, List.map_singleton,
          List.sum_singleton]
        refine ⟨((StoresWithin.of_bytes (fat16GetClusterForOffset_bytes lookedUp)).trans
          (chunk.mono (Nat.le_add_right _ _))).trans behind, ?_⟩
        rw [← split]
        exact Nat.add_le_add_left least _

/-! ## The call -/

theorem readItems_within {p size : Word} (remaining : Nat) {kernel : Kernel} {offset : Int} {out : Word}
    {read : Int × Kernel} (same : readItems p size remaining kernel offset out = some read) :
    StoresWithin out (size.toNat * remaining) kernel read.2 := by
  induction remaining generalizing kernel offset out with
  | zero =>
      cases same
      exact StoresWithin.of_bytes rfl
  | succ remaining inductionHypothesis =>
      rw [readItems] at same
      rcases Option.bind_eq_some_iff.mp same with ⟨reading, chunk, rest⟩
      have item : (wordToInt size).toNat ≤ size.toNat := by
        rw [wordToInt, BitVec.toInt_eq_toNat_cond]
        split_ifs <;> omega
      have stored := readClusters_within _ (BitVec.toInt_lt (x := size)) chunk
      have first := stored.1.mono (Nat.le_trans stored.2 item)
      rw [Nat.mul_succ, Nat.add_comm]
      by_cases failed : reading.res < 0
      · rw [if_pos failed] at rest
        cases rest
        exact first.mono (Nat.le_add_right _ _)
      · rw [if_neg failed] at rest
        exact (first.mono (Nat.le_add_right _ _)).trans (inductionHypothesis rest).behind

/-- `fread` stores to the bytes of its buffer alone. -/
theorem fread_within {kernel : Kernel} {fd : Int} {ptr size nmemb : Word} {read : Int × Kernel}
    (same : fread kernel fd ptr size nmemb = some read) :
    StoresWithin ptr (size.toNat * nmemb.toNat) kernel read.2 := by
  unfold fread at same
  split at same
  · cases same
    exact StoresWithin.of_bytes rfl
  · dsimp only at same
    split at same
    · cases same
      exact StoresWithin.of_bytes rfl
    · rcases Option.map_eq_some_iff.mp same with ⟨items, reads, rfl⟩
      have within := readItems_within _ reads
      split
      · exact within
      · exact within

end Fs
end LarvaOS
