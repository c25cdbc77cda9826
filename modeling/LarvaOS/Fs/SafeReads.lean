import LarvaOS.Fs.DirectoryTree
import LarvaOS.Fs.Layout
import LarvaOS.Fs.ReadEnd

namespace LarvaOS
namespace Fs

open Library Disk Libc Memory

/-!
# Reads that come to an end

A read divides by the size of a cluster and goes on by at most one cluster.
`fat16_resolve` checks the signature of the boot sector and nothing else, so the
size may be 0.  The division is then undefined, and there is nothing that a step
could serve.  With clusters that are not empty every step serves a byte, and the
bound on the number of steps that the model has is never reached.
-/

/-! ## Progress -/

/-- A step of a read that has bytes left serves at least one. -/
theorem chunkLength_pos {size total : Int} (positive : 0 < size) (asked : 0 < total) : 0 < chunkLength size total := by
  unfold chunkLength
  split
  · exact positive
  · exact asked

section Fuel

variable {kernel : Kernel}

/-- One more step than there are bytes is never taken. -/
theorem readClusters_succ (positive : 0 < sizeOfClusterBytes (privateOf kernel)) (more : Nat) {total : Int}
    (enough : total.toNat ≤ more) (stream : Word) (cluster offset : Int) (out : Word) :
    readClusters (more + 1) kernel stream cluster offset total out =
      readClusters more kernel stream cluster offset total out := by
  induction more generalizing kernel offset total out with
  | zero =>
      rcases fat16GetClusterForOffset_returns (Int.ne_of_gt positive) cluster offset with ⟨found, lookup⟩
      have volume := fat16GetClusterForOffset_sameVolume lookup
      have nothing : ¬ total - chunkLength (sizeOfClusterBytes (privateOf found.2)) total > 0 := by
        rw [volume.fatPrivate, chunkLength, if_neg (by omega)]
        omega
      rw [readClusters, readClusters, lookup]
      simp only [nothing, if_false]
  | succ more inductionHypothesis =>
      rcases fat16GetClusterForOffset_returns (Int.ne_of_gt positive) cluster offset with ⟨found, lookup⟩
      have volume := fat16GetClusterForOffset_sameVolume lookup
      have later : forall position length (buffer rest : Word) (after left : Int), left.toNat ≤ more ->
          readClusters (more + 1) (readChunk found.2 stream position length buffer).kernel stream cluster after left rest =
            readClusters more (readChunk found.2 stream position length buffer).kernel stream cluster after left rest := by
        intro position length buffer rest after left fewer
        have chunk := volume.trans (readChunk_sameVolume found.2 stream position length buffer)
        exact inductionHypothesis (by rwa [chunk.fatPrivate]) fewer after rest
      rw [readClusters, readClusters, lookup]
      simp only
      by_cases left : total - chunkLength (sizeOfClusterBytes (privateOf found.2)) total > 0
      · have positiveFound : 0 < sizeOfClusterBytes (privateOf found.2) := by
          rw [volume.fatPrivate]
          exact positive
        have asked : 0 < total := by
          by_contra none
          rw [chunkLength, if_neg (by omega)] at left
          omega
        have served := chunkLength_pos positiveFound asked
        simp only [left, if_true]
        rw [later _ _ _ _ _ _ (by omega)]
      · simp only [left, if_false]

/-- The bound on the number of steps plays no part. -/
theorem readClusters_enough (positive : 0 < sizeOfClusterBytes (privateOf kernel)) {more : Nat} {total : Int}
    (enough : total.toNat ≤ more) (stream : Word) (cluster offset : Int) (out : Word) :
    readClusters more kernel stream cluster offset total out =
      fat16ReadInternalFromStream kernel stream cluster offset total out := by
  induction more, enough using Nat.le_induction with
  | base => rfl
  | succ more enough inductionHypothesis =>
      rw [readClusters_succ positive more enough]
      exact inductionHypothesis

/-- A read of items comes to an end. -/
theorem readItems_returns (sized : sizeOfClusterBytes (privateOf kernel) ≠ 0) (p size : Word) (remaining : Nat)
    (offset : Int) (out : Word) : exists read, readItems p size remaining kernel offset out = some read := by
  induction remaining generalizing kernel offset out with
  | zero => exact ⟨_, rfl⟩
  | succ remaining inductionHypothesis =>
      rcases fat16ReadInternal_returns sized (fat16GetFirstCluster (slotOf kernel p)) offset (wordToInt size) out with
        ⟨reading, chunk⟩
      rcases fat16ReadInternal_transferred (BitVec.toInt_lt (x := size)) chunk with ⟨bytes, positions, same⟩
      have later : sizeOfClusterBytes (privateOf reading.kernel) ≠ 0 := by
        rw [same]
        exact sized
      rw [readItems, chunk, Option.bind_some]
      split
      · exact ⟨_, rfl⟩
      · exact inductionHypothesis later _ _

theorem fread_returns (sized : sizeOfClusterBytes (privateOf kernel) ≠ 0) (fd : Int) (ptr size nmemb : Word) :
    exists read, fread kernel fd ptr size nmemb = some read := by
  unfold fread fat16Read
  split
  · exact ⟨_, rfl⟩
  · dsimp only
    split
    · exact ⟨_, rfl⟩
    · rcases readItems_returns sized (kernel.fileDescriptorRecords (getFileDescriptor kernel fd)).p size nmemb.toNat
        (wordToInt (kernel.fatFileDescriptors (kernel.fileDescriptorRecords (getFileDescriptor kernel fd)).p).pos) ptr with
        ⟨read, reads⟩
      rw [reads]
      exact ⟨_, rfl⟩

end Fuel

/-! ## Opens -/

section Opens

variable {kernel current : Kernel} (held : VolumeHeld kernel) (sized : sizeOfClusterBytes (privateOf kernel) ≠ 0)
  (ends : forall slot, Countable kernel slot)
include held sized ends

theorem searchSlots_returns (directory : FatDirectory) (name : List Byte) (indexes : List Nat)
    (later : Later kernel current) (item : Word) :
    exists found, searchSlots directory name indexes current item = some found := by
  induction indexes generalizing current item with
  | nil => exact ⟨_, rfl⟩
  | cons index rest inductionHypothesis =>
      rw [searchSlots]
      by_cases taken : strcasecmp (fat16GetFullRelativeFilename (slotAt current (slotAddress directory index))) name = 0
      · rcases fat16MakeNewFatItemForDirectoryItem_returns held later sized (ends _) with ⟨made, make⟩
        simp only [taken, if_true]
        rw [make]
        exact inductionHypothesis (later.make held make) made.1
      · simp only [taken, if_false]
        exact inductionHypothesis later item

/-- An open comes to an end when every directory does. -/
theorem fat16Open_returns (path : PathPart) (next : List PathPart) (mode : FileMode) :
    exists opened, fat16Open kernel path next mode = some opened := by
  unfold fat16Open fat16GetDirectoryEntry
  by_cases writes : mode ≠ .read
  · rw [if_pos writes]
    exact ⟨_, rfl⟩
  · rw [if_neg writes]
    by_cases refused : (kzalloc kernel 8#32).1 = 0#32
    · simp only [refused, if_true]
      exact ⟨_, rfl⟩
    · have later := (Later.refl kernel).kzalloc held 8#32
      rcases searchSlots_returns held sized ends (privateOf (kzalloc kernel 8#32).2).rootDir path.text
        (visitedSlots (privateOf (kzalloc kernel 8#32).2).rootDir) later 0#32 with ⟨found, search⟩
      have safe := (searchSlots_keeps held.kernelHeap later.keeps (fun nonNull => absurd rfl nonNull) search).2
      have find : fat16FindItemInDirectory (kzalloc kernel 8#32).2 (privateOf (kzalloc kernel 8#32).2).rootDir path.text =
          some found := search
      simp only [refused, if_false, find, Option.bind_some]
      by_cases missing : found.1 = 0#32
      · rw [if_pos missing]
        exact ⟨_, rfl⟩
      · rw [if_neg missing]
        cases next with
        | nil => exact ⟨_, rfl⟩
        | cons part rest =>
            have stops : (found.2.fatItems found.1).type ≠ FAT_FILE_SUBDIRECTORY.setWidth 32 := by
              rcases (safe missing).kind with directory | file
              · rw [directory]
                decide
              · rw [file]
                decide
            rw [descend, if_pos stops]
            exact ⟨_, rfl⟩

end Opens

/-! ## Accepted boot sectors -/

/-- No read divides by zero, each of its steps serves a byte while there are
bytes left, and as many steps as there are bytes are enough.  Hence every read
returns, and every open when the directories end. -/
structure ReadsSafely (kernel : Kernel) : Prop where
  divides : forall cluster offset, exists found, fat16GetClusterForOffset kernel cluster offset = some found
  advances : forall total, 0 < total -> 0 < chunkLength (sizeOfClusterBytes (privateOf kernel)) total
  enough : forall more stream cluster offset total out, total.toNat ≤ more ->
    readClusters more kernel stream cluster offset total out =
      fat16ReadInternalFromStream kernel stream cluster offset total out
  reads : forall cluster offset total out, exists reading, fat16ReadInternal kernel cluster offset total out = some reading
  freads : forall fd ptr size nmemb, exists read, fread kernel fd ptr size nmemb = some read
  opens : (forall slot, Countable kernel slot) -> forall path next mode,
    exists opened, fat16Open kernel path next mode = some opened

/-- Whatever happens after a boot sector was accepted: reads and opens are safe
if and only if its clusters have sectors. -/
theorem readsSafely_iff {kernel resolved later : Kernel} (placed : kernel.heap.WellPlaced)
    (accepted : fat16Resolve kernel = some (0, resolved)) (held : VolumeHeld later)
    (same : privateOf later = privateOf resolved) :
    ReadsSafely later ↔ FatHeader.sectorsPerCluster (bootSector kernel) ≠ 0 := by
  have volume := fat16Resolve_resolved placed accepted
  have size : sizeOfClusterBytes (privateOf later) = FatHeader.sectorsPerCluster (bootSector kernel) * DISK_SECTOR_SIZE := by
    rw [same]
    exact sizeOfClusterBytes_resolved volume
  constructor
  · intro safely empty
    have advances := safely.advances 1 Int.one_pos
    rw [size, empty] at advances
    exact absurd advances (by decide)
  · intro nonempty
    have bound := sectorsPerCluster_bound (bootSector kernel)
    have positive : 0 < sizeOfClusterBytes (privateOf later) := by
      rw [size]
      unfold DISK_SECTOR_SIZE
      omega
    have sized := Int.ne_of_gt positive
    refine ⟨?_, ?_, ?_, ?_, ?_, ?_⟩
    · exact fat16GetClusterForOffset_returns sized
    · exact fun total asked => chunkLength_pos positive asked
    · exact fun more stream cluster offset total out enough => readClusters_enough positive enough stream cluster offset out
    · exact fat16ReadInternal_returns sized
    · exact fread_returns sized
    · exact fun ends => fat16Open_returns held sized ends

/-- The state in which the header that the boot loader ships was accepted. -/
theorem readsSafely_iff_shipped : exists resolved, fat16Resolve shippedVolume = some (0, resolved) ∧
    (ReadsSafely resolved ↔ FatHeader.sectorsPerCluster (bootSector shippedVolume) ≠ 0) := by
  have room : RoomFrom shippedVolume 0 := ⟨kheapInit_isKernelHeap _ _, kheapInit_freeFrom _ _⟩
  have ends : RootEnds (driveOf shippedVolume) (bootSector shippedVolume) 0 :=
    ⟨⟨by decide, fun _ below => absurd below (Nat.not_lt_zero _)⟩, by decide, by decide⟩
  rcases shippedVolume_accepted with ⟨resolved, accepted⟩
  have mounted := fat16Resolve_mountedRoot room.kernelHeap accepted
    (room.kzalloc sizeofPrivateData (by decide) (by decide)).1 (by decide) ends
  exact ⟨resolved, accepted, readsSafely_iff room.kernelHeap.wellPlaced accepted mounted.held rfl⟩

/-- A header without sectors in a cluster is accepted, and the first read of its
volume divides by zero. -/
theorem readsSafely_fails_small : exists resolved, fat16Resolve smallVolume = some (0, resolved) ∧
    fat16ReadInternal resolved 3 0 1 0#32 = none ∧ ¬ ReadsSafely resolved := by
  rcases smallVolume_accepted with ⟨resolved, accepted⟩
  have volume := fat16Resolve_resolved smallVolume_room.kernelHeap.wellPlaced accepted
  have empty : sizeOfClusterBytes (privateOf resolved) = 0 := (sizeOfClusterBytes_resolved volume).trans (by decide)
  have divides : fat16GetClusterForOffset resolved 3 0 = none := if_pos empty
  refine ⟨resolved, accepted, ?_, fun safely => ?_⟩
  · unfold fat16ReadInternal fat16ReadInternalFromStream readClusters
    rw [divides]
  · rcases safely.divides 3 0 with ⟨found, lookup⟩
    rw [divides] at lookup
    exact absurd lookup (Option.some_ne_none found).symm

end Fs
end LarvaOS
