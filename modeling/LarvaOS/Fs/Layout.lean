import LarvaOS.Fs.Fat16Read
import LarvaOS.Fs.FatTable

namespace LarvaOS
namespace Fs

open Disk Memory

/-!
# Where the clusters lie

Behind the reserved sectors lie the copies of the table, then the root directory,
rounded up to whole sectors, and then the clusters.  `fat16_get_root_directory`
rounds up and then stores the end of the directory as if it were rounded down, so
every cluster of a volume whose root directory ends within a sector is found one
sector too early.

The position of a cluster is computed as an `int`.  Large clusters reach 2^31
bytes well within a volume of four gigabytes.
-/

namespace FatHeader

variable (header : Nat -> Byte)

def numberOfSectors : Int := halfWordAt header 19
def sectorsBig : Int := littleEndian [header 32, header 33, header 34, header 35]

/-- The size of the volume that the header declares, in sectors. -/
def declaredSectors : Int := if numberOfSectors header = 0 then sectorsBig header else numberOfSectors header

end FatHeader

/-- The sectors of the root directory. -/
def rootDirSectors (header : Nat -> Byte) : Int := (rootDirSize header + (DISK_SECTOR_SIZE - 1)) / DISK_SECTOR_SIZE

/-- The first sector with data. -/
def dataSector (header : Nat -> Byte) : Int := rootDirSectorPos header + rootDirSectors header

/-- The sector at which a cluster begins. -/
def clusterSector (header : Nat -> Byte) (cluster : Int) : Int :=
  dataSector header + (cluster - 2) * FatHeader.sectorsPerCluster header

/-- The root directory ends with a sector. -/
def RootDirWhole (header : Nat -> Byte) : Prop := FatHeader.rootDirEntries header % 16 = 0

instance (header : Nat -> Byte) : Decidable (RootDirWhole header) := inferInstanceAs (Decidable (_ = _))

section Bounds

variable (header : Nat -> Byte)

theorem rootDirEntries_bound : 0 ≤ FatHeader.rootDirEntries header ∧ FatHeader.rootDirEntries header < 65536 := by
  have low := (header 17).isLt
  have high := (header 18).isLt
  unfold FatHeader.rootDirEntries halfWordAt littleEndian littleEndian littleEndian
  omega

theorem sectorsPerCluster_bound : 0 ≤ FatHeader.sectorsPerCluster header ∧ FatHeader.sectorsPerCluster header < 256 := by
  have bound := (header 13).isLt
  unfold FatHeader.sectorsPerCluster
  omega

theorem rootDirSectorPos_bound : 0 ≤ rootDirSectorPos header ∧ rootDirSectorPos header < 16777216 := by
  have copies := (header 16).isLt
  have low := (header 22).isLt
  have high := (header 23).isLt
  have reservedLow := (header 14).isLt
  have reservedHigh := (header 15).isLt
  have product : (header 16).toNat * ((header 22).toNat + 256 * (header 23).toNat) ≤ 255 * 65535 :=
    Nat.mul_le_mul (by omega) (by omega)
  have size : FatHeader.sectorsPerFat header = ((header 22).toNat + 256 * (header 23).toNat : Nat) := by
    unfold FatHeader.sectorsPerFat halfWordAt littleEndian littleEndian littleEndian
    rw [Nat.mul_zero, Nat.add_zero]
  have reserved : FatHeader.reservedSectors header = ((header 14).toNat + 256 * (header 15).toNat : Nat) := by
    unfold FatHeader.reservedSectors halfWordAt littleEndian littleEndian littleEndian
    rw [Nat.mul_zero, Nat.add_zero]
  unfold rootDirSectorPos FatHeader.fatCopies
  rw [size, reserved, ← Int.natCast_mul]
  omega

theorem dataSector_bound : 0 ≤ dataSector header ∧ dataSector header < 16781313 := by
  have pos := rootDirSectorPos_bound header
  have size := rootDirSize_bound header
  unfold dataSector rootDirSectors DISK_SECTOR_SIZE
  omega

/-- The stored end is that of the directory, or a sector before it. -/
theorem endingSectorPos_eq :
    rootDirSectorPos header + (rootDirSize header).tdiv DISK_SECTOR_SIZE =
      dataSector header - if RootDirWhole header then 0 else 1 := by
  have entries := rootDirEntries_bound header
  by_cases whole : RootDirWhole header
  · rw [if_pos whole]
    unfold RootDirWhole at whole
    unfold dataSector rootDirSectors rootDirSize slotSize DISK_SECTOR_SIZE
    rw [Int.tdiv_eq_ediv_of_nonneg (by omega)]
    omega
  · rw [if_neg whole]
    unfold RootDirWhole at whole
    unfold dataSector rootDirSectors rootDirSize slotSize DISK_SECTOR_SIZE
    rw [Int.tdiv_eq_ediv_of_nonneg (by omega)]
    omega

end Bounds

/-! ## Sectors -/

/-- The sector of a cluster, as an accepted disk has it. -/
theorem fat16ClusterToSector_resolved {kernel resolved : Kernel} (volume : Resolved kernel resolved) (cluster : Int) :
    fat16ClusterToSector (privateOf resolved) cluster =
      wrapInt (clusterSector (bootSector kernel) cluster - if RootDirWhole (bootSector kernel) then 0 else 1) := by
  rcases volume.rootDir with ⟨mark, dir, _, rootDir⟩
  unfold fat16ClusterToSector
  rw [rootDir, volume.header.sectorsPerCluster]
  unfold loadedRootDir clusterSector
  dsimp only
  rw [endingSectorPos_eq]
  congr 1
  generalize (if RootDirWhole (bootSector kernel) then (0 : Int) else 1) = short
  omega

/-- The sectors of the copies of the table. -/
def InTables (header : Nat -> Byte) (sector : Int) : Prop :=
  FatHeader.reservedSectors header ≤ sector ∧
    sector < FatHeader.reservedSectors header + FatHeader.fatCopies header * FatHeader.sectorsPerFat header

/-- The sectors of the root directory. -/
def InRootDir (header : Nat -> Byte) (sector : Int) : Prop :=
  rootDirSectorPos header ≤ sector ∧ sector < rootDirSectorPos header + rootDirSectors header

/-- The sectors that are read for a cluster. -/
def InCluster (fatPrivate : FatPrivateData) (cluster sector : Int) : Prop :=
  fat16ClusterToSector fatPrivate cluster ≤ sector ∧
    sector < fat16ClusterToSector fatPrivate cluster + FatHeader.sectorsPerCluster fatPrivate.header

/-- The layout of the volume up to a cluster: each cluster is where it should be,
and no sector belongs to two regions. -/
structure LaysOut (header : Nat -> Byte) (fatPrivate : FatPrivateData) (last : Int) : Prop where
  place : forall cluster, 2 ≤ cluster -> cluster ≤ last ->
    fat16ClusterToSector fatPrivate cluster = clusterSector header cluster
  tables : forall cluster sector, 2 ≤ cluster -> cluster ≤ last -> InCluster fatPrivate cluster sector ->
    ¬ InTables header sector
  rootDir : forall cluster sector, 2 ≤ cluster -> cluster ≤ last -> InCluster fatPrivate cluster sector ->
    ¬ InRootDir header sector
  clusters : forall cluster other sector, 2 ≤ cluster -> cluster ≤ last -> 2 ≤ other -> other ≤ last ->
    cluster ≠ other -> InCluster fatPrivate cluster sector -> ¬ InCluster fatPrivate other sector
  apart : forall sector, InTables header sector -> ¬ InRootDir header sector

/-- Later clusters lie behind earlier ones. -/
theorem clusterSector_step (header : Nat -> Byte) {cluster other : Int} (before : cluster < other) :
    clusterSector header cluster + FatHeader.sectorsPerCluster header ≤ clusterSector header other := by
  have size := (sectorsPerCluster_bound header).1
  have steps : 0 ≤ (other - cluster - 1) * FatHeader.sectorsPerCluster header := Int.mul_nonneg (by omega) size
  have split : (other - 2) * FatHeader.sectorsPerCluster header =
      (cluster - 2) * FatHeader.sectorsPerCluster header + FatHeader.sectorsPerCluster header +
        (other - cluster - 1) * FatHeader.sectorsPerCluster header := by
    have parts : other - 2 = cluster - 2 + 1 + (other - cluster - 1) := by omega
    rw [parts, Int.add_mul, Int.add_mul, Int.one_mul]
  unfold clusterSector
  omega

theorem dataSector_le_clusterSector (header : Nat -> Byte) {cluster : Int} (data : 2 ≤ cluster) :
    dataSector header ≤ clusterSector header cluster := by
  have behind : 0 ≤ (cluster - 2) * FatHeader.sectorsPerCluster header :=
    Int.mul_nonneg (by omega) (sectorsPerCluster_bound header).1
  unfold clusterSector
  omega

/-- The clusters up to a last one lie as they should if and only if the root
directory ends with a sector and the number of the last sector is an `int`. -/
theorem laysOut_iff {kernel resolved : Kernel} (placed : kernel.heap.WellPlaced)
    (accepted : fat16Resolve kernel = some (0, resolved)) {last : Int} (some : 2 ≤ last) :
    LaysOut (bootSector kernel) (privateOf resolved) last ↔
      RootDirWhole (bootSector kernel) ∧ clusterSector (bootSector kernel) last < 2 ^ 31 := by
  have volume := fat16Resolve_resolved placed accepted
  have start := dataSector_bound (bootSector kernel)
  constructor
  · intro lays
    have whole : RootDirWhole (bootSector kernel) := by
      by_contra ragged
      have place := lays.place last some (Int.le_refl last)
      have congruent := wrapInt_emod (clusterSector (bootSector kernel) last - 1)
      rw [fat16ClusterToSector_resolved volume, if_neg ragged] at place
      rw [place] at congruent
      omega
    refine ⟨whole, ?_⟩
    have place := lays.place last some (Int.le_refl last)
    rw [fat16ClusterToSector_resolved volume, if_pos whole, Int.sub_zero] at place
    exact ((wrapInt_eq_iff _).mp place).2
  · rintro ⟨whole, fits⟩
    have place : forall cluster, 2 ≤ cluster -> cluster ≤ last ->
        fat16ClusterToSector (privateOf resolved) cluster = clusterSector (bootSector kernel) cluster := by
      intro cluster data below
      have behind := dataSector_le_clusterSector (bootSector kernel) data
      have bound : clusterSector (bootSector kernel) cluster ≤ clusterSector (bootSector kernel) last := by
        rcases Int.lt_or_eq_of_le below with earlier | rfl
        · have step := clusterSector_step (bootSector kernel) earlier
          have size := (sectorsPerCluster_bound (bootSector kernel)).1
          omega
        · exact Int.le_refl _
      rw [fat16ClusterToSector_resolved volume, if_pos whole, Int.sub_zero]
      exact wrapInt_of_small (by omega) (by omega)
    have header := volume.header.sectorsPerCluster
    have tablesEnd : FatHeader.reservedSectors (bootSector kernel) +
        FatHeader.fatCopies (bootSector kernel) * FatHeader.sectorsPerFat (bootSector kernel) =
          rootDirSectorPos (bootSector kernel) := by
      unfold rootDirSectorPos
      exact Int.add_comm _ _
    have dataStart : dataSector (bootSector kernel) =
        rootDirSectorPos (bootSector kernel) + rootDirSectors (bootSector kernel) := rfl
    have size := rootDirSize_bound (bootSector kernel)
    refine ⟨place, ?_, ?_, ?_, ?_⟩
    · intro cluster sector data below inside outside
      have behind := dataSector_le_clusterSector (bootSector kernel) data
      unfold InCluster InTables rootDirSectors DISK_SECTOR_SIZE at *
      rw [place cluster data below] at inside
      omega
    · intro cluster sector data below inside outside
      have behind := dataSector_le_clusterSector (bootSector kernel) data
      unfold InCluster InRootDir at *
      rw [place cluster data below] at inside
      omega
    · intro cluster other sector data below otherData otherBelow different inside outside
      unfold InCluster at *
      rw [place cluster data below, header] at inside
      rw [place other otherData otherBelow, header] at outside
      rcases Int.lt_or_gt_of_ne different with before | after
      · have step := clusterSector_step (bootSector kernel) before
        omega
      · have step := clusterSector_step (bootSector kernel) after
        omega
    · intro sector inside outside
      unfold InTables InRootDir at *
      omega

/-- A disk with a root directory of seventeen slots. -/
abbrev raggedVolume : Kernel :=
  kheapInit
    (Kernel.loaded Store.blank
      (fun sector place =>
        if sector = 0 then
          if place = 13 ∨ place = 14 ∨ place = 22 then 1#8 else if place = 16 then 2#8 else if place = 17 then 17#8
          else if place = 38 then FAT16_SIGNATURE else 0#8
        else 0#8)
      fun _ => 0#8)
    fun _ => 0#8

theorem raggedVolume_accepted : exists resolved, fat16Resolve raggedVolume = some (0, resolved) :=
  @fat16Resolve_accepts _ ⟨kheapInit_isKernelHeap _ _, kheapInit_freeFrom _ _⟩ (by decide) (by decide) 0
    ⟨by decide, fun _ below => absurd below (Nat.not_lt_zero _)⟩

/-- The layout of that disk up to its third cluster. -/
theorem laysOut_iff_ragged : exists resolved, fat16Resolve raggedVolume = some (0, resolved) ∧
    (LaysOut (bootSector raggedVolume) (privateOf resolved) 4 ↔
      RootDirWhole (bootSector raggedVolume) ∧ clusterSector (bootSector raggedVolume) 4 < 2 ^ 31) := by
  rcases raggedVolume_accepted with ⟨resolved, accepted⟩
  exact ⟨resolved, accepted, laysOut_iff (kheapInit_isKernelHeap _ _).wellPlaced accepted (by decide)⟩

/-- Cluster 2 of that disk is looked for in the second sector of the root
directory. -/
theorem laysOut_fails_ragged : exists resolved, fat16Resolve raggedVolume = some (0, resolved) ∧
    ¬ LaysOut (bootSector raggedVolume) (privateOf resolved) 2 := by
  rcases raggedVolume_accepted with ⟨resolved, accepted⟩
  refine ⟨resolved, accepted, fun lays => ?_⟩
  have volume := fat16Resolve_resolved (kheapInit_isKernelHeap _ _).wellPlaced accepted
  have place := lays.place 2 (by decide) (by decide)
  rw [fat16ClusterToSector_resolved volume] at place
  exact absurd place (by decide)

/-! ## Positions -/

/-- The size of a cluster in bytes, by the header. -/
theorem sizeOfClusterBytes_resolved {kernel resolved : Kernel} (volume : Resolved kernel resolved) :
    sizeOfClusterBytes (privateOf resolved) = FatHeader.sectorsPerCluster (bootSector kernel) * DISK_SECTOR_SIZE :=
  congrArg (· * DISK_SECTOR_SIZE) volume.header.sectorsPerCluster

/-- A read from within the first cluster of a chain begins at the position of
that cluster. -/
theorem firstRequest {kernel : Kernel} {cluster : Nat} {offset : Int} (lower : 0 ≤ offset)
    (inside : offset < sizeOfClusterBytes (privateOf kernel)) (stream : Word) (total : Int) (out : Word) :
    exists reading length rest, fat16ReadInternalFromStream kernel stream cluster offset total out = some reading ∧
      reading.requests = (clusterPosition (privateOf kernel) cluster offset, length) :: rest := by
  have sized : sizeOfClusterBytes (privateOf kernel) ≠ 0 := by omega
  have none : (offset / sizeOfClusterBytes (privateOf kernel)).toNat = 0 := by
    rw [Int.ediv_eq_zero_of_lt lower inside]
    rfl
  have passes : forall i, i < (offset / sizeOfClusterBytes (privateOf kernel)).toNat ->
      chainStops (fatChain kernel cluster (i + 1)) = false := by
    intro i below
    rw [none] at below
    exact absurd below (Nat.not_lt_zero i)
  have arrived : 0 ≤ fatChain kernel cluster (offset / sizeOfClusterBytes (privateOf kernel)).toNat := by
    rw [none]
    exact Int.natCast_nonneg cluster
  rcases readClusters_served sized lower passes arrived stream total out with ⟨chunk, _, requests, volume, last, next⟩
  rw [none, Int.emod_eq_of_lt lower inside] at requests
  rw [fat16ReadInternalFromStream]
  cases total.toNat with
  | zero => exact ⟨chunk, _, [], last, requests⟩
  | succ more =>
      rw [next]
      by_cases left : total - chunkLength (sizeOfClusterBytes (privateOf kernel)) total > 0
      · rw [if_pos left]
        have sizedLater : sizeOfClusterBytes (privateOf chunk.kernel) ≠ 0 := by rwa [volume.fatPrivate]
        rcases readClusters_returns sizedLater more stream cluster _ _ _ with ⟨reading, read⟩
        rw [read]
        exact ⟨_, _, reading.requests, rfl, congrArg (· ++ reading.requests) requests⟩
      · rw [if_neg left]
        exact ⟨chunk, _, [], rfl, requests⟩

/-- The position of a byte of a cluster, and how a stream splits it. -/
structure IsPosition (header : Nat -> Byte) (cluster offset position : Int) : Prop where
  exact : position = clusterSector header cluster * DISK_SECTOR_SIZE + offset
  natural : 0 ≤ position
  sector : position.tdiv DISK_SECTOR_SIZE = clusterSector header cluster + offset / DISK_SECTOR_SIZE
  place : position.tmod DISK_SECTOR_SIZE = offset % DISK_SECTOR_SIZE

/-- A read from an offset in a cluster begins with a seek to the byte there. -/
def SeeksByte (header : Nat -> Byte) (kernel : Kernel) (stream : Word) (cluster : Nat) (offset total : Int)
    (out : Word) : Prop :=
  exists reading position length rest,
    fat16ReadInternalFromStream kernel stream cluster offset total out = some reading ∧
      reading.requests = (position, length) :: rest ∧ IsPosition header cluster offset position

/-- The position that a read seeks, as an accepted disk has it. -/
theorem clusterPosition_resolved {kernel resolved : Kernel} (volume : Resolved kernel resolved) (cluster offset : Int) :
    clusterPosition (privateOf resolved) cluster offset =
      wrapInt ((clusterSector (bootSector kernel) cluster - if RootDirWhole (bootSector kernel) then 0 else 1) *
        DISK_SECTOR_SIZE + offset) := by
  unfold clusterPosition
  rw [fat16ClusterToSector_resolved volume]
  dsimp only
  rw [wrapInt_add_wrapInt]
  exact wrapInt_congr (by rw [Int.add_emod, Int.mul_emod, wrapInt_emod, ← Int.mul_emod, ← Int.add_emod])

theorem seeksByte_iff_isPosition {kernel resolved : Kernel} (volume : Resolved kernel resolved) {cluster : Nat}
    {offset : Int} (lower : 0 ≤ offset)
    (inside : offset < FatHeader.sectorsPerCluster (bootSector kernel) * DISK_SECTOR_SIZE) (stream : Word)
    (total : Int) (out : Word) :
    SeeksByte (bootSector kernel) resolved stream cluster offset total out ↔
      IsPosition (bootSector kernel) cluster offset (clusterPosition (privateOf resolved) cluster offset) := by
  rw [← sizeOfClusterBytes_resolved volume] at inside
  rcases @firstRequest resolved cluster offset lower inside stream total out with
    ⟨reading, length, rest, read, requests⟩
  constructor
  · rintro ⟨other, position, otherLength, others, same, first, isPosition⟩
    obtain rfl := Option.some.inj (same.symm.trans read)
    rw [requests] at first
    rw [(Prod.mk.inj (List.cons.inj first).1).1]
    exact isPosition
  · exact fun isPosition => ⟨reading, _, length, rest, read, requests, isPosition⟩

/-- A read finds the byte of a cluster if and only if the root directory ends
with a sector and the position is an `int`. -/
theorem seeksByte_iff {kernel resolved : Kernel} (placed : kernel.heap.WellPlaced)
    (accepted : fat16Resolve kernel = some (0, resolved)) {cluster : Nat} (data : 2 ≤ cluster) {offset : Int}
    (lower : 0 ≤ offset) (inside : offset < FatHeader.sectorsPerCluster (bootSector kernel) * DISK_SECTOR_SIZE)
    (stream : Word) (total : Int) (out : Word) :
    SeeksByte (bootSector kernel) resolved stream cluster offset total out ↔
      RootDirWhole (bootSector kernel) ∧
        clusterSector (bootSector kernel) cluster * DISK_SECTOR_SIZE + offset < 2 ^ 31 := by
  have volume := fat16Resolve_resolved placed accepted
  have start := dataSector_bound (bootSector kernel)
  have behind := dataSector_le_clusterSector (bootSector kernel) (Int.ofNat_le.mpr data)
  rw [seeksByte_iff_isPosition volume lower inside, clusterPosition_resolved volume]
  unfold DISK_SECTOR_SIZE
  constructor
  · intro isPosition
    have exact := isPosition.exact
    have whole : RootDirWhole (bootSector kernel) := by
      by_contra ragged
      rw [if_neg ragged] at exact
      have congruent := wrapInt_emod ((clusterSector (bootSector kernel) cluster - 1) * DISK_SECTOR_SIZE + offset)
      unfold DISK_SECTOR_SIZE at *
      rw [exact] at congruent
      omega
    rw [if_pos whole, Int.sub_zero] at exact
    exact ⟨whole, ((wrapInt_eq_iff _).mp exact).2⟩
  · rintro ⟨whole, fits⟩
    rw [if_pos whole, Int.sub_zero, wrapInt_of_small (by omega) fits]
    refine ⟨rfl, by omega, ?_, ?_⟩
    · unfold DISK_SECTOR_SIZE
      rw [Int.tdiv_eq_ediv_of_nonneg (by omega)]
      omega
    · unfold DISK_SECTOR_SIZE
      rw [Int.tmod_eq_emod_of_nonneg (by omega)]
      omega

/-- The header that the boot loader ships, on a disk with an empty root
directory. -/
abbrev shippedVolume : Kernel :=
  kheapInit
    (Kernel.loaded Store.blank
      (fun sector place =>
        if sector = 0 then
          if place = 13 then 0x80#8 else if place = 14 then 200#8 else if place = 16 then 2#8
          else if place = 17 then 0x40#8 else if place = 23 then 1#8 else if place = 32 then 0x94#8
          else if place = 33 then 0x35#8 else if place = 34 then 0x77#8
          else if place = 38 then FAT16_SIGNATURE else 0#8
        else 0#8)
      fun _ => 0#8)
    fun _ => 0#8

theorem shippedVolume_accepted : exists resolved, fat16Resolve shippedVolume = some (0, resolved) :=
  @fat16Resolve_accepts _ ⟨kheapInit_isKernelHeap _ _, kheapInit_freeFrom _ _⟩ (by decide) (by decide) 0
    ⟨by decide, fun _ below => absurd below (Nat.not_lt_zero _)⟩

/-- The seek to the first cluster of that disk. -/
theorem seeksByte_iff_shipped : exists resolved, fat16Resolve shippedVolume = some (0, resolved) ∧
    (SeeksByte (bootSector shippedVolume) resolved 0#32 2 0 1 0#32 ↔
      RootDirWhole (bootSector shippedVolume) ∧
        clusterSector (bootSector shippedVolume) 2 * DISK_SECTOR_SIZE + 0 < 2 ^ 31) := by
  rcases shippedVolume_accepted with ⟨resolved, accepted⟩
  exact ⟨resolved, accepted, @seeksByte_iff shippedVolume resolved (kheapInit_isKernelHeap _ _).wellPlaced accepted 2
    (by decide) 0 (by decide) (by decide) 0#32 1 0#32⟩

/-- Cluster 32765 lies within the volume that the shipped header declares, and
a read of it seeks a negative position. -/
theorem seeksByte_fails_shipped : exists resolved, fat16Resolve shippedVolume = some (0, resolved) ∧
    clusterSector (bootSector shippedVolume) 32765 + FatHeader.sectorsPerCluster (bootSector shippedVolume) ≤
      FatHeader.declaredSectors (bootSector shippedVolume) ∧
    ¬ SeeksByte (bootSector shippedVolume) resolved 0#32 32765 0 1 0#32 := by
  rcases shippedVolume_accepted with ⟨resolved, accepted⟩
  refine ⟨resolved, accepted, by decide, ?_⟩
  have volume := fat16Resolve_resolved (kheapInit_isKernelHeap _ _).wellPlaced accepted
  rw [seeksByte_iff_isPosition volume (by decide) (by decide), clusterPosition_resolved volume]
  exact fun isPosition => absurd isPosition.natural (by decide)

end Fs
end LarvaOS
