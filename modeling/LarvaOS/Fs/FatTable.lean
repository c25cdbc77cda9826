import Mathlib.Data.Int.Interval
import LarvaOS.Fs.Fat16Resolve

namespace LarvaOS
namespace Fs

open Library Disk Memory

/-!
# Lookups in the file allocation table

The entry of a cluster lies two bytes behind the entry of the cluster before
it.  The position at which `fat16_get_fat_entry` reads is the product of the
table's position and the distance from there, in the place of their sum.  Every
such position is a multiple of 1024, and the first copy of the table has fewer
of these than entries.
-/

/-- The position of the first copy of the table. -/
def tablePosition (header : Nat -> Byte) : Int := FatHeader.reservedSectors header * DISK_SECTOR_SIZE

/-- The position behind the first copy of the table. -/
def tableEnd (header : Nat -> Byte) : Int :=
  tablePosition header + FatHeader.sectorsPerFat header * DISK_SECTOR_SIZE

/-- The position at which the entry of a cluster is stored. -/
def entryPosition (header : Nat -> Byte) (cluster : Int) : Int :=
  tablePosition header + cluster * FAT16_FAT_ENTRY_SIZE

/-- The table has an entry for this cluster. -/
def Covered (header : Nat -> Byte) (cluster : Int) : Prop :=
  0 ≤ cluster ∧ entryPosition header cluster + FAT16_FAT_ENTRY_SIZE ≤ tableEnd header

/-- The number of two bytes at a position of the disk. -/
def storedEntry (drive : Drive) (pos : Int) : Int := littleEndian (slice drive.byteAt pos 2)

/-- What `fat16_get_fat_entry` promises for a boot sector: the entry of a
cluster is the one that is stored for it, and each cluster is looked up at a
place of its own in the first copy of the table. -/
structure LooksUpTable (header : Nat -> Byte) (kernel : Kernel) : Prop where
  value : forall cluster, Covered header cluster ->
    (fat16GetFatEntry kernel cluster).1 = storedEntry (driveOf kernel) (entryPosition header cluster)
  apart : forall cluster other, Covered header cluster -> Covered header other -> cluster ≠ other ->
    fatEntryPosition (privateOf kernel) cluster ≠ fatEntryPosition (privateOf kernel) other
  inside : forall cluster, Covered header cluster ->
    tablePosition header ≤ fatEntryPosition (privateOf kernel) cluster ∧
      fatEntryPosition (privateOf kernel) cluster + FAT16_FAT_ENTRY_SIZE ≤ tableEnd header

/-- The position of a lookup is the product, as 32 bits hold it. -/
theorem fatEntryPosition_eq (fatPrivate : FatPrivateData) (cluster : Int) :
    fatEntryPosition fatPrivate cluster =
      wrapInt (tablePosition fatPrivate.header * (cluster * FAT16_FAT_ENTRY_SIZE)) := by
  rw [wrapInt, intToWord_mul (tablePosition fatPrivate.header), tablePosition, intToWord_mul _ DISK_SECTOR_SIZE]
  rfl

theorem dvd_fatEntryPosition (fatPrivate : FatPrivateData) (cluster : Int) :
    (1024 : Int) ∣ fatEntryPosition fatPrivate cluster := by
  have split := Int.bmod_add_bdiv (tablePosition fatPrivate.header * (cluster * FAT16_FAT_ENTRY_SIZE)) (2 ^ 32)
  rw [fatEntryPosition_eq, wrapInt_eq_bmod]
  have product : tablePosition fatPrivate.header * (cluster * FAT16_FAT_ENTRY_SIZE) =
      1024 * (FatHeader.reservedSectors fatPrivate.header * cluster) := by
    unfold tablePosition DISK_SECTOR_SIZE FAT16_FAT_ENTRY_SIZE
    rw [mul_mul_mul_comm, mul_comm]
    rfl
  rw [product] at split ⊢
  omega

/-- The data clusters of a table that is not empty are not looked up at
different places of its first copy. -/
theorem fatEntryPosition_collides {header : Nat -> Byte} (fatPrivate : FatPrivateData)
    (nonempty : 0 < FatHeader.sectorsPerFat header)
    (inside : forall cluster, Covered header cluster -> tablePosition header ≤ fatEntryPosition fatPrivate cluster ∧
      fatEntryPosition fatPrivate cluster + FAT16_FAT_ENTRY_SIZE ≤ tableEnd header) :
    exists cluster other, Covered header cluster ∧ Covered header other ∧ cluster ≠ other ∧
      fatEntryPosition fatPrivate cluster = fatEntryPosition fatPrivate other := by
  obtain ⟨sectors, size⟩ := Int.eq_ofNat_of_zero_le (Int.le_of_lt nonempty)
  have covered : forall number : Nat, number < 2 * sectors + 2 -> Covered header ((number : Int) + 2) := by
    intro number below
    unfold Covered entryPosition tableEnd DISK_SECTOR_SIZE FAT16_FAT_ENTRY_SIZE
    omega
  have fewer : (Finset.Icc (tablePosition header / 1024) (tableEnd header / 1024)).card <
      (Finset.range (2 * sectors + 2)).card := by
    rw [Int.card_Icc, Finset.card_range]
    unfold tableEnd DISK_SECTOR_SIZE
    omega
  have maps : forall number, number ∈ Finset.range (2 * sectors + 2) ->
      fatEntryPosition fatPrivate ((number : Int) + 2) / 1024 ∈
        Finset.Icc (tablePosition header / 1024) (tableEnd header / 1024) := by
    intro number member
    have bounds := inside _ (covered number (Finset.mem_range.mp member))
    unfold FAT16_FAT_ENTRY_SIZE at bounds
    rw [Finset.mem_Icc]
    omega
  rcases Finset.exists_ne_map_eq_of_card_lt_of_maps_to fewer maps with ⟨first, member, second, member', differ, same⟩
  refine ⟨first + 2, second + 2, covered first (Finset.mem_range.mp member),
    covered second (Finset.mem_range.mp member'), by omega, ?_⟩
  have dvd := dvd_fatEntryPosition fatPrivate ((first : Int) + 2)
  have dvd' := dvd_fatEntryPosition fatPrivate ((second : Int) + 2)
  omega

/-- Whatever private data a boot sector was resolved to, the promise is kept
exactly when its table is empty. -/
theorem looksUpTable_iff_empty (kernel resolved : Kernel) :
    LooksUpTable (bootSector kernel) resolved ↔ FatHeader.sectorsPerFat (bootSector kernel) = 0 := by
  constructor
  · intro looksUp
    by_contra nonempty
    have positive : 0 < FatHeader.sectorsPerFat (bootSector kernel) := by
      unfold FatHeader.sectorsPerFat halfWordAt at *
      omega
    rcases fatEntryPosition_collides (privateOf resolved) positive looksUp.inside with
      ⟨cluster, other, covered, covered', differ, same⟩
    exact looksUp.apart cluster other covered covered' differ same
  · intro empty
    have none : forall cluster, ¬ Covered (bootSector kernel) cluster := by
      intro cluster covered
      unfold Covered entryPosition tableEnd DISK_SECTOR_SIZE FAT16_FAT_ENTRY_SIZE at covered
      omega
    exact ⟨fun _ covered => absurd covered (none _), fun _ _ covered => absurd covered (none _),
      fun _ covered => absurd covered (none _)⟩

/-! ## Files as they are stored -/

/-- The position of the first cluster with data, behind the root directory. -/
def dataPosition (header : Nat -> Byte) : Int :=
  rootDirStart header + (rootDirSize header + (DISK_SECTOR_SIZE - 1)) / DISK_SECTOR_SIZE * DISK_SECTOR_SIZE

/-- The size of a cluster that the header gives. -/
def clusterBytes (header : Nat -> Byte) : Int := FatHeader.sectorsPerCluster header * DISK_SECTOR_SIZE

/-- The position of a cluster. -/
def clusterStart (header : Nat -> Byte) (cluster : Int) : Int :=
  dataPosition header + (cluster - 2) * clusterBytes header

/-- The clusters that the stored table gives for a first one. -/
def storedCluster (drive : Drive) (header : Nat -> Byte) (first : Int) : Nat -> Int
  | 0 => first
  | number + 1 => storedEntry drive (entryPosition header (storedCluster drive header first number))

/-- A byte of a file, by its number. -/
def storedByte (drive : Drive) (header : Nat -> Byte) (first place : Int) : Byte :=
  drive.byteAt (clusterStart header (storedCluster drive header first (place / clusterBytes header).toNat) +
    place % clusterBytes header)

/-- A chain of data clusters with an end. -/
structure StoredChain (drive : Drive) (header : Nat -> Byte) where
  first : Int
  length : Nat
  data : forall number, number < length -> DataCluster (storedCluster drive header first number)
  ends : 0xFFF8 ≤ storedCluster drive header first length

/-! ## A volume -/

/-- A disk with one reserved sector and two tables of one sector.  Cluster 3
ends a file. -/
abbrev smallVolume : Kernel :=
  kheapInit
    (Kernel.loaded Store.blank
      (fun sector place =>
        if sector = 0 then
          if place = 14 ∨ place = 22 then 1#8 else if place = 16 then 2#8 else if place = 17 then 16#8
          else if place = 38 then FAT16_SIGNATURE else 0#8
        else if sector = 1 ∧ (place = 6 ∨ place = 7) then 0xFF#8
        else 0#8)
      fun _ => 0#8)
    fun _ => 0#8

theorem smallVolume_room : RoomFrom smallVolume 0 := ⟨kheapInit_isKernelHeap _ _, kheapInit_freeFrom _ _⟩

theorem smallVolume_accepted : exists resolved, fat16Resolve smallVolume = some (0, resolved) :=
  @fat16Resolve_accepts _ smallVolume_room (by decide) (by decide) 0
    ⟨by decide, fun _ below => absurd below (Nat.not_lt_zero _)⟩

/-- The entry of cluster 3 is looked up at 3072 and not at 518. -/
theorem looksUpTable_fails_small : exists resolved, fat16Resolve smallVolume = some (0, resolved) ∧
    ¬ LooksUpTable (bootSector smallVolume) resolved := by
  rcases smallVolume_accepted with ⟨resolved, accepted⟩
  refine ⟨resolved, accepted, fun looksUp => ?_⟩
  have volume := fat16Resolve_resolved smallVolume_room.kernelHeap.wellPlaced accepted
  have value := looksUp.value 3 ⟨by decide, by decide⟩
  have position : fatEntryPosition (privateOf resolved) 3 = 3072 := by
    rw [fatEntryPosition_eq, tablePosition, volume.header.reservedSectors]
    decide
  rw [fat16GetFatEntry_value, fatEntryOf, position, volume.drive] at value
  by_cases none : (privateOf resolved).fatReadStream = 0#32
  · rw [if_pos none] at value
    exact absurd value (by decide)
  · rw [if_neg none] at value
    exact absurd value (by decide)

end Fs
end LarvaOS
