import LarvaOS.Fs.Fat16
import LarvaOS.Fs.Fat16Read
import LarvaOS.Fs.RootDirectory

namespace LarvaOS
namespace Fs

open Library Disk Libc Memory

/-!
# What the file system leaves alone

Reading from the disk moves streams and stores the bytes where they are asked
for.  Loading a directory and making an item allocate memory, store into what
they have allocated, and release nothing else.  The bytes of an older
allocation are therefore the same after a search.
-/

/-- Streams have moved and bytes were stored, and nothing else has changed. -/
def Transferred (before after : Kernel) : Prop :=
  exists bytes positions,
    after = before.withStore { before.toStore with bytes := bytes, streamPositions := positions }

namespace Transferred

variable {first before after : Kernel}

theorem refl (kernel : Kernel) : Transferred kernel kernel := ⟨kernel.bytes, kernel.streamPositions, rfl⟩

theorem trans (left : Transferred first before) (right : Transferred before after) : Transferred first after := by
  rcases left with ⟨_, _, rfl⟩
  rcases right with ⟨bytes, positions, rfl⟩
  exact ⟨bytes, positions, rfl⟩

theorem heap (transferred : Transferred before after) : after.heap = before.heap := by
  rcases transferred with ⟨_, _, rfl⟩
  rfl

theorem toGlobals (transferred : Transferred before after) : after.toGlobals = before.toGlobals := by
  rcases transferred with ⟨_, _, rfl⟩
  rfl

theorem refused (transferred : Transferred before after) : after.refused = before.refused := by
  rcases transferred with ⟨_, _, rfl⟩
  rfl

theorem fatDirectories (transferred : Transferred before after) : after.fatDirectories = before.fatDirectories := by
  rcases transferred with ⟨_, _, rfl⟩
  rfl

theorem fatItems (transferred : Transferred before after) : after.fatItems = before.fatItems := by
  rcases transferred with ⟨_, _, rfl⟩
  rfl

theorem seek (kernel : Kernel) (stream : Word) (pos : Int) : Transferred kernel (diskStreamSeek kernel stream pos) :=
  ⟨_, _, rfl⟩

theorem read (kernel : Kernel) (stream : Word) (total : Int) :
    Transferred kernel (diskStreamRead kernel stream total).2 := ⟨_, _, rfl⟩

theorem stored (kernel : Kernel) (address : Word) (bytes : List Byte) :
    Transferred kernel (storeBytes kernel address bytes) := ⟨_, _, rfl⟩

end Transferred

/-! ## Bytes that are read -/

theorem copySector_length (drive : Drive) (pos total : Int) : (copySector drive pos total).bytes.length = total.toNat := by
  rw [copySector_eq]
  exact slice_length _ _ _

theorem streamTransfer_length (drive : Drive) (pos total : Int) :
    (streamTransfer drive pos total).bytes.length = total.toNat := by
  generalize size : total.toNat = count
  induction count using Nat.strongRecOn generalizing pos total with
  | _ count inductionHypothesis =>
      rw [streamTransfer_eq]
      by_cases more : total > DISK_SECTOR_SIZE
      · have result : (copySector drive pos DISK_SECTOR_SIZE).result = 0 := by rw [copySector_eq]
        have first := copySector_length drive pos DISK_SECTOR_SIZE
        rw [if_pos more]
        simp only [result, Int.lt_irrefl, if_false]
        unfold DISK_SECTOR_SIZE at *
        have rest := inductionHypothesis (total - 512).toNat (by omega) (copySector drive pos 512).pos (total - 512) rfl
        change ((copySector drive pos 512).bytes ++ (streamTransfer drive _ (total - 512)).bytes).length = count
        rw [List.length_append, first, rest]
        omega
      · rw [if_neg more, copySector_length]
        exact size

section Reading

variable {guard : Extent -> Prop} {first before : Kernel}

/-- The bytes that are not fresh are the same, and only streams and bytes have
changed since another kernel. -/
structure ReadsFresh (guard : Extent -> Prop) (first before after : Kernel) : Prop where
  transferred : Transferred before after
  keeps : KeepsObjects guard first after

namespace ReadsFresh

variable {after : Kernel} (reads : ReadsFresh guard first before after)
include reads

theorem seek (stream : Word) (pos : Int) : ReadsFresh guard first before (diskStreamSeek after stream pos) where
  transferred := reads.transferred.trans (Transferred.seek after stream pos)
  keeps := reads.keeps.withStore fun _ _ => ⟨rfl, rfl, rfl, rfl, rfl, rfl, rfl, rfl, rfl⟩

theorem read (stream : Word) (total : Int) : ReadsFresh guard first before (diskStreamRead after stream total).2 where
  transferred := reads.transferred.trans (Transferred.read after stream total)
  keeps := reads.keeps.withStore fun _ _ => ⟨rfl, rfl, rfl, rfl, rfl, rfl, rfl, rfl, rfl⟩

theorem stored {address : Word} {bytes : List Byte} (fresh : FreshRange guard first address bytes.length) :
    ReadsFresh guard first before (storeBytes after address bytes) where
  transferred := reads.transferred.trans (Transferred.stored after address bytes)
  keeps := by
    refine reads.keeps.withStore fun place old => ?_
    have beyond : bytes.length ≤ (place - address).toNat := Nat.not_lt.mp fun inside => old (fresh place inside)
    refine ⟨rfl, ?_, rfl, rfl, rfl, rfl, rfl, rfl, rfl⟩
    change (bytes[(place - address).toNat]?).getD (after.bytes place) = _
    rw [List.getElem?_eq_none beyond]
    rfl

theorem fat16GetFatEntry (cluster : Int) : ReadsFresh guard first before (Fs.fat16GetFatEntry after cluster).2 := by
  unfold Fs.fat16GetFatEntry
  by_cases none : (privateOf after).fatReadStream = 0#32
  · rw [if_pos none]
    exact reads
  · rw [if_neg none]
    simp only [diskStreamRead_result, Int.lt_irrefl, if_false]
    exact (reads.seek _ _).read _ _

theorem fat16GetClusterForOffset {cluster offset : Int} {found : Int × Kernel}
    (same : Fs.fat16GetClusterForOffset after cluster offset = some found) :
    ReadsFresh guard first before found.2 := by
  unfold Fs.fat16GetClusterForOffset clusterForOffset at same
  by_cases sized : sizeOfClusterBytes (privateOf after) = 0
  · rw [if_pos sized] at same
    exact absurd same (by simp)
  · rw [if_neg sized] at same
    obtain rfl := Option.some.inj same
    exact followClusters_keeps Fs.fat16GetFatEntry (fun _ cluster keeps => keeps.fat16GetFatEntry cluster) reads _ _

theorem readChunk (stream : Word) (position totalToRead : Int) {out : Word}
    (fresh : FreshRange guard first out totalToRead.toNat) :
    ReadsFresh guard first before (Fs.readChunk after stream position totalToRead out).kernel := by
  unfold Fs.readChunk
  simp only [diskStreamRead_result, Int.lt_irrefl, if_false]
  refine ((reads.seek stream position).read stream totalToRead).stored ?_
  rw [diskStreamRead_sought, streamTransfer_length]
  exact fresh

end ReadsFresh

/-- Behind its beginning a fresh range is fresh. -/
theorem freshRange_drop {pointer : Word} {total length : Int} (fresh : FreshRange guard first pointer total.toNat)
    (lower : 0 ≤ length) (upper : length ≤ total) (bound : total < 2 ^ 31) :
    FreshRange guard first (pointer + intToWord length) (total - length).toNat := by
  intro address inside
  refine fresh address ?_
  have number : (intToWord length).toNat = length.toNat := by
    rw [intToWord, BitVec.toNat_ofInt]
    omega
  have split : address - pointer = address - (pointer + intToWord length) + intToWord length := by bv_omega
  rw [split, BitVec.toNat_add, number]
  omega

/-- What one call comes to: an error, one request, or one request and the rest
of the read. -/
theorem readClusters_cases {more : Nat} {kernel : Kernel} {stream out : Word} {cluster offset total : Int}
    {reading : Reading} (same : readClusters more kernel stream cluster offset total out = some reading) :
    exists found, fat16GetClusterForOffset kernel cluster offset = some found ∧
      (reading = ⟨found.1, [], found.2⟩ ∨
        let size := sizeOfClusterBytes (privateOf found.2)
        let position := clusterPosition (privateOf found.2) found.1 (offset.tmod size)
        let length := chunkLength size total
        let chunk := readChunk found.2 stream position length out
        reading = chunk ∨
          exists fewer rest, more = fewer + 1 ∧ total - length > 0 ∧
            readClusters fewer chunk.kernel stream cluster (wrapInt (offset + length)) (total - length)
              (out + intToWord length) = some rest ∧ reading = chunk.andThen rest) := by
  unfold readClusters at same
  cases found : fat16GetClusterForOffset kernel cluster offset with
  | none =>
      rw [found] at same
      exact absurd same (by simp)
  | some clusterToUse =>
      rw [found] at same
      simp only [readChunk_res, Int.lt_irrefl, if_false] at same
      refine ⟨clusterToUse, rfl, ?_⟩
      by_cases failed : clusterToUse.1 < 0
      · rw [if_pos failed] at same
        exact Or.inl (Option.some.inj same).symm
      · rw [if_neg failed] at same
        right
        cases more with
        | zero => exact Or.inl (Option.some.inj same).symm
        | succ fewer =>
            by_cases left : total - chunkLength (sizeOfClusterBytes (privateOf clusterToUse.2)) total > 0
            · simp only [left, if_true] at same
              rcases Option.map_eq_some_iff.mp same with ⟨rest, restSame, rfl⟩
              exact Or.inr ⟨fewer, rest, rfl, left, restSame, rfl⟩
            · simp only [left, if_false] at same
              exact Or.inl (Option.some.inj same).symm

theorem sizeOfClusterBytes_nonneg (fatPrivate : FatPrivateData) : 0 ≤ sizeOfClusterBytes fatPrivate := by
  unfold sizeOfClusterBytes FatHeader.sectorsPerCluster DISK_SECTOR_SIZE
  omega

/-- A read stores nothing outside its buffer. -/
theorem readClusters_readsFresh (more : Nat) {current : Kernel} (reads : ReadsFresh guard first before current)
    {stream out : Word} {cluster offset total : Int} (bound : total < 2 ^ 31)
    (fresh : FreshRange guard first out total.toNat) {reading : Reading}
    (same : readClusters more current stream cluster offset total out = some reading) :
    ReadsFresh guard first before reading.kernel := by
  induction more using Nat.strongRecOn generalizing current offset total out reading with
  | _ more inductionHypothesis =>
      rcases readClusters_cases same with ⟨found, lookedUp, rfl | rfl | ⟨fewer, rest, rfl, left, restSame, rfl⟩⟩
      · exact reads.fat16GetClusterForOffset lookedUp
      · refine (reads.fat16GetClusterForOffset lookedUp).readChunk stream _ _ (fresh.mono ?_)
        have shorter := chunkLength_le (sizeOfClusterBytes (privateOf found.2)) total
        omega
      · have shorter := chunkLength_le (sizeOfClusterBytes (privateOf found.2)) total
        have lower : 0 ≤ chunkLength (sizeOfClusterBytes (privateOf found.2)) total := by
          have nonnegative := sizeOfClusterBytes_nonneg (privateOf found.2)
          unfold chunkLength at left ⊢
          by_cases more : total > sizeOfClusterBytes (privateOf found.2)
          · rw [if_pos more]
            exact nonnegative
          · rw [if_neg more] at left
            omega
        have chunk := (reads.fat16GetClusterForOffset lookedUp).readChunk stream
          (clusterPosition (privateOf found.2) found.1 (offset.tmod (sizeOfClusterBytes (privateOf found.2))))
          (chunkLength (sizeOfClusterBytes (privateOf found.2)) total) (fresh.mono (by omega))
        have later := inductionHypothesis fewer (Nat.lt_succ_self fewer) chunk (by omega)
          (freshRange_drop fresh lower shorter.2 bound) restSame
        exact later

theorem fat16ReadInternal_readsFresh {current : Kernel} (reads : ReadsFresh guard first before current)
    {out : Word} {cluster offset total : Int} (bound : total < 2 ^ 31)
    (fresh : FreshRange guard first out total.toNat) {reading : Reading}
    (same : fat16ReadInternal current cluster offset total out = some reading) :
    ReadsFresh guard first before reading.kernel := readClusters_readsFresh total.toNat reads bound fresh same

theorem fat16GetTotalItemsForDirectory_readsFresh {current : Kernel} (reads : ReadsFresh guard first before current)
    {sector : Int} {counted : Int × Kernel} (same : fat16GetTotalItemsForDirectory current sector = some counted) :
    ReadsFresh guard first before counted.2 := by
  rw [fat16GetTotalItemsForDirectory_eq_scan] at same
  rcases Option.map_eq_some_iff.mp same with ⟨found, _, rfl⟩
  exact reads.seek _ _

end Reading

/-! ## Directories and items -/

section Buffers

variable {guard : Extent -> Prop} {first kernel : Kernel} {directory : Word} {extent : Extent}

theorem storeDirectory_heap (kernel : Kernel) (address : Word) (directory : FatDirectory) :
    (storeDirectory kernel address directory).heap = kernel.heap := rfl

theorem storeDirectory_keeps (keeps : KeepsObjects guard first kernel) {address : Word}
    (fresh : Fresh guard first address) (directory : FatDirectory) :
    KeepsObjects guard first (storeDirectory kernel address directory) := by
  refine keeps.withStore fun place old => ⟨rfl, rfl, rfl, rfl, rfl, rfl, rfl, ?_, rfl⟩
  have apart : place ≠ address := fun same => old (same ▸ fresh)
  exact Function.update_of_ne apart _ _

theorem storeDirectory_self (kernel : Kernel) (address : Word) (directory : FatDirectory) :
    (storeDirectory kernel address directory).fatDirectories address = directory := by
  unfold storeDirectory
  exact Function.update_self _ _ _

theorem slotBuffer_keeps (placed : first.heap.WellPlaced) (keeps : KeepsObjects guard first kernel)
    (fresh : Fresh guard first directory) (totalItems : Int) :
    KeepsObjects guard first (slotBuffer kernel directory totalItems).2 := by
  unfold slotBuffer
  exact storeDirectory_keeps ((storeDirectory_keeps keeps fresh _).kzalloc placed _) fresh _

theorem slotBuffer_item (kernel : Kernel) (directory : Word) (totalItems : Int) :
    ((slotBuffer kernel directory totalItems).2.fatDirectories directory).item =
      (slotBuffer kernel directory totalItems).1 := by
  unfold slotBuffer
  simp only [storeDirectory_self]

theorem slotBuffer_acquired (placed : kernel.heap.WellPlaced) (acquired : Acquired guard first kernel directory extent)
    (totalItems : Int) : Acquired guard first (slotBuffer kernel directory totalItems).2 directory extent := by
  unfold slotBuffer
  exact (Acquired.kzalloc (acquired.of_heap (storeDirectory_heap _ _ _)) placed _).of_heap (storeDirectory_heap _ _ _)

/-- The slots have an allocation of their own. -/
theorem slotBuffer_served (placed : first.heap.WellPlaced) (keeps : KeepsObjects guard first kernel)
    (acquired : Acquired guard first kernel directory extent) {totalItems : Int}
    (served : (slotBuffer kernel directory totalItems).1 ≠ 0#32) :
    exists other, Acquired guard first (slotBuffer kernel directory totalItems).2
      (slotBuffer kernel directory totalItems).1 other ∧
        (intToWord (directorySize totalItems)).toNat ≤ heapBlockSizeBytes * other.count ∧ extent.Apart other := by
  unfold slotBuffer at served ⊢
  have fresh := acquired.fresh_pointer placed keeps.pool
  rcases (storeDirectory_keeps keeps fresh _).acquired placed served with ⟨other, owned, enough, apart⟩
  exact ⟨other, owned.of_heap (storeDirectory_heap _ _ _), enough, apart extent acquired.owned⟩

theorem directorySize_lt (totalItems : Int) : directorySize totalItems < 2 ^ 31 := by
  have bound := BitVec.toInt_lt (x := intToWord (totalItems * slotSize))
  exact bound

theorem directorySize_le {totalItems : Int} {bytes : Nat}
    (enough : (intToWord (directorySize totalItems)).toNat ≤ bytes) : (directorySize totalItems).toNat ≤ bytes := by
  have bound := directorySize_lt totalItems
  rw [intToWord, BitVec.toNat_ofInt] at enough
  omega

end Buffers

theorem fat16FreeDirectory_fatDirectories (kernel : Kernel) (directory : Word) :
    (fat16FreeDirectory kernel directory).fatDirectories = kernel.fatDirectories := by
  unfold fat16FreeDirectory
  by_cases null : directory = 0#32
  · rw [if_pos null]
  · rw [if_neg null]
    by_cases none : (kernel.fatDirectories directory).item = 0#32
    · simp only [none, ne_eq, not_true_eq_false, if_false]
      rfl
    · simp only [none, ne_eq, not_false_eq_true, if_true]
      rfl

theorem file_ne_directory : FAT_ITEM_TYPE_FILE ≠ FAT_ITEM_TYPE_DIRECTORY := by decide

/-- What the release of an item follows is fresh. -/
structure SafeItem (guard : Extent -> Prop) (first kernel : Kernel) (item : Word) : Prop where
  fresh : Fresh guard first item
  kind : (kernel.fatItems item).type = FAT_ITEM_TYPE_DIRECTORY ∨ (kernel.fatItems item).type = FAT_ITEM_TYPE_FILE
  pointer : Fresh guard first (kernel.fatItems item).pointer
  slots : (kernel.fatItems item).type = FAT_ITEM_TYPE_DIRECTORY -> (kernel.fatItems item).pointer ≠ 0#32 ->
    Fresh guard first (kernel.fatDirectories (kernel.fatItems item).pointer).item

theorem storeItem_self (kernel : Kernel) (address : Word) (item : FatItem) :
    (storeItem kernel address item).fatItems address = item := by
  unfold storeItem
  exact Function.update_self _ _ _

theorem storeItem_fatDirectories (kernel : Kernel) (address : Word) (item : FatItem) :
    (storeItem kernel address item).fatDirectories = kernel.fatDirectories := rfl

theorem storeItem_keeps {guard : Extent -> Prop} {first kernel : Kernel} (keeps : KeepsObjects guard first kernel)
    {address : Word} (fresh : Fresh guard first address) (item : FatItem) :
    KeepsObjects guard first (storeItem kernel address item) := by
  refine keeps.withStore fun place old => ⟨rfl, rfl, rfl, rfl, rfl, rfl, ?_, rfl, rfl⟩
  have apart : place ≠ address := fun same => old (same ▸ fresh)
  exact Function.update_of_ne apart _ _

section Making

variable {guard : Extent -> Prop} {first : Kernel} (kernelHeap : first.heap.IsKernelHeap)
include kernelHeap

/-- The release of a directory whose slots, if it has any, lie in an allocation
of their own. -/
theorem fat16FreeDirectory_keeps {kernel : Kernel} (keeps : KeepsObjects guard first kernel) {directory : Word}
    {extent : Extent} (acquired : Acquired guard first kernel directory extent)
    (slots : (kernel.fatDirectories directory).item = 0#32 ∨
      exists other, Acquired guard first kernel (kernel.fatDirectories directory).item other ∧ extent.Apart other) :
    KeepsObjects guard first (fat16FreeDirectory kernel directory) := by
  have placed := kernelHeap.wellPlaced
  unfold fat16FreeDirectory
  by_cases null : directory = 0#32
  · rw [if_pos null]
    exact keeps
  · rw [if_neg null]
    rcases slots with none | ⟨other, owned, apart⟩
    · simp only [none, ne_eq, not_true_eq_false, if_false]
      exact keeps.kfree placed (fun _ => kernelHeap.low) acquired
    · by_cases none : (kernel.fatDirectories directory).item = 0#32
      · simp only [none, ne_eq, not_true_eq_false, if_false]
        exact keeps.kfree placed (fun _ => kernelHeap.low) acquired
      · simp only [none, ne_eq, not_false_eq_true, if_true]
        have current := kernelHeap.samePool keeps.pool
        exact (keeps.kfree placed (fun _ => kernelHeap.low) owned).kfree placed (fun _ => kernelHeap.low)
          (acquired.kfree_other owned current.wellPlaced (current.low owned.owned.address_inside) apart)

/-- Loading the slots touches nothing that is not fresh, and the record of the
directory points to memory that is fresh. -/
theorem loadSlots_keeps {kernel : Kernel} (keeps : KeepsObjects guard first kernel) {directory : Word}
    {extent : Extent} (acquired : Acquired guard first kernel directory extent) {cluster totalItems : Int}
    {loaded : Word × Kernel} (same : loadSlots kernel directory cluster totalItems = some loaded) :
    KeepsObjects guard first loaded.2 ∧ loaded.1 = directory ∧
      Fresh guard first (loaded.2.fatDirectories directory).item := by
  have placed := kernelHeap.wellPlaced
  have filled := slotBuffer_keeps placed keeps (acquired.fresh_pointer placed keeps.pool) totalItems
  have held := slotBuffer_acquired (keeps.pool.wellPlaced placed) acquired totalItems
  have item := slotBuffer_item kernel directory totalItems
  unfold loadSlots at same
  by_cases refused : (slotBuffer kernel directory totalItems).1 = 0#32
  · simp only [refused, if_true] at same
    obtain rfl := Option.some.inj same
    refine ⟨fat16FreeDirectory_keeps kernelHeap filled held (Or.inl (item.trans refused)), rfl, ?_⟩
    rw [fat16FreeDirectory_fatDirectories, item, refused]
    exact fresh_null placed
  · simp only [refused, if_false] at same
    rcases Option.map_eq_some_iff.mp same with ⟨reading, read, rfl⟩
    rcases slotBuffer_served placed keeps acquired refused with ⟨other, owned, enough, apart⟩
    have fresh := owned.freshRange placed filled.pool
    have reads := fat16ReadInternal_readsFresh ⟨Transferred.refl _, filled⟩ (directorySize_lt totalItems)
      (fresh.mono (directorySize_le enough)) read
    have slots : (reading.kernel.fatDirectories directory).item = (slotBuffer kernel directory totalItems).1 := by
      rw [reads.transferred.fatDirectories, item]
    have freshSlots : Fresh guard first (reading.kernel.fatDirectories directory).item := by
      rw [slots]
      exact owned.fresh_pointer placed filled.pool
    by_cases failed : reading.res < 0
    · simp only [failed, if_true]
      refine ⟨fat16FreeDirectory_keeps kernelHeap reads.keeps (held.of_heap reads.transferred.heap)
        (Or.inr ⟨other, ?_, apart⟩), trivial, ?_⟩
      · rw [slots]
        exact owned.of_heap reads.transferred.heap
      · rw [fat16FreeDirectory_fatDirectories]
        exact freshSlots
    · simp only [failed, if_false]
      exact ⟨reads.keeps, trivial, freshSlots⟩

theorem fat16LoadFatDirectory_keeps {kernel : Kernel} (keeps : KeepsObjects guard first kernel) {slot : Slot}
    {loaded : Word × Kernel} (same : fat16LoadFatDirectory kernel slot = some loaded) :
    KeepsObjects guard first loaded.2 ∧ Fresh guard first loaded.1 ∧
      (loaded.1 ≠ 0#32 -> Fresh guard first (loaded.2.fatDirectories loaded.1).item) := by
  have placed := kernelHeap.wellPlaced
  unfold fat16LoadFatDirectory at same
  by_cases file : (!slot.isSubdirectory) = true
  · rw [if_pos file] at same
    obtain rfl := Option.some.inj same
    exact ⟨keeps, fresh_null placed, fun nonNull => absurd rfl nonNull⟩
  · rw [if_neg file] at same
    by_cases refused : (kzalloc kernel 16#32).1 = 0#32
    · simp only [refused, if_true] at same
      obtain rfl := Option.some.inj same
      exact ⟨keeps.kzalloc placed 16#32, fresh_null placed, fun nonNull => absurd rfl nonNull⟩
    · simp only [refused, if_false] at same
      rcases Option.bind_eq_some_iff.mp same with ⟨counted, count, slots⟩
      rcases keeps.acquired placed refused with ⟨extent, acquired, _⟩
      have reads := fat16GetTotalItemsForDirectory_readsFresh
        ⟨Transferred.refl _, keeps.kzalloc placed 16#32⟩ count
      have held := acquired.of_heap reads.transferred.heap
      rcases loadSlots_keeps kernelHeap reads.keeps held slots with ⟨later, pointer, item⟩
      rw [pointer]
      exact ⟨later, acquired.fresh_pointer placed (keeps.kzalloc placed 16#32).pool, fun _ => item⟩

theorem fat16CloneDirectoryItem_keeps {kernel : Kernel} (keeps : KeepsObjects guard first kernel) (slot : Slot) :
    KeepsObjects guard first (fat16CloneDirectoryItem kernel slot).2 ∧
      Fresh guard first (fat16CloneDirectoryItem kernel slot).1 := by
  have placed := kernelHeap.wellPlaced
  have allocated := keeps.kzalloc placed 32#32
  unfold fat16CloneDirectoryItem
  by_cases refused : (kzalloc kernel 32#32).1 = 0#32
  · simp only [refused, if_true]
    exact ⟨allocated, fresh_null placed⟩
  · simp only [refused, if_false]
    rcases keeps.acquired placed refused with ⟨extent, acquired, enough, _⟩
    have fresh := acquired.freshRange placed allocated.pool
    refine ⟨(ReadsFresh.stored ⟨Transferred.refl _, allocated⟩ ?_).keeps, acquired.fresh_pointer placed allocated.pool⟩
    rw [List.length_map, List.length_range]
    exact fresh.mono enough

/-- Making an item keeps what is not fresh, and its release follows nothing
else. -/
theorem fat16MakeNewFatItemForDirectoryItem_keeps {kernel : Kernel} (keeps : KeepsObjects guard first kernel)
    {slot : Slot} {made : Word × Kernel} (same : fat16MakeNewFatItemForDirectoryItem kernel slot = some made) :
    KeepsObjects guard first made.2 ∧ (made.1 ≠ 0#32 -> SafeItem guard first made.2 made.1) := by
  have placed := kernelHeap.wellPlaced
  have allocated := keeps.kzalloc placed 8#32
  unfold fat16MakeNewFatItemForDirectoryItem at same
  by_cases refused : (kzalloc kernel 8#32).1 = 0#32
  · simp only [refused, if_true] at same
    obtain rfl := Option.some.inj same
    exact ⟨allocated, fun nonNull => absurd refused nonNull⟩
  · simp only [refused, if_false] at same
    rcases keeps.acquired placed refused with ⟨extent, acquired, _⟩
    have freshItem := acquired.fresh_pointer placed allocated.pool
    by_cases directory : slot.isSubdirectory = true
    · simp only [directory, if_true] at same
      rcases Option.map_eq_some_iff.mp same with ⟨loaded, load, rfl⟩
      rcases fat16LoadFatDirectory_keeps kernelHeap allocated load with ⟨later, pointer, slots⟩
      refine ⟨storeItem_keeps later freshItem _, fun _ => ⟨freshItem, ?_, ?_, ?_⟩⟩
      · rw [storeItem_self]
        exact Or.inl rfl
      · rw [storeItem_self]
        exact pointer
      · rw [storeItem_self, storeItem_fatDirectories]
        exact fun _ nonNull => slots nonNull
    · simp only [directory, Bool.false_eq_true, if_false] at same
      obtain rfl := Option.some.inj same
      rcases fat16CloneDirectoryItem_keeps kernelHeap allocated slot with ⟨later, pointer⟩
      refine ⟨storeItem_keeps later freshItem _, fun _ => ⟨freshItem, ?_, ?_, ?_⟩⟩
      · rw [storeItem_self]
        exact Or.inr rfl
      · rw [storeItem_self]
        exact pointer
      · rw [storeItem_self]
        exact fun impossible => absurd impossible file_ne_directory

/-- The search keeps what is not fresh, and its item is a safe one. -/
theorem searchSlots_keeps {directory : FatDirectory} {name : List Byte} {kernel : Kernel}
    (keeps : KeepsObjects guard first kernel) {indexes : List Nat} {item : Word}
    (safe : item ≠ 0#32 -> SafeItem guard first kernel item) {found : Word × Kernel}
    (same : searchSlots directory name indexes kernel item = some found) :
    KeepsObjects guard first found.2 ∧ (found.1 ≠ 0#32 -> SafeItem guard first found.2 found.1) := by
  induction indexes generalizing kernel item with
  | nil =>
      obtain rfl := Option.some.inj same
      exact ⟨keeps, safe⟩
  | cons index rest inductionHypothesis =>
      rw [searchSlots] at same
      by_cases isMatch : strcasecmp (fat16GetFullRelativeFilename (slotAt kernel (slotAddress directory index))) name = 0
      · simp only [isMatch, if_true] at same
        rcases Option.bind_eq_some_iff.mp same with ⟨made, make, later⟩
        rcases fat16MakeNewFatItemForDirectoryItem_keeps kernelHeap keeps make with ⟨madeKeeps, madeSafe⟩
        exact inductionHypothesis madeKeeps madeSafe later
      · simp only [isMatch, if_false] at same
        exact inductionHypothesis keeps safe same

end Making

end Fs
end LarvaOS
