import LarvaOS.Fs.ReadBuffer
import LarvaOS.Fs.StringCopy

namespace LarvaOS
namespace Core

open Disk Fs Library Memory

/-!
# Reading a file into a string

`file::read` reads into a local buffer of `size` bytes and makes a string of it.
`fread` stores `nmemb` items of `size` bytes, and the string ends at the first NUL
behind the address of the buffer.  Neither asks how long the buffer is.

The addresses that a call stores to in `fread`, and those that the constructor of
the string reads, are listed next to its result.
-/

/-! ## The string -/

/-- `strlen`. -/
def strlen (kernel : Kernel) (s : Word) : Nat := (cString kernel.bytes (2 ^ 32) s).length

/-- `string::string`, with nothing to copy.  The string of `""` is made with the same
stores. -/
def emptyString (kernel : Kernel) : Word × Kernel :=
  let (str, kernel) := kmalloc kernel 1#32
  (str, storeBytes kernel str [0#8])

/-- `string::string(const char *)`: the array of the string, which is a copy. -/
def stringOf (kernel : Kernel) (val : Word) : Word × Kernel :=
  if val = 0#32 then emptyString kernel
  else
    let (str, kernel) := kmalloc kernel (BitVec.ofNat 32 (strlen kernel val + 1))
    let kernel := strcpy kernel str val
    (str, storeBytes kernel (str + BitVec.ofNat 32 (strlen kernel val)) [0#8])

/-! ## The read -/

/-- The addresses of a range. -/
def addresses (out : Word) (count : Nat) : List Word := (List.range count).map fun place => out + BitVec.ofNat 32 place

/-- The number of bytes that the requests of a read store, one behind the other. -/
def storedLength (reading : Reading) : Nat := (reading.requests.map fun request => request.2.toNat).sum

/-- The addresses that the loop of `fat16_read` stores to. -/
def itemStores (p size : Word) : Nat -> Kernel -> Int -> Word -> List Word
  | 0, _, _, _ => []
  | remaining + 1, kernel, offset, out =>
      match fat16ReadInternal kernel (fat16GetFirstCluster (slotOf kernel p)) offset (wordToInt size) out with
      | none => []
      | some reading =>
          addresses out (storedLength reading) ++
            if reading.res < 0 then []
            else itemStores p size remaining reading.kernel (wrapInt (offset + wordToInt size)) (out + size)

/-- The addresses that `fread` stores to. -/
def freadStores (kernel : Kernel) (fd : Int) (ptr size nmemb : Word) : List Word :=
  if fd < 1 ∨ size = 0#32 ∨ nmemb = 0#32 then []
  else if getFileDescriptor kernel fd = 0#32 then []
  else
    let p := fileData kernel fd
    itemStores p size nmemb.toNat kernel (wordToInt (kernel.fatFileDescriptors p).pos) ptr

/-- What `file::read` returns, and the addresses that it stored to and read. -/
structure FileRead where
  text : Word
  stores : List Word
  reads : List Word
  kernel : Kernel

/-- `file::read`, with its local buffer at `buf`. -/
def fileRead (kernel : Kernel) (fd : Int) (buf size nmemb : Word) : Option FileRead :=
  if ¬ 0 < fd then
    let text := emptyString kernel
    some ⟨text.1, [], [], text.2⟩
  else
    (fread kernel fd buf size nmemb).map fun res =>
      let stores := freadStores kernel fd buf size nmemb
      if res.1 < 0 then
        let text := emptyString res.2
        ⟨text.1, stores, [], text.2⟩
      else
        let text := stringOf res.2 buf
        ⟨text.1, stores, addresses buf (strlen res.2 buf + 1), text.2⟩

/-- The bytes of a file from the position on, up to the first NUL among them. -/
def fileText (header : Nat -> Byte) (kernel : Kernel) (fd : Int) (count : Nat) : List Byte :=
  ((List.range count).map fun (place : Nat) =>
    fileByte header kernel fd (filePosition kernel fd + place)).takeWhile (· ≠ 0#8)

/-- The call stays inside its buffer and returns the bytes that were asked for. -/
structure ReadsText (header : Nat -> Byte) (kernel : Kernel) (fd : Int) (buf size nmemb : Word) (result : FileRead) :
    Prop where
  stores : forall address, address ∈ result.stores -> (address - buf).toNat < size.toNat
  reads : forall address, address ∈ result.reads -> (address - buf).toNat < size.toNat
  text : cString result.kernel.bytes (2 ^ 32) result.text = fileText header kernel fd (size.toNat * nmemb.toNat)

/-- What `file::read` promises. -/
def FileReads (header : Nat -> Byte) (kernel : Kernel) (fd : Int) (buf size nmemb : Word) : Prop :=
  exists result, fileRead kernel fd buf size nmemb = some result ∧ ReadsText header kernel fd buf size nmemb result

/-- The local buffer lies apart from the copy of the directory entry that the
descriptor holds, and from an array that the heap hands out for a string of the
buffer. -/
structure LocalBuffer (kernel : Kernel) (fd : Int) (buf size : Word) : Prop where
  notNull : buf ≠ 0#32
  entry : BufferApart kernel (fileData kernel fd) buf size.toNat
  array : forall count place, place < count -> count ≤ size.toNat ->
    size.toNat ≤ ((malloc kernel.heap (BitVec.ofNat 32 count)).1 + BitVec.ofNat 32 place - buf).toNat

/-! ## What is stored -/

theorem mem_addresses {out address : Word} {count : Nat} :
    address ∈ addresses out count ↔ exists place, place < count ∧ out + BitVec.ofNat 32 place = address := by
  unfold addresses
  rw [List.mem_map]
  exact exists_congr fun place => and_congr_left' List.mem_range

/-- The addresses of a range lie in the range. -/
theorem addresses_inside {out address : Word} {count : Nat} (small : count ≤ 2 ^ 32)
    (member : address ∈ addresses out count) : (address - out).toNat < count := by
  rcases mem_addresses.mp member with ⟨place, below, rfl⟩
  rw [offset_toNat out (by omega)]
  exact below

theorem mem_addresses_of_lt {out address : Word} {count : Nat} (inside : (address - out).toNat < count) :
    address ∈ addresses out count := by
  refine mem_addresses.mpr ⟨(address - out).toNat, inside, ?_⟩
  rw [BitVec.ofNat_toNat, BitVec.setWidth_eq]
  bv_omega

/-- The items of a read change no byte but those at the addresses that are stored to. -/
theorem readItems_elsewhere {p size : Word} (remaining : Nat) {kernel : Kernel} {offset : Int} {out : Word}
    {read : Int × Kernel} (same : readItems p size remaining kernel offset out = some read) {address : Word}
    (elsewhere : address ∉ itemStores p size remaining kernel offset out) :
    read.2.bytes address = kernel.bytes address := by
  induction remaining generalizing kernel offset out with
  | zero =>
      cases same
      rfl
  | succ remaining inductionHypothesis =>
      rw [readItems] at same
      rcases Option.bind_eq_some_iff.mp same with ⟨reading, item, rest⟩
      rw [itemStores, item] at elsewhere
      dsimp only at elsewhere
      rw [List.mem_append, not_or] at elsewhere
      rcases elsewhere with ⟨first, later⟩
      have stored := (readClusters_within _ (BitVec.toInt_lt (x := size)) item).1 address
        (Nat.not_lt.mp fun inside => first (mem_addresses_of_lt inside))
      by_cases failed : reading.res < 0
      · rw [if_pos failed] at rest
        cases rest
        exact stored
      · rw [if_neg failed] at rest later
        exact (inductionHypothesis rest later).trans stored

/-- `fread` changes no byte but those at the addresses that it stores to. -/
theorem fread_elsewhere {kernel : Kernel} {fd : Int} {ptr size nmemb : Word} {read : Int × Kernel}
    (same : fread kernel fd ptr size nmemb = some read) {address : Word}
    (elsewhere : address ∉ freadStores kernel fd ptr size nmemb) : read.2.bytes address = kernel.bytes address := by
  unfold fread at same
  unfold freadStores at elsewhere
  split at same
  · cases same
    rfl
  · rename_i accepted
    dsimp only at same
    rw [if_neg accepted] at elsewhere
    split at same
    · cases same
      rfl
    · rename_i descriptor
      rw [if_neg descriptor] at elsewhere
      rcases Option.map_eq_some_iff.mp same with ⟨items, reads, rfl⟩
      have kept := readItems_elsewhere _ reads elsewhere
      split
      · exact kept
      · exact kept

theorem storedLength_andThen (first rest : Reading) :
    storedLength (first.andThen rest) = storedLength first + storedLength rest := by
  unfold storedLength Reading.andThen
  rw [List.map_append, List.sum_append]

theorem storedLength_readChunk (kernel : Kernel) (stream : Word) (position total : Int) (out : Word) :
    storedLength (readChunk kernel stream position total out) = total.toNat := by
  unfold storedLength
  rw [readChunk_requests, List.map_singleton, List.sum_singleton]

/-- A read that goes through has stored every byte. -/
theorem readClusters_stored (more : Nat) {kernel : Kernel} (positive : 0 < sizeOfClusterBytes (privateOf kernel))
    {stream : Word} {cluster offset total : Int} {out : Word} (asked : 0 < total)
    (fuel : total ≤ sizeOfClusterBytes (privateOf kernel) * (more + 1 : Nat)) {reading : Reading}
    (read : readClusters more kernel stream cluster offset total out = some reading) (served : reading.res = 0) :
    storedLength reading = total.toNat := by
  induction more generalizing kernel offset total out reading with
  | zero =>
      rcases fat16GetClusterForOffset_returns (Int.ne_of_gt positive) cluster offset with ⟨found, lookup⟩
      have volume := fat16GetClusterForOffset_sameVolume lookup
      rw [Nat.zero_add, Int.natCast_one, Int.mul_one, ← volume.fatPrivate] at fuel
      rw [readClusters, lookup] at read
      simp only [readChunk_res, Int.lt_irrefl, if_false, chunkLength, if_neg (Int.not_lt.mpr fuel)] at read
      by_cases failed : found.1 < 0
      · rw [if_pos failed] at read
        obtain rfl := Option.some.inj read
        exact absurd served (Int.ne_of_lt failed)
      · rw [if_neg failed] at read
        obtain rfl := Option.some.inj read
        exact storedLength_readChunk _ _ _ _ _
  | succ more inductionHypothesis =>
      rcases fat16GetClusterForOffset_returns (Int.ne_of_gt positive) cluster offset with ⟨found, lookup⟩
      have volume := fat16GetClusterForOffset_sameVolume lookup
      rw [← volume.fatPrivate] at fuel positive
      rw [readClusters, lookup] at read
      simp only [readChunk_res, Int.lt_irrefl, if_false] at read
      by_cases failed : found.1 < 0
      · rw [if_pos failed] at read
        obtain rfl := Option.some.inj read
        exact absurd served (Int.ne_of_lt failed)
      · rw [if_neg failed] at read
        generalize position : clusterPosition (privateOf found.2) found.1 _ = start at read
        have chunkVolume := readChunk_sameVolume found.2 stream start
          (chunkLength (sizeOfClusterBytes (privateOf found.2)) total) out
        have stored := storedLength_readChunk found.2 stream start
          (chunkLength (sizeOfClusterBytes (privateOf found.2)) total) out
        generalize readChunk found.2 stream start _ out = chunk at read chunkVolume stored
        by_cases longer : total > sizeOfClusterBytes (privateOf found.2)
        · simp only [chunkLength, if_pos longer, if_pos (Int.sub_pos_of_lt longer)] at read stored
          rcases Option.map_eq_some_iff.mp read with ⟨rest, later, rfl⟩
          rw [Int.natCast_add, Int.mul_add, Int.natCast_one, Int.mul_one] at fuel
          rw [← chunkVolume.fatPrivate] at fuel positive stored longer later
          rw [storedLength_andThen, stored,
            inductionHypothesis positive (Int.sub_pos_of_lt longer) (by omega) later served]
          omega
        · simp only [chunkLength, if_neg longer, Int.sub_self, gt_iff_lt, Int.lt_irrefl, if_false] at read stored
          obtain rfl := Option.some.inj read
          exact stored

section Items

variable {kernel : Kernel} {cluster : Nat} {offset : Int} {p size out : Word}

/-- An item that is read is stored whole, and the next one behind it. -/
theorem itemStores_succ (remaining : Nat) (positive : 0 < sizeOfClusterBytes (privateOf kernel))
    (asked : 0 < size.toNat) (signed : wordToInt size = size.toNat)
    (first : fat16GetFirstCluster (slotOf kernel p) = cluster) (chunked : Chunked kernel cluster offset size.toNat) :
    exists after content, Filled kernel after out size.toNat content ∧
      itemStores p size (remaining + 1) kernel offset out = addresses out size.toNat ++
        itemStores p size remaining after (wrapInt (offset + size.toNat)) (out + size) := by
  have natural : (0 : Int) < size.toNat := Int.natCast_pos.mpr asked
  rcases fat16ReadInternal_filled positive natural chunked out with ⟨reading, read, served, filled⟩
  have stored := readClusters_stored _ positive natural (clusters_enough positive) read served
  rw [Int.toNat_natCast] at filled stored
  refine ⟨reading.kernel, _, filled, ?_⟩
  rw [itemStores, first, signed, read]
  dsimp only
  rw [stored, served, if_neg (Int.lt_irrefl 0)]

end Items

section Calls

variable {booted kernel : Kernel} {fd : Int} {buf size nmemb : Word}

theorem freadStores_eq (opened : OpenFile kernel fd) (some : 0 < size.toNat) (items : 0 < nmemb.toNat) :
    freadStores kernel fd buf size nmemb = itemStores (fileData kernel fd) size nmemb.toNat kernel
      (wordToInt (kernel.fatFileDescriptors (fileData kernel fd)).pos) buf := by
  unfold freadStores
  rw [if_neg (opened.accepts some items), if_neg opened.descriptor]

section Stores

variable (volume : Resolved booted kernel) (sized : FatHeader.sectorsPerCluster (bootSector booted) ≠ 0)
  (some : 0 < size.toNat) (items : 0 < nmemb.toNat) (opened : OpenFile kernel fd)
  (file : StoredFile (driveOf kernel) (bootSector booted) (fileSlot kernel fd))
  (inside : filePosition kernel fd + size.toNat * nmemb.toNat ≤ fileLength kernel fd)
  (finds : FindsItems (bootSector booted) kernel fd size nmemb)
include volume sized some items opened file inside finds

/-- One item fills the buffer. -/
theorem freadStores_single (one : nmemb.toNat = 1) : freadStores kernel fd buf size nmemb = addresses buf size.toNat := by
  have clusters : 0 < sizeOfClusterBytes (privateOf kernel) := by
    rw [sizeOfClusterBytes_resolved volume]
    exact clusterBytes_pos sized
  rcases finds.chunked volume sized some items (file.requestData sized some items inside) with
    ⟨cluster, _, first, position, chunks⟩
  have chunked := (chunks 0 items).1
  rw [Nat.mul_zero, Int.natCast_zero, Int.add_zero] at chunked
  rcases @itemStores_succ kernel cluster _ (fileData kernel fd) size buf 0 clusters some
    (wordToInt_of_small finds.signed.1) first chunked with ⟨after, content, _, stores⟩
  rw [freadStores_eq opened some items, position, one, stores, itemStores, List.append_nil]

/-- A second item is stored behind the buffer. -/
theorem freadStores_behind (entry : BufferApart kernel (fileData kernel fd) buf size.toNat) (more : 1 < nmemb.toNat) :
    buf + size ∈ freadStores kernel fd buf size nmemb := by
  have clusters : 0 < sizeOfClusterBytes (privateOf kernel) := by
    rw [sizeOfClusterBytes_resolved volume]
    exact clusterBytes_pos sized
  rcases finds.chunked volume sized some items (file.requestData sized some items inside) with
    ⟨cluster, _, first, position, chunks⟩
  have chunked := (chunks 0 items).1
  have next := (chunks 1 more).1
  rw [Nat.mul_zero, Int.natCast_zero, Int.add_zero] at chunked
  rw [Nat.mul_one] at next
  rcases Nat.exists_eq_add_of_le more with ⟨remaining, count⟩
  rcases @itemStores_succ kernel cluster _ (fileData kernel fd) size buf (remaining + 1) clusters some
    (wordToInt_of_small finds.signed.1) first chunked with ⟨after, content, filled, stores⟩
  have volumeNext := filled.sameVolume
  have bound := next.bound
  have small : wrapInt ((filePosition kernel fd : Int) + size.toNat) = (filePosition kernel fd : Int) + size.toNat :=
    wrapInt_of_small (by omega) (by omega)
  rcases @itemStores_succ after cluster _ (fileData kernel fd) size (buf + size) remaining
    (by rw [volumeNext.fatPrivate]; exact clusters) some (wordToInt_of_small finds.signed.1)
    ((filled.slotOf entry).firstCluster.trans first) (next.sameVolume volumeNext) with ⟨_, _, _, later⟩
  rw [freadStores_eq opened some items, position, count, Nat.add_comm, stores, small, later]
  refine List.mem_append_right _ (List.mem_append_left _ (mem_addresses.mpr ⟨0, some, ?_⟩))
  exact BitVec.add_zero _

end Stores

end Calls

/-! ## What is returned -/

/-- The copy that a string makes is the string. -/
theorem stringOf_text {kernel : Kernel} {val : Word} {count : Nat} (notNull : val ≠ 0#32)
    (ends : EndsAt kernel.bytes val count) (small : count < 2 ^ 32)
    (apart : forall place i, place ≤ count -> i ≤ count ->
      (malloc kernel.heap (BitVec.ofNat 32 (count + 1))).1 + BitVec.ofNat 32 place ≠ val + BitVec.ofNat 32 i) :
    cString (stringOf kernel val).2.bytes (2 ^ 32) (stringOf kernel val).1 =
      cString kernel.bytes (2 ^ 32) val := by
  have length : strlen kernel val = count := ends.length (Nat.le_of_lt small)
  unfold stringOf
  rw [if_neg notNull, length]
  dsimp only
  have pointer : (kmalloc kernel (BitVec.ofNat 32 (count + 1))).1 =
    (malloc kernel.heap (BitVec.ofNat 32 (count + 1))).1 := rfl
  have sameBytes : (kmalloc kernel (BitVec.ofNat 32 (count + 1))).2.bytes = kernel.bytes := rfl
  rw [← pointer] at apart
  generalize kmalloc kernel (BitVec.ofNat 32 (count + 1)) = array at apart sameBytes
  rw [← sameBytes] at ends ⊢
  have copied := strcpy_fills array.1 ends small
  generalize strcpy array.2 array.1 val = copy at copied
  -- The length is taken again, of the source behind the copy.
  have kept : EndsAt copy.bytes val count := ends.keep fun i below => copied.outside _ (Nat.not_lt.mp fun covered =>
    apart _ i (Nat.le_of_lt_succ covered) below (add_offset array.1 (val + BitVec.ofNat 32 i)))
  have again : strlen copy val = count := kept.length (Nat.le_of_lt small)
  rw [again]
  have stored : forall place, place ≤ count ->
      (storeBytes copy (array.1 + BitVec.ofNat 32 count) [0#8]).bytes (array.1 + BitVec.ofNat 32 place) =
        array.2.bytes (val + BitVec.ofNat 32 place) := by
    intro place below
    rw [storeBytes_bytes, ← copied.inside place (Nat.lt_succ_of_le below)]
    by_cases last : place = count
    · rw [last, BitVec.sub_self, copied.inside count (Nat.lt_succ_self count), ends.null]
      rfl
    · rw [List.getElem?_eq_none]
      · rfl
      · refine Nat.not_lt.mp fun first => last ?_
        have reached := add_offset (array.1 + BitVec.ofNat 32 count) (array.1 + BitVec.ofNat 32 place)
        rw [List.length_singleton, Nat.lt_one_iff] at first
        rw [first, BitVec.add_zero] at reached
        have same := congrArg (fun address => (address - array.1).toNat) reached
        rw [offset_toNat array.1 small, offset_toNat array.1 (Nat.lt_of_le_of_lt below small)] at same
        exact same.symm
  have target : EndsAt (storeBytes copy (array.1 + BitVec.ofNat 32 count) [0#8]).bytes array.1 count := by
    refine ⟨(stored count (Nat.le_refl count)).trans ends.null, fun i below => ?_⟩
    rw [stored i (Nat.le_of_lt below)]
    exact ends.before i below
  rw [target.text (Nat.le_of_lt small), ends.text (Nat.le_of_lt small)]
  exact List.map_congr_left fun place member => stored place (Nat.le_of_lt (List.mem_range.mp member))

/-- The first NUL ends the text. -/
theorem takeWhile_range {content : Nat -> Byte} {count size : Nat} (inside : count < size)
    (null : content count = 0#8) (before : forall place, place < count -> content place ≠ 0#8) :
    ((List.range size).map content).takeWhile (· ≠ 0#8) = (List.range count).map content := by
  rcases Nat.exists_eq_add_of_lt inside with ⟨rest, rfl⟩
  rw [Nat.add_assoc, List.range_add, List.map_append, List.takeWhile_append_of_pos]
  · rw [List.range_succ_eq_map, List.map_cons, List.map_cons, Nat.add_zero, List.takeWhile_cons_of_neg, List.append_nil]
    simp only [null, ne_eq, not_true_eq_false, decide_false, Bool.false_eq_true, not_false_eq_true]
  · intro byte member
    rcases List.mem_map.mp member with ⟨place, below, rfl⟩
    exact decide_eq_true (before place (List.mem_range.mp below))

/-- A buffer below the heap, and with room below it, lies apart from both. -/
theorem localBuffer_below {booted opened : Kernel} {slot : Slot} (just : JustOpened booted opened 1 slot)
    (kernelHeap : opened.heap.IsKernelHeap) {buf size : Word} (some : 0 < size.toNat) (room : size.toNat ≤ buf.toNat)
    (below : buf.toNat + size.toNat ≤ KERNEL_HEAP_START_ADDRESS.toNat) : LocalBuffer opened 1 buf size where
  notNull := fun null => by
    rw [null] at room
    exact absurd room (Nat.not_le.mpr some)
  entry := just.bufferApart kernelHeap below
  array := by
    intro count place inside fits
    have start : KERNEL_HEAP_START_ADDRESS.toNat = 0x01000000 := by decide
    rw [start] at below
    rcases malloc_spec kernelHeap.wellPlaced (BitVec.ofNat 32 count) with
      ⟨extent, nonzero, blocks, free, lowest, result⟩ | ⟨_, result⟩
    · have within : (opened.heap.addressOf extent.first + BitVec.ofNat 32 place -
          opened.heap.addressOf extent.first).toNat < (BitVec.ofNat 32 count).toNat := by
        rw [offset_toNat _ (by omega), BitVec.toNat_ofNat, Nat.mod_eq_of_lt (by omega)]
        exact inside
      have bounds := (kernelHeap.wellPlaced.inExtent_of_lt ⟨nonzero, blocks, free, lowest⟩ within).1
      rw [kernelHeap.start, start] at bounds
      rw [result]
      generalize opened.heap.addressOf extent.first + BitVec.ofNat 32 place = address at *
      rw [BitVec.toNat_sub]
      omega
    · rw [result, BitVec.zero_add, BitVec.toNat_sub, BitVec.toNat_ofNat]
      omega

section Reads

variable {booted kernel : Kernel} {fd : Int} {buf size nmemb : Word}

/-- The stores of a call on an open file are those of `fread`. -/
theorem fileRead_stores (positive : 0 < fd) {result : FileRead} (read : fileRead kernel fd buf size nmemb = some result) :
    result.stores = freadStores kernel fd buf size nmemb := by
  unfold fileRead at read
  rw [if_neg (not_not_intro positive)] at read
  rcases Option.map_eq_some_iff.mp read with ⟨res, _, rfl⟩
  dsimp only
  split <;> rfl

variable (volume : Resolved booted kernel) (sized : FatHeader.sectorsPerCluster (bootSector booted) ≠ 0)
  (some : 0 < size.toNat) (items : 0 < nmemb.toNat) (opened : OpenFile kernel fd) (frame : LocalBuffer kernel fd buf size)
  (file : StoredFile (driveOf kernel) (bootSector booted) (fileSlot kernel fd))
  (inside : filePosition kernel fd + size.toNat * nmemb.toNat ≤ fileLength kernel fd)
  (finds : FindsItems (bootSector booted) kernel fd size nmemb)
include volume sized some items opened frame file inside finds

/-- A request of one item fills the buffer and makes a string of it. -/
theorem fileRead_single (one : nmemb.toNat = 1) : exists after,
    (Filled kernel after buf size.toNat fun place =>
      fileByte (bootSector booted) kernel fd (filePosition kernel fd + place)) ∧
    fileRead kernel fd buf size nmemb = Option.some ⟨(stringOf after buf).1, addresses buf size.toNat,
      addresses buf (strlen after buf + 1), (stringOf after buf).2⟩ := by
  have entry := frame.entry
  have stores := @freadStores_single booted kernel fd buf size nmemb volume sized some items opened file inside finds one
  rw [← Nat.mul_one size.toNat, ← one] at entry
  rcases finds.freadFile volume sized some items opened entry file inside with ⟨after, read, filled⟩
  rw [one, Nat.mul_one] at filled
  refine ⟨after, filled, ?_⟩
  unfold fileRead
  rw [if_neg (not_not_intro opened.positive), read, Option.map_some, stores]
  dsimp only
  rw [if_neg (Int.not_lt.mpr (Int.natCast_nonneg _))]

/-- `file::read` stays inside its buffer and returns the bytes of the file exactly when
it is asked for a single item, with a NUL among its bytes. -/
theorem fileReads_iff : FileReads (bootSector booted) kernel fd buf size nmemb ↔
    nmemb = 1#32 ∧ exists place, place < size.toNat ∧
      fileByte (bootSector booted) kernel fd (filePosition kernel fd + (place : Nat)) = 0#8 := by
  have signed := finds.signed.1
  constructor
  · rintro ⟨result, read, holds⟩
    have stores := fileRead_stores opened.positive read
    have one : nmemb.toNat = 1 := by
      by_contra more
      have behind := @freadStores_behind booted kernel fd buf size nmemb volume sized some items opened file inside finds
        frame.entry (by omega)
      rw [← stores] at behind
      have bound := holds.stores _ behind
      rw [BitVec.add_comm, BitVec.add_sub_cancel] at bound
      exact absurd bound (Nat.lt_irrefl _)
    rcases fileRead_single volume sized some items opened frame file inside finds one with ⟨after, filled, explicit⟩
    obtain rfl := Option.some.inj (explicit.symm.trans read)
    have short : strlen after buf < size.toNat := by
      by_contra long
      have bound := holds.reads _ (mem_addresses.mpr ⟨size.toNat, by omega, rfl⟩)
      rw [offset_toNat buf (by omega)] at bound
      exact absurd bound (Nat.lt_irrefl _)
    refine ⟨BitVec.eq_of_toNat_eq one, strlen after buf, short, ?_⟩
    rw [← filled.bytes.inside _ short]
    exact cString_null _ (show strlen after buf < 2 ^ 32 by omega)
  · rintro ⟨rfl, ended⟩
    rcases fileRead_single volume sized some items opened frame file inside finds rfl with ⟨after, filled, explicit⟩
    have found := Nat.find_spec ended
    have earlier := @Nat.find_min _ _ ended
    generalize Nat.find ended = count at found earlier
    rcases found with ⟨below, null⟩
    have before : forall place, place < count ->
        fileByte (bootSector booted) kernel fd (filePosition kernel fd + (place : Nat)) ≠ 0#8 :=
      fun place smaller zero => earlier smaller ⟨Nat.lt_trans smaller below, zero⟩
    have ends : EndsAt after.bytes buf count := by
      refine ⟨(filled.bytes.inside count below).trans null, fun place smaller => ?_⟩
      rw [filled.bytes.inside place (Nat.lt_trans smaller below)]
      exact before place smaller
    have length : strlen after buf = count := ends.length (by omega)
    refine ⟨_, explicit, ?_, ?_, ?_⟩
    · exact fun address member => addresses_inside (by omega) member
    · intro address member
      rw [length] at member
      exact Nat.lt_of_lt_of_le (addresses_inside (by omega) member) below
    · rw [stringOf_text frame.notNull ends (by omega), ends.text (by omega)]
      · unfold fileText
        rw [show (1#32).toNat = 1 from rfl, Nat.mul_one, takeWhile_range below null before]
        exact List.map_congr_left fun place member =>
          filled.bytes.inside place (Nat.lt_trans (List.mem_range.mp member) below)
      · intro place i placeBelow iBelow same
        have apart := frame.array (count + 1) place (by omega) (by omega)
        have heap : after.heap = kernel.heap := by
          rcases filled.transferred with ⟨_, _, rfl⟩
          rfl
        rw [heap] at same
        rw [same, offset_toNat buf (by omega)] at apart
        omega

end Reads

/-- Ten bytes from the beginning of the file of a hundred bytes: the first one is a
NUL. -/
theorem fileReads_iff_ten : exists booted opened, boot fileVolume (fun _ => 0#8) = some booted ∧
    fopen booted [forwardSlash, 0x41#8] [0x72#8] = some (1, opened) ∧
    FileReads (bootSector fileVolume) opened 1 0x001FF000#32 10#32 1#32 := by
  rcases fileVolume_opens with ⟨booted, opened, boots, opens, volume, room, just⟩
  have length := fileVolume_length just
  have inside : filePosition opened 1 + (10#32).toNat * (1#32).toNat ≤ fileLength opened 1 := by
    rw [just.position, length]
    decide
  have null : fileByte (bootSector fileVolume) opened 1 (filePosition opened 1 + (0 : Nat)) = 0#8 := by
    unfold fileByte
    rw [just.position, volume.drive, show (fileSlot opened 1).low16BitsFirstCluster = 2 from
      just.slot.low16BitsFirstCluster.trans (by decide)]
    decide
  exact ⟨booted, opened, boots, opens, (fileReads_iff volume (by decide) (by decide) (by decide) just.openFile
    (localBuffer_below just room.kernelHeap (by decide) (by decide) (by decide))
    (fileChain.inKernel volume.drive just.slot) inside
    (fileVolume_finds just (by decide) (by decide) (by decide))).mpr ⟨rfl, 0, by decide, null⟩⟩

/-- Two items of ten bytes do not fit a buffer of ten. -/
theorem fileReads_fails_twenty : exists booted opened, boot fileVolume (fun _ => 0#8) = some booted ∧
    fopen booted [forwardSlash, 0x41#8] [0x72#8] = some (1, opened) ∧
    filePosition opened 1 + (10#32).toNat * (2#32).toNat ≤ fileLength opened 1 ∧
    ¬ FileReads (bootSector fileVolume) opened 1 0x001FF000#32 10#32 2#32 := by
  rcases fileVolume_opens with ⟨booted, opened, boots, opens, volume, room, just⟩
  have length := fileVolume_length just
  have inside : filePosition opened 1 + (10#32).toNat * (2#32).toNat ≤ fileLength opened 1 := by
    rw [just.position, length]
    decide
  refine ⟨booted, opened, boots, opens, inside, ?_⟩
  rintro ⟨result, read, holds⟩
  have behind := @freadStores_behind fileVolume opened 1 0x001FF000#32 10#32 2#32 volume (by decide) (by decide)
    (by decide) just.openFile (fileChain.inKernel volume.drive just.slot) inside
    (fileVolume_finds just (by decide) (by decide) (by decide)) (just.bufferApart room.kernelHeap (by decide)) (by decide)
  rw [← fileRead_stores just.openFile.positive read] at behind
  exact absurd (holds.stores _ behind) (by decide)

end Core
end LarvaOS
