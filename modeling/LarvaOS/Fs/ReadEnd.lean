import LarvaOS.Fs.Fat16Requests
import LarvaOS.Fs.ReadFile

namespace LarvaOS
namespace Fs

open Library Disk Memory

/-!
# The end of a file and the position

`fat16_read` neither compares a request with the length of the file nor stores
the position that it has reached.  A request that goes beyond the end is served
from the rest of the last cluster, and each read begins where the one before it
began.
-/

/-! ## What a read leaves alone -/

theorem readItems_transferred {p size : Word} (remaining : Nat) {kernel : Kernel} {offset : Int} {out : Word}
    {read : Int × Kernel} (same : readItems p size remaining kernel offset out = some read) :
    Transferred kernel read.2 := by
  induction remaining generalizing kernel offset out with
  | zero =>
      obtain rfl := Option.some.inj same
      exact Transferred.refl kernel
  | succ remaining inductionHypothesis =>
      rw [readItems] at same
      rcases Option.bind_eq_some_iff.mp same with ⟨reading, chunk, rest⟩
      have transferred := fat16ReadInternal_transferred (BitVec.toInt_lt (x := size)) chunk
      by_cases failed : reading.res < 0
      · rw [if_pos failed] at rest
        obtain rfl := Option.some.inj rest
        exact transferred
      · rw [if_neg failed] at rest
        exact transferred.trans (inductionHypothesis rest)

theorem fread_transferred {kernel : Kernel} {fd : Int} {ptr size nmemb : Word} {read : Int × Kernel}
    (same : fread kernel fd ptr size nmemb = some read) : Transferred kernel read.2 := by
  unfold fread at same
  split at same
  · obtain rfl := Option.some.inj same
    exact Transferred.refl kernel
  · dsimp only at same
    split at same
    · obtain rfl := Option.some.inj same
      exact Transferred.refl kernel
    · rcases Option.map_eq_some_iff.mp same with ⟨items, reads, rfl⟩
      have transferred := readItems_transferred _ reads
      split <;> exact transferred

section Kept

variable {kernel after : Kernel}

theorem Transferred.fileData (transferred : Transferred kernel after) (fd : Int) :
    fileData after fd = fileData kernel fd := by
  rcases transferred with ⟨_, _, rfl⟩
  rfl

theorem Transferred.openFile (transferred : Transferred kernel after) {fd : Int} (opened : OpenFile kernel fd) :
    OpenFile after fd := by
  rcases transferred with ⟨_, _, rfl⟩
  exact ⟨opened.descriptor, opened.file⟩

theorem Transferred.filePosition (transferred : Transferred kernel after) (fd : Int) :
    filePosition after fd = filePosition kernel fd := by
  rcases transferred with ⟨_, _, rfl⟩
  rfl

/-- A file that was just opened, after a read into a buffer apart from it. -/
theorem JustOpened.filled {booted : Kernel} {fd : Int} {slot : Slot} (just : JustOpened booted kernel fd slot)
    {ptr : Word} {count : Nat} {content : Nat -> Byte} (filled : Filled kernel after ptr count content)
    (apart : BufferApart kernel (Fs.fileData kernel fd) ptr count) : JustOpened booted after fd slot := by
  have transferred := filled.transferred
  have sameSlot := filled.slotOf apart
  refine ⟨transferred.openFile just.openFile, (transferred.filePosition fd).trans just.position, ?_, ?_,
    just.volume.trans filled.sameVolume⟩
  · rw [transferred.fileData]
    exact sameSlot.trans just.slot
  · rw [transferred.fileData, transferred.heap, transferred.fatItems, transferred.fatFileDescriptors]
    exact just.copy

end Kept

/-! ## Reads of the file of a hundred bytes -/

section Hundred

variable {booted opened : Kernel} {fd : Int} (volume : Resolved fileVolume opened) (room : opened.heap.IsKernelHeap)
  (just : JustOpened booted opened fd ((storedRoot (driveOf fileVolume) (bootSector fileVolume)).slots 0))
include volume just

/-- The bytes of its cluster are their places. -/
theorem fileVolume_byte {place : Nat} (inside : place < 512) :
    fileByte (bootSector fileVolume) opened fd place = BitVec.ofNat 8 place := by
  have low : (fileSlot opened fd).low16BitsFirstCluster = 2 := just.slot.low16BitsFirstCluster.trans (by decide)
  have size : clusterBytes (bootSector fileVolume) = 512 := by decide
  have start : clusterStart (bootSector fileVolume) 2 = 2048 := by decide
  have number : ((place : Int) / 512).toNat = 0 := by omega
  have rest : (place : Int) % 512 = place := by omega
  have position : storedPosition (driveOf fileVolume) (bootSector fileVolume) 2 place = 2048 + place := by
    rw [storedPosition, size, number, rest]
    change clusterStart (bootSector fileVolume) 2 + _ = _
    rw [start]
  unfold fileByte
  rw [low, volume.drive, storedByte_eq, position]
  have sector : (2048 + (place : Int)) / 512 = 4 := by omega
  have index : ((2048 + (place : Int)) % 512).toNat = place := by omega
  unfold Drive.byteAt
  rw [sector, index]
  rfl

/-- A read of at most a cluster from its beginning fills the buffer with the
places. -/
theorem fileVolume_fills {ptr size : Word} (asked : 0 < size.toNat) (small : size.toNat ≤ 512)
    (apart : BufferApart opened (fileData opened fd) ptr size.toNat) :
    exists after, fread opened fd ptr size 1#32 = some (1, after) ∧
      Filled opened after ptr size.toNat fun place => BitVec.ofNat 8 place := by
  have one : (1#32).toNat = 1 := rfl
  have low : (fileSlot opened fd).low16BitsFirstCluster = 2 := just.slot.low16BitsFirstCluster.trans (by decide)
  have cluster : clusterBytes (bootSector fileVolume) = 512 := by decide
  have data : forall i, i ≤ lastNumber (clusterBytes (bootSector fileVolume)) (filePosition opened fd)
      (size.toNat * (1#32).toNat : Nat) ->
        DataCluster (storedCluster (driveOf opened) (bootSector fileVolume) (fileSlot opened fd).low16BitsFirstCluster i) := by
    intro i within
    have none : lastNumber (clusterBytes (bootSector fileVolume)) (filePosition opened fd)
        (size.toNat * (1#32).toNat : Nat) = 0 := by
      rw [cluster, just.position, one, Nat.mul_one]
      unfold lastNumber
      omega
    rw [none] at within
    obtain rfl := Nat.le_zero.mp within
    rw [low]
    exact (by decide : (0x0002 : Int) ≤ 2 ∧ (2 : Int) ≤ 0xFFEF)
  have fits : size.toNat * (1#32).toNat < 2 ^ 32 := by
    rw [one]
    omega
  rw [← Nat.mul_one size.toNat, ← one] at apart
  have finds := fileVolume_finds just asked (show 0 < (1#32).toNat by decide) (by rw [one]; omega)
  rcases finds.fread volume (by decide) asked (by decide) just.openFile apart fits data with ⟨after, reads, filled⟩
  rw [one, Nat.mul_one] at filled
  refine ⟨after, reads, filled.transferred, filled.bytes.congr fun place within => ?_⟩
  rw [just.position, Int.natCast_zero, Int.zero_add]
  exact fileVolume_byte volume just (by omega)

include room

/-- The buffer may be anywhere below the heap. -/
theorem fileVolume_reads {ptr size : Word} (asked : 0 < size.toNat) (small : size.toNat ≤ 512)
    (below : ptr.toNat + size.toNat ≤ KERNEL_HEAP_START_ADDRESS.toNat) :
    exists after, fread opened fd ptr size 1#32 = some (1, after) ∧
      Filled opened after ptr size.toNat fun place => BitVec.ofNat 8 place :=
  fileVolume_fills volume just asked small (just.bufferApart room below)

end Hundred

/-! ## The position -/

/-- The position has moved on by a number of bytes. -/
def Advances (before after : Kernel) (fd : Int) (count : Nat) : Prop :=
  filePosition after fd = filePosition before fd + count

/-- No successful read moves the position behind what it has read. -/
theorem fread_neverAdvances {kernel after : Kernel} {fd : Int} {ptr size nmemb : Word} {count : Int}
    (same : fread kernel fd ptr size nmemb = some (count, after)) (succeeds : 0 ≤ count) :
    ¬ Advances kernel after fd (size.toNat * nmemb.toNat) := by
  intro advances
  have position : filePosition after fd = filePosition kernel fd := (fread_transferred same).filePosition fd
  have none : size.toNat * nmemb.toNat = 0 := by
    unfold Advances at advances
    omega
  have empty : size = 0#32 ∨ nmemb = 0#32 := by
    rcases Nat.mul_eq_zero.mp none with noSize | noItems
    · exact Or.inl (BitVec.eq_of_toNat_eq noSize)
    · exact Or.inr (BitVec.eq_of_toNat_eq noItems)
  unfold fread at same
  rw [if_pos (Or.inr empty)] at same
  have refused : - EINVAL = count := congrArg Prod.fst (Option.some.inj same)
  unfold EINVAL at refused
  omega

/-- A read of ten bytes. -/
theorem fread_neverAdvances_ten : exists booted opened after, boot fileVolume (fun _ => 0#8) = some booted ∧
    fopen booted [forwardSlash, 0x41#8] [0x72#8] = some (1, opened) ∧
    fread opened 1 0x00400000#32 10#32 1#32 = some (1, after) ∧
    ¬ Advances opened after 1 ((10#32).toNat * (1#32).toNat) := by
  rcases fileVolume_opens with ⟨booted, opened, boots, opens, volume, room, just⟩
  rcases @fileVolume_reads booted opened 1 volume room.kernelHeap just 0x00400000#32 10#32 (by decide) (by decide)
    (by decide) with ⟨after, reads, _⟩
  exact ⟨booted, opened, after, boots, opens, reads, fread_neverAdvances reads (by decide)⟩

/-- Ten bytes and then ten more are the first ten twice, and not the first
twenty. -/
theorem fread_repeats_ten : exists booted opened first second whole, boot fileVolume (fun _ => 0#8) = some booted ∧
    fopen booted [forwardSlash, 0x41#8] [0x72#8] = some (1, opened) ∧
    fread opened 1 0x00400000#32 10#32 1#32 = some (1, first) ∧
    fread first 1 0x0040000A#32 10#32 1#32 = some (1, second) ∧
    fread opened 1 0x00400000#32 20#32 1#32 = some (1, whole) ∧
    second.bytes 0x0040000A#32 = 0#8 ∧ whole.bytes 0x0040000A#32 = 10#8 ∧ ¬ Advances opened first 1 10 := by
  rcases fileVolume_opens with ⟨booted, opened, boots, opens, volume, room, just⟩
  have heap := room.kernelHeap
  rcases @fileVolume_reads booted opened 1 volume heap just 0x00400000#32 10#32 (by decide) (by decide) (by decide) with
    ⟨first, readsFirst, filledFirst⟩
  have justFirst := just.filled filledFirst (just.bufferApart heap (by decide))
  have heapFirst : first.heap.IsKernelHeap := by
    rw [filledFirst.transferred.heap]
    exact heap
  rcases @fileVolume_reads booted first 1 (volume.later filledFirst.sameVolume) heapFirst justFirst 0x0040000A#32 10#32
    (by decide) (by decide) (by decide) with ⟨second, readsSecond, filledSecond⟩
  rcases @fileVolume_reads booted opened 1 volume heap just 0x00400000#32 20#32 (by decide) (by decide) (by decide) with
    ⟨whole, readsWhole, filledWhole⟩
  refine ⟨booted, opened, first, second, whole, boots, opens, readsFirst, readsSecond, readsWhole, ?_, ?_, ?_⟩
  · exact filledSecond.bytes.inside 0 (by decide)
  · exact filledWhole.bytes.inside 10 (by decide)
  · intro advances
    have moved : filePosition first 1 = filePosition opened 1 + 10 := advances
    rw [justFirst.position, just.position] at moved
    exact absurd moved (by decide)

/-! ## The end -/

/-- The number of complete items behind the position. -/
def itemsAvailable (kernel : Kernel) (fd : Int) (size : Word) : Nat :=
  (fileLength kernel fd - filePosition kernel fd) / size.toNat

/-- What `fread` promises at the end of a file: it returns the number of complete
items that there are, and stores nothing but bytes of the file. -/
def KeepsToFile (header : Nat -> Byte) (kernel : Kernel) (fd : Int) (ptr size nmemb : Word) : Prop :=
  exists count after, fread kernel fd ptr size nmemb = some (count, after) ∧
    count = min nmemb.toNat (itemsAvailable kernel fd size) ∧
    forall address, after.bytes address = kernel.bytes address ∨
      filePosition kernel fd + (address - ptr).toNat < fileLength kernel fd ∧
        after.bytes address = fileByte header kernel fd (filePosition kernel fd + (address - ptr).toNat)

section Ends

variable {header : Nat -> Byte} {kernel : Kernel} {fd : Int} {ptr size nmemb : Word}

/-- A read that is successful returns the number of items that it was asked
for. -/
theorem fread_count (opened : OpenFile kernel fd) (some : 0 < size.toNat) (items : 0 < nmemb.toNat) {count : Int}
    {after : Kernel} (same : fread kernel fd ptr size nmemb = Option.some (count, after)) :
    count < 0 ∨ count = wordToInt nmemb := by
  rw [fread_eq opened some items] at same
  rcases Option.map_eq_some_iff.mp same with ⟨read, _, result⟩
  split at result
  · rename_i failed
    rw [result] at failed
    exact Or.inl failed
  · exact Or.inr (congrArg Prod.fst result).symm

/-- The promise is kept only of requests that end within the file. -/
theorem KeepsToFile.inside (keeps : KeepsToFile header kernel fd ptr size nmemb) (opened : OpenFile kernel fd)
    (some : 0 < size.toNat) (items : 0 < nmemb.toNat) :
    filePosition kernel fd + size.toNat * nmemb.toNat ≤ fileLength kernel fd := by
  rcases keeps with ⟨count, after, same, available, _⟩
  have whole : nmemb.toNat ≤ itemsAvailable kernel fd size := by
    rcases fread_count opened some items same with failed | counted
    · omega
    · rw [wordToInt, BitVec.toInt_eq_toNat_cond] at counted
      split at counted <;> omega
  unfold itemsAvailable at whole
  have product := (Nat.le_div_iff_mul_le some).mp whole
  have asked := Nat.mul_pos items some
  rw [Nat.mul_comm size.toNat]
  omega

/-- A request that delivers what it was asked for, within the file, keeps the
promise. -/
theorem keepsToFile_of_filled {after : Kernel} (some : 0 < size.toNat)
    (same : fread kernel fd ptr size nmemb = Option.some ((nmemb.toNat : Int), after))
    (filled : Filled kernel after ptr (size.toNat * nmemb.toNat) fun place =>
      fileByte header kernel fd (filePosition kernel fd + place))
    (inside : filePosition kernel fd + size.toNat * nmemb.toNat ≤ fileLength kernel fd) :
    KeepsToFile header kernel fd ptr size nmemb := by
  refine ⟨_, after, same, ?_, fun address => ?_⟩
  · have enough : nmemb.toNat ≤ itemsAvailable kernel fd size := by
      unfold itemsAvailable
      rw [Nat.le_div_iff_mul_le some, Nat.mul_comm]
      omega
    rw [Nat.min_eq_left enough]
  · rcases Nat.lt_or_ge (address - ptr).toNat (size.toNat * nmemb.toNat) with within | beyond
    · have content := filled.bytes.inside _ within
      rw [add_offset] at content
      exact Or.inr ⟨by omega, content⟩
    · exact Or.inl (filled.bytes.outside address beyond)

end Ends

/-- A read keeps to the file only if the request ends within it, and does so
then if each of its items is read as it is stored. -/
theorem keepsToFile_inside {booted kernel : Kernel} {fd : Int} {ptr size nmemb : Word} (volume : Resolved booted kernel)
    (sized : FatHeader.sectorsPerCluster (bootSector booted) ≠ 0) (opened : OpenFile kernel fd)
    (some : 0 < size.toNat) (items : 0 < nmemb.toNat)
    (apart : BufferApart kernel (fileData kernel fd) ptr (size.toNat * nmemb.toNat))
    (file : StoredFile (driveOf kernel) (bootSector booted) (fileSlot kernel fd)) :
    (KeepsToFile (bootSector booted) kernel fd ptr size nmemb ->
      filePosition kernel fd + size.toNat * nmemb.toNat ≤ fileLength kernel fd) ∧
    (filePosition kernel fd + size.toNat * nmemb.toNat ≤ fileLength kernel fd ∧
        FindsItems (bootSector booted) kernel fd size nmemb ->
      KeepsToFile (bootSector booted) kernel fd ptr size nmemb) := by
  refine ⟨fun keeps => keeps.inside opened some items, ?_⟩
  rintro ⟨inside, finds⟩
  rcases finds.freadFile volume sized some items opened apart file inside with ⟨after, reads, filled⟩
  exact keepsToFile_of_filled some reads filled inside

/-- Four items of twenty five bytes, which end with that file. -/
theorem keepsToFile_inside_whole : exists booted opened, boot fileVolume (fun _ => 0#8) = some booted ∧
    fopen booted [forwardSlash, 0x41#8] [0x72#8] = some (1, opened) ∧
    filePosition opened 1 + (25#32).toNat * (4#32).toNat = fileLength opened 1 ∧
    KeepsToFile (bootSector fileVolume) opened 1 0x00400000#32 25#32 4#32 := by
  rcases fileVolume_opens with ⟨booted, opened, boots, opens, volume, room, just⟩
  have inside : filePosition opened 1 + (25#32).toNat * (4#32).toNat = fileLength opened 1 := by
    rw [fileVolume_length just, just.position]
    rfl
  have finds : FindsItems (bootSector fileVolume) opened 1 25#32 4#32 :=
    fileVolume_finds just (by decide) (by decide) (by decide)
  exact ⟨booted, opened, boots, opens, inside, (keepsToFile_inside volume (by decide) just.openFile (by decide) (by decide)
    (just.bufferApart room.kernelHeap (by decide)) (fileChain.inKernel volume.drive just.slot)).2
      ⟨Nat.le_of_eq inside, finds⟩⟩

/-- Two hundred bytes of the file of a hundred are one item that is not there,
and byte 150 is one of the cluster. -/
theorem keepsToFile_fails_hundred : exists booted opened after, boot fileVolume (fun _ => 0#8) = some booted ∧
    fopen booted [forwardSlash, 0x41#8] [0x72#8] = some (1, opened) ∧
    fread opened 1 0x00400000#32 200#32 1#32 = some (1, after) ∧ itemsAvailable opened 1 200#32 = 0 ∧
    after.bytes 0x00400096#32 = 150#8 ∧ fileLength opened 1 = 100 ∧
    ¬ KeepsToFile (bootSector fileVolume) opened 1 0x00400000#32 200#32 1#32 := by
  rcases fileVolume_opens with ⟨booted, opened, boots, opens, volume, room, just⟩
  have length := fileVolume_length just
  have position := just.position
  rcases @fileVolume_reads booted opened 1 volume room.kernelHeap just 0x00400000#32 200#32 (by decide) (by decide)
    (by decide) with ⟨after, reads, filled⟩
  refine ⟨booted, opened, after, boots, opens, reads, ?_, filled.bytes.inside 150 (by decide), length, fun keeps => ?_⟩
  · rw [itemsAvailable, length, position]
    decide
  · have inside := keeps.inside just.openFile (by decide) (by decide)
    rw [length, position] at inside
    exact absurd inside (by decide)

end Fs
end LarvaOS
