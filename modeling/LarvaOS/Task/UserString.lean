import LarvaOS.Libc.Strings
import LarvaOS.Task.CopyRestores

namespace LarvaOS
namespace Tasks

open Fs Library Libc Memory PageWalk

/-!
# A string that is copied from a task

A string of the task goes through two bounded copies, and each of them stops after
255 bytes.  Shorter strings arrive whole.  From byte 255 on the destination keeps what
it held, and the call returns 0 all the same.  A null pointer on either side makes one
of the copies do nothing.

The string and the destination are apart from the memory that the routine itself
stores to: the page that it borrows, the page structures and the entry table.
-/

/-! ## Strings of a task -/

/-- A byte of a string, or its NUL. -/
def textByte (string : List Byte) (count : Nat) : Byte := (string[count]?).getD 0#8

theorem textByte_length (string : List Byte) : textByte string string.length = 0#8 := by
  rw [textByte, List.getElem?_eq_none (Nat.le_refl _)]
  rfl

theorem textByte_ne_zero {string : List Byte} (isString : IsString string) {count : Nat} (inside : count < string.length) :
    textByte string count ≠ 0#8 := by
  rw [textByte, List.getElem?_eq_getElem inside]
  exact fun null => isString (null ▸ List.getElem_mem inside)

/-- The physical address of a byte of the task. -/
def userPlace (kernel : Kernel) (task address : Word) : Option Word :=
  translate kernel.words (kernel.words (kernel.tasks task).pageDirectory) address

/-- The string that an address denotes under the page tables of the task. -/
structure Denotes (kernel : Kernel) (task userPtr : Word) (string : List Byte) : Prop where
  isString : IsString string
  bytes : forall count, count ≤ string.length ->
    (userPlace kernel task (userPtr + BitVec.ofNat 32 count)).map kernel.bytes = some (textByte string count)

/-- The memory at the pointer holds the string, as far as the size reaches. -/
def HoldsString (kernel : Kernel) (toPtr : Word) (string : List Byte) (size : Int) : Prop :=
  forall count, count < min size.toNat (string.length + 1) ->
    kernel.bytes (toPtr + BitVec.ofNat 32 count) = textByte string count

/-- The byte lies in the page that the heap hands out for the copy. -/
def InBorrowed (kernel : Kernel) (size : Int) (place : Word) : Prop :=
  exists block, kernel.heap.Hands (intToWord size) (Extent.single block) ∧ kernel.heap.InExtent (Extent.single block) place

/-- The memory that the copy itself needs. -/
def RoutineMemory (kernel : Kernel) (kernelBlocks : SpaceBlocks) (blocks : TaskBlocks) (size : Int) (place : Word) : Prop :=
  InBorrowed kernel size place ∨ InSpace kernel.heap kernelBlocks place ∨ InSpace kernel.heap blocks.space place ∨
    ¬ OutsideTable kernel.heap place

/-- The string and the destination are apart from the memory of the routine. -/
structure Separate (kernel : Kernel) (task : Word) (kernelBlocks : SpaceBlocks) (blocks : TaskBlocks)
    (userPtr toPtr : Word) (string : List Byte) (size : Int) : Prop where
  virtual : forall count, count ≤ string.length -> ¬ InBorrowed kernel size (userPtr + BitVec.ofNat 32 count)
  source : forall count, count ≤ string.length -> forall place,
    userPlace kernel task (userPtr + BitVec.ofNat 32 count) = some place ->
      ¬ RoutineMemory kernel kernelBlocks blocks size place
  destination : forall place, Destination toPtr size place -> ¬ RoutineMemory kernel kernelBlocks blocks size place

/-- The copies reach the end of the string, or the destination holds the rest already. -/
def ArrivesWhole (kernel : Kernel) (userPtr toPtr : Word) (string : List Byte) (size : Int) : Prop :=
  if toPtr = 0#32 then HoldsString kernel toPtr string size
  else if userPtr = 0#32 then string = []
  else forall count, 255 ≤ count -> count < min size.toNat (string.length + 1) ->
    kernel.bytes (toPtr + BitVec.ofNat 32 count) = textByte string count

/-! ## One copy -/

theorem add_ofNat_injective {pointer : Word} {left right : Nat} (leftSmall : left < 4096) (rightSmall : right < 4096)
    (same : pointer + BitVec.ofNat 32 left = pointer + BitVec.ofNat 32 right) : left = right := by
  have leftPlace := offset_toNat pointer (show left < 2 ^ 32 by omega)
  have rightPlace := offset_toNat pointer (show right < 2 ^ 32 by omega)
  rw [same] at leftPlace
  exact leftPlace.symm.trans rightPlace

/-- A copy from readable memory apart from its destination. -/
theorem strncpy_copies {places : Word -> Prop} {first after : Kernel} {d s n : Word} {content : Nat -> Byte}
    (dNotNull : d ≠ 0#32) (sNotNull : s ≠ 0#32) (small : n.toNat < 4096)
    (writes : forall kernel, StoresOnly places first kernel -> forall count, count < min n.toNat 255 ->
      activePlace kernel (d + BitVec.ofNat 32 count) = some (d + BitVec.ofNat 32 count))
    (inside : forall count, count < min n.toNat 255 -> places (d + BitVec.ofNat 32 count))
    (reads : forall kernel, StoresOnly places first kernel -> forall count, count < min n.toNat 255 ->
      (forall i, i < count -> content i ≠ 0#8) -> loadByte kernel (s + BitVec.ofNat 32 count) = some (content count))
    (copies : strncpy first d s n = some after) :
    StoresOnly places first after ∧ forall i, i < min n.toNat 255 -> (forall j, j < i -> content j ≠ 0#8) ->
      after.bytes (d + BitVec.ofNat 32 i) = content i := by
  rw [strncpy, if_neg (not_or.mpr ⟨dNotNull, sNotNull⟩)] at copies
  have distinct : forall i j, i < min n.toNat 255 -> j < min n.toNat 255 ->
      d + BitVec.ofNat 32 i = d + BitVec.ofNat 32 j -> i = j := fun i j iBound jBound same =>
    add_ofNat_injective (by omega) (by omega) same
  rcases strncpyLoop_copies writes inside distinct reads (Nat.zero_add _) (StoresOnly.refl places first)
    (fun i none => absurd none (Nat.not_lt_zero i)) (fun i none => absurd none (Nat.not_lt_zero i)) with
    ⟨after', copies', only, content'⟩
  obtain rfl := Option.some.inj (copies.symm.trans copies')
  exact ⟨only, content'⟩

theorem textByte_before {string : List Byte} {count : Nat} (goesOn : forall i, i < count -> textByte string i ≠ 0#8) :
    count ≤ string.length := by
  by_contra beyond
  exact goesOn string.length (by omega) (textByte_length string)

section Copies

variable {kernel : Kernel} {task : Word} {kernelBlocks : SpaceBlocks} {blocks : TaskBlocks}
  (calls : CallsFor kernel task kernelBlocks blocks) {size : Int} {block : Nat}
  (hands : kernel.heap.Hands (intToWord size) (Extent.single block)) (value : (intToWord size).toNat = size.toNat)
  (small : size < pagingPageSize)

include calls hands value small

omit value small in
/-- A string apart from the borrowed page is read as it was. -/
theorem firstCopy_reads {userPtr toPtr : Word} {string : List Byte} (denotes : Denotes kernel task userPtr string)
    (separate : Separate kernel task kernelBlocks blocks userPtr toPtr string size) {read : Kernel}
    (only : StoresOnly (kernel.heap.InExtent (Extent.single block))
      (lentKernel kernel task blocks.space block (intToWord size)) read) {count : Nat} (upTo : count ≤ string.length) :
    loadByte read (userPtr + BitVec.ofNat 32 count) = some (textByte string count) := by
  have placed := calls.caller.kernelHeap.wellPlaced
  have virtual := separate.virtual count upTo
  have source := separate.source count upTo
  have byte := denotes.bytes count upTo
  generalize userPtr + BitVec.ofNat 32 count = virt at *
  have bound := virt.isLt
  have tmpAligned : (kernel.heap.addressOf block).toNat % 4096 = 0 := placed.addressOf_aligned hands.inside
  have tmpPlace : (kernel.heap.addressOf block).toNat = kernel.heap.startAddress.toNat + heapBlockSizeBytes * block :=
    placed.toNat_addressOf hands.inside
  -- The page of the address has an entry of its own.
  have different : blocks.space.entryAddress kernel.heap virt ≠ borrowedEntry kernel blocks.space block := by
    intro same
    have base : (BitVec.ofNat 32 (virt.toNat / 4096 * 4096)).toNat = virt.toNat / 4096 * 4096 := by
      rw [BitVec.toNat_ofNat]
      omega
    have aligned : (BitVec.ofNat 32 (virt.toNat / 4096 * 4096)).toNat % pagingPageSize = 0 := by
      rw [base, pagingPageSize]
      omega
    rw [← entryAddress_page kernel.heap blocks.space (show (BitVec.ofNat 32 (virt.toNat / 4096 * 4096)).toNat / 4096 =
      virt.toNat / 4096 by rw [base]; omega)] at same
    have equal := calls.callee.space.entryAddress_injective placed aligned tmpAligned same
    rw [equal] at base
    refine virtual ⟨block, hands, ?_⟩
    change kernel.heap.startAddress.toNat + heapBlockSizeBytes * block ≤ virt.toNat ∧
      virt.toNat < kernel.heap.startAddress.toNat + heapBlockSizeBytes * (block + 1)
    unfold heapBlockSizeBytes at *
    omega
  have walk : activePlace read virt = userPlace kernel task virt := by
    rw [firstCopy_place calls hands only, if_neg different, userPlace]
    exact (translate_space calls.callee.space placed (by decide) (by decide) virt).symm
  rw [loadByte, walk]
  rcases Option.map_eq_some_iff.mp byte with ⟨place, translated, same⟩
  have outside : ¬ kernel.heap.InExtent (Extent.single block) place := fun inside =>
    source place translated (Or.inl ⟨block, hands, inside⟩)
  have kept : read.bytes place = kernel.bytes place := by
    refine (only.bytes place outside).trans ?_
    exact if_neg fun covered => outside (placed.inExtent_of_lt hands covered)
  rw [translated, Option.map_some, kept, same]

/-- The first copy takes over the string. -/
theorem firstCopy_string {userPtr toPtr : Word} {string : List Byte} (userNotNull : userPtr ≠ 0#32)
    (denotes : Denotes kernel task userPtr string)
    (separate : Separate kernel task kernelBlocks blocks userPtr toPtr string size) {read : Kernel}
    (copies : strncpy (lentKernel kernel task blocks.space block (intToWord size)) (kernel.heap.addressOf block) userPtr
      (intToWord size) = some read) {count : Nat} (below : count < min size.toNat 255) (upTo : count ≤ string.length) :
    read.bytes (kernel.heap.addressOf block + BitVec.ofNat 32 count) = textByte string count := by
  have placed := calls.caller.kernelHeap.wellPlaced
  have page : ((pagingPageSize : Nat) : Int) = 4096 := rfl
  have notNull : kernel.heap.addressOf block ≠ 0#32 := placed.addressOf_ne_null hands.inside
  have reads : forall kernel', StoresOnly (kernel.heap.InExtent (Extent.single block))
      (lentKernel kernel task blocks.space block (intToWord size)) kernel' -> forall count,
        count < min (intToWord size).toNat 255 -> (forall i, i < count -> textByte string i ≠ 0#8) ->
          loadByte kernel' (userPtr + BitVec.ofNat 32 count) = some (textByte string count) :=
    fun kernel' only count _ goesOn => firstCopy_reads calls hands denotes separate only (textByte_before goesOn)
  rw [← value] at below
  have copied := strncpy_copies notNull userNotNull (by omega)
    (fun kernel' only count below => (firstCopy_writes calls hands only (by omega)).1)
    (fun count below => (firstCopy_writes calls hands (StoresOnly.refl _ _) (by omega)).2) reads copies
  exact copied.2 count below fun j before => textByte_ne_zero denotes.isString (by omega)

/-- The second copy takes the borrowed page to the destination, up to the first NUL, and
leaves the rest of the destination alone. -/
theorem secondCopy_string {read copied : Kernel} {toPtr : Word} {content : Nat -> Byte} (toNotNull : toPtr ≠ 0#32)
    (apart : forall place, Destination toPtr size place -> ¬ RoutineMemory kernel kernelBlocks blocks size place)
    (only : StoresOnly (kernel.heap.InExtent (Extent.single block))
      (lentKernel kernel task blocks.space block (intToWord size)) read)
    (held : forall count, count < min size.toNat 255 -> (forall i, i < count -> content i ≠ 0#8) ->
      read.bytes (kernel.heap.addressOf block + BitVec.ofNat 32 count) = content count)
    (copies : strncpy (regainedKernel kernel read blocks.space block (intToWord size)) toPtr (kernel.heap.addressOf block)
      (intToWord size) = some copied) {count : Nat} :
    (count < min size.toNat 255 -> (forall i, i < count -> content i ≠ 0#8) ->
        copied.bytes (toPtr + BitVec.ofNat 32 count) = content count) ∧
      (255 ≤ count -> count < size.toNat ->
        copied.bytes (toPtr + BitVec.ofNat 32 count) = kernel.bytes (toPtr + BitVec.ofNat 32 count)) := by
  have placed := calls.caller.kernelHeap.wellPlaced
  have page : ((pagingPageSize : Nat) : Int) = 4096 := rfl
  have notNull : kernel.heap.addressOf block ≠ 0#32 := placed.addressOf_ne_null hands.inside
  have borrowed := regainedKernel_borrowed calls hands only
  have places : forall place, (exists count, count < min size.toNat 255 ∧ place = toPtr + BitVec.ofNat 32 count) ->
      Destination toPtr size place := fun place ⟨count, below, same⟩ => ⟨count, by omega, same⟩
  have physical {kernel' : Kernel}
      (only' : StoresOnly (fun place => exists count, count < min size.toNat 255 ∧ place = toPtr + BitVec.ofNat 32 count)
        (regainedKernel kernel read blocks.space block (intToWord size)) kernel') (virt : Word) :
      activePlace kernel' virt = some virt :=
    calls.activePlace_copied hands borrowed
      (fun place inside inKernel => apart place (places place inside) (Or.inr (Or.inl inKernel))) only' virt
  have reads : forall kernel', StoresOnly
      (fun place => exists count, count < min size.toNat 255 ∧ place = toPtr + BitVec.ofNat 32 count)
      (regainedKernel kernel read blocks.space block (intToWord size)) kernel' -> forall count,
        count < min (intToWord size).toNat 255 -> (forall i, i < count -> content i ≠ 0#8) ->
          loadByte kernel' (kernel.heap.addressOf block + BitVec.ofNat 32 count) = some (content count) := by
    intro kernel' only' count below goesOn
    rw [value] at below
    have inPage := (firstCopy_writes calls hands only (show count < 4096 by omega)).2
    have kept := only'.bytes (kernel.heap.addressOf block + BitVec.ofNat 32 count) fun isPlace =>
      apart _ (places _ isPlace) (Or.inl ⟨block, hands, inPage⟩)
    rw [loadByte, physical only', Option.map_some, kept]
    exact congrArg some (held count below goesOn)
  have second := strncpy_copies toNotNull notNull (by omega) (fun kernel' only' count _ => physical only' _)
    (fun count below => ⟨count, by omega, rfl⟩) reads copies
  refine ⟨fun below goesOn => second.2 count (by omega) goesOn, fun beyond inside => ?_⟩
  have notStored : ¬ exists other, other < min size.toNat 255 ∧
      toPtr + BitVec.ofNat 32 count = toPtr + BitVec.ofNat 32 other := by
    rintro ⟨other, below, same⟩
    have equal := add_ofNat_injective (show count < 4096 by omega) (by omega) same
    omega
  rw [second.1.bytes _ notStored]
  refine borrowed.bytes _ fun inPage => apart _ ⟨count, by omega, rfl⟩ (Or.inl ⟨block, hands, inPage⟩)

end Copies

/-! ## Both copies -/

section Both

variable {kernel : Kernel} {task : Word} {kernelBlocks : SpaceBlocks} {blocks : TaskBlocks}
  (calls : CallsFor kernel task kernelBlocks blocks) {size : Int} (small : size < pagingPageSize)
  {userPtr toPtr : Word} {string : List Byte}
  (separate : Separate kernel task kernelBlocks blocks userPtr toPtr string size) (toNotNull : toPtr ≠ 0#32)
  {after : Kernel} (returns : copyFromUser kernel task userPtr toPtr size = some (0, after))

include calls small separate toNotNull returns

/-- What both copies make of the string: its first 255 bytes arrive, the rest of the
destination is left alone. -/
theorem copyFromUser_delivers (int : -2 ^ 31 ≤ size) (denotes : Denotes kernel task userPtr string)
    (userNotNull : userPtr ≠ 0#32) {count : Nat} :
    (count < min size.toNat 255 -> count ≤ string.length ->
        after.bytes (toPtr + BitVec.ofNat 32 count) = textByte string count) ∧
      (255 ≤ count -> count < size.toNat ->
        after.bytes (toPtr + BitVec.ofNat 32 count) = kernel.bytes (toPtr + BitVec.ofNat 32 count)) := by
  rcases copyFromUser_cases calls int userPtr toPtr with ⟨block, _, hands⟩ | ⟨res, failed, refused, outcome⟩
  · have value := (hands_page calls.caller.kernelHeap int small hands).2.1
    rcases copyFromUser_returned calls int small hands returns with ⟨read, copied, first, only, second, _, rfl⟩
    have held : forall count, count < min size.toNat 255 -> (forall i, i < count -> textByte string i ≠ 0#8) ->
        read.bytes (kernel.heap.addressOf block + BitVec.ofNat 32 count) = textByte string count :=
      fun count below goesOn => firstCopy_string calls hands value small userNotNull denotes separate first below
        (textByte_before goesOn)
    have arrived := @secondCopy_string _ _ _ _ calls _ _ hands value small _ _ _ _ toNotNull separate.destination only held
      second count
    refine ⟨fun below upTo => arrived.1 below fun i before => textByte_ne_zero denotes.isString (by omega), arrived.2⟩
  · rw [outcome] at returns
    have zero := (Prod.mk.inj (Option.some.inj returns)).1
    omega

/-- From a null pointer an empty string arrives. -/
theorem copyFromUser_fromNull (positive : 0 < size) (userNull : userPtr = 0#32) : after.bytes toPtr = 0#8 := by
  have int : -2 ^ 31 ≤ size := by omega
  rcases copyFromUser_cases calls int userPtr toPtr with ⟨block, _, hands⟩ | ⟨res, failed, refused, outcome⟩
  · have value := (hands_page calls.caller.kernelHeap int small hands).2.1
    have page : ((pagingPageSize : Nat) : Int) = 4096 := rfl
    rcases copyFromUser_returned calls int small hands returns with ⟨read, copied, first, only, second, _, rfl⟩
    have read_eq : read = lentKernel kernel task blocks.space block (intToWord size) := by
      rw [strncpy, if_pos (Or.inr userNull)] at first
      exact (Option.some.inj first).symm
    have blank : forall count, count < min size.toNat 255 -> (forall i, i < count -> (0#8 : Byte) ≠ 0#8) ->
        read.bytes (kernel.heap.addressOf block + BitVec.ofNat 32 count) = 0#8 := by
      intro count below _
      rw [read_eq]
      refine if_pos ?_
      rw [value]
      exact Nat.lt_of_le_of_lt (Nat.le_of_eq (offset_toNat (kernel.heap.addressOf block) (by omega))) (by omega)
    have start := (@secondCopy_string _ _ _ _ calls _ _ hands value small _ _ _ (fun _ => 0#8) toNotNull
      separate.destination only blank second 0).1 (by omega) fun i none => absurd none (Nat.not_lt_zero i)
    have base : toPtr + BitVec.ofNat 32 0 = toPtr := BitVec.add_zero toPtr
    rw [base] at start
    exact start
  · rw [outcome] at returns
    have zero := (Prod.mk.inj (Option.some.inj returns)).1
    omega

omit toNotNull in
/-- To a null pointer nothing arrives. -/
theorem copyFromUser_toNull (int : -2 ^ 31 ≤ size) (toNull : toPtr = 0#32) {count : Nat} (below : count < size.toNat) :
    after.bytes (toPtr + BitVec.ofNat 32 count) = kernel.bytes (toPtr + BitVec.ofNat 32 count) := by
  rcases copyFromUser_cases calls int userPtr toPtr with ⟨block, _, hands⟩ | ⟨res, failed, refused, outcome⟩
  · rcases copyFromUser_returned calls int small hands returns with ⟨read, copied, first, only, second, _, rfl⟩
    rw [strncpy, if_pos (Or.inl toNull)] at second
    obtain rfl := Option.some.inj second
    exact (regainedKernel_borrowed calls hands only).bytes _ fun inPage =>
      separate.destination _ ⟨count, by omega, rfl⟩ (Or.inl ⟨block, hands, inPage⟩)
  · rw [outcome] at returns
    have zero := (Prod.mk.inj (Option.some.inj returns)).1
    omega

end Both

/-! ## Strings below the heap -/

/-- A string at 0x100000, and nothing but zeros elsewhere. -/
def stringMemory (string : List Byte) (place : Word) : Byte :=
  if place.toNat < 0x200000 then textByte string (place - 0x100000#32).toNat else 0#8

theorem stringMemory_string (string : List Byte) {count : Nat} (below : count < 4096) :
    stringMemory string (0x100000#32 + BitVec.ofNat 32 count) = textByte string count := by
  have value : (0x100000#32 + BitVec.ofNat 32 count).toNat = 0x100000 + count := by
    rw [BitVec.toNat_add, BitVec.toNat_ofNat, BitVec.toNat_ofNat]
    omega
  rw [stringMemory, if_pos (by omega), offset_toNat 0x100000#32 (by omega)]

theorem stringMemory_destination (string : List Byte) {count : Nat} (below : count < 4096) :
    stringMemory string (0x200000#32 + BitVec.ofNat 32 count) = 0#8 := by
  have value : (0x200000#32 + BitVec.ofNat 32 count).toNat = 0x200000 + count := by
    rw [BitVec.toNat_add, BitVec.toNat_ofNat, BitVec.toNat_ofNat]
    omega
  exact if_neg (by omega)

/-- Memory between the entry table and the pool is apart from the memory of the routine. -/
theorem low_not_routine {kernel : Kernel} {kernelBlocks : SpaceBlocks} {blocks : TaskBlocks}
    (kernelHeap : kernel.heap.IsKernelHeap) (size : Int) {place : Word}
    (above : entryTableAddress + 25600 ≤ place.toNat) (below : place.toNat < 0x01000000) :
    ¬ RoutineMemory kernel kernelBlocks blocks size place := by
  rcases low_apart kernelHeap above below with ⟨outside, apart⟩
  rintro (⟨block, hands, lower, _⟩ | inKernel | inTask | inTable)
  · have start : KERNEL_HEAP_START_ADDRESS.toNat = 0x01000000 := rfl
    rw [kernelHeap.start, start] at lower
    omega
  · exact apart _ inKernel
  · exact apart _ inTask
  · exact inTable outside

/-- A string below the heap is copied to a buffer below the heap. -/
theorem CopySetting.copiesLow {kernel : Kernel} {task : Word} {kernelBlocks : SpaceBlocks} {blocks : TaskBlocks}
    {string : List Byte} (setting : CopySetting kernel task kernelBlocks blocks (stringMemory string))
    (isString : IsString string) (short : string.length < 4096) {size : Int} (positive : 0 < size)
    (small : size < pagingPageSize) :
    Denotes kernel task 0x100000#32 string ∧
      Separate kernel task kernelBlocks blocks 0x100000#32 0x200000#32 string size ∧
        exists after, copyFromUser kernel task 0x100000#32 0x200000#32 size = some (0, after) := by
  have calls := setting.calls
  have kernelHeap := calls.caller.kernelHeap
  have int : -2 ^ 31 ≤ size := by omega
  have page : ((pagingPageSize : Nat) : Int) = 4096 := rfl
  have identity (virt : Word) : userPlace kernel task virt = some virt := by
    rw [userPlace, translate_space calls.callee.space kernelHeap.wellPlaced (by decide) (by decide),
      identity_entry setting.identity]
    exact place_self (by decide) (by decide)
  have source {count : Nat} (upTo : count ≤ string.length) :
      (0x100000#32 + BitVec.ofNat 32 count).toNat = 0x100000 + count := by
    rw [BitVec.toNat_add, BitVec.toNat_ofNat, BitVec.toNat_ofNat]
    omega
  have between {place : Nat} (above : 0x100000 ≤ place) (below : place < 0x01000000) :
      entryTableAddress + 25600 ≤ place ∧ place < 0x01000000 :=
    ⟨Nat.le_trans (show entryTableAddress + 25600 ≤ 0x100000 by decide) above, below⟩
  have low : forall place, Destination 0x200000#32 size place ->
      ¬ RoutineMemory kernel kernelBlocks blocks size place := by
    rintro place ⟨count, below, rfl⟩
    have value : (0x200000#32 + BitVec.ofNat 32 count).toNat = 0x200000 + count := by
      rw [BitVec.toNat_add, BitVec.toNat_ofNat, BitVec.toNat_ofNat]
      omega
    have here := between (show 0x100000 ≤ 0x200000 + count by omega) (by omega)
    rw [← value] at here
    exact low_not_routine kernelHeap size here.1 here.2
  have sourceLow {count : Nat} (upTo : count ≤ string.length) :
      ¬ RoutineMemory kernel kernelBlocks blocks size (0x100000#32 + BitVec.ofNat 32 count) := by
    have here := between (Nat.le_add_right 0x100000 count) (by omega)
    rw [← source upTo] at here
    exact low_not_routine kernelHeap size here.1 here.2
  refine ⟨⟨isString, fun count upTo => ?_⟩, ⟨fun count upTo inBorrowed => sourceLow upTo (Or.inl inBorrowed), ?_, low⟩, ?_⟩
  · rw [identity, Option.map_some, setting.bytes, stringMemory_string string (by omega)]
  · intro count upTo place translated
    rw [identity] at translated
    obtain rfl := Option.some.inj translated
    exact sourceLow upTo
  · have isPresent : forall virt : Word, virt.toNat % pagingPageSize = 0 ->
        present (pagingGetEntryOfAddress kernel (kernel.tasks task).pageDirectory virt) = true := by
      intro virt aligned
      rw [calls.callee.space.getEntry kernelHeap.wellPlaced (by decide) aligned, identity_entry setting.identity]
      exact present_or _ _ (by decide)
    have apart : ApartFromPages kernel kernelBlocks blocks (Destination 0x200000#32 size) := fun place inside =>
      ⟨fun inKernel => low place inside (Or.inr (Or.inl inKernel)),
        fun inTask => low place inside (Or.inr (Or.inr (Or.inl inTask)))⟩
    rcases Option.isSome_iff_exists.mp (copyFromUser_isSome calls 0x100000#32 0x200000#32 int (fun place isPlace => (apart place isPlace).1) isPresent) with
      ⟨⟨res, after⟩, returns⟩
    have total : kernel.heap.table.total.toNat = 25600 := by
      rw [kernelHeap.total]
      rfl
    have value : (intToWord size).toNat = size.toNat := by
      rw [intToWord, BitVec.toNat_ofInt]
      omega
    have one : blocksFor (intToWord size) = 1 := by
      rw [blocksFor, value]
      omega
    rcases hands_of_freeFrom kernelHeap.wellPlaced setting.free (by rw [total]; decide) one with ⟨block, _, hands⟩
    rcases copyFromUser_returned calls int small hands returns with ⟨_, _, _, _, _, rfl, _⟩
    exact ⟨after, returns⟩

/-- When the copy returns 0, the destination holds the string exactly if no copy was cut
short. -/
theorem copyFromUser_arrivesWhole_iff {kernel : Kernel} {task : Word} {kernelBlocks : SpaceBlocks} {blocks : TaskBlocks}
    (calls : CallsFor kernel task kernelBlocks blocks) {size : Int} (positive : 0 < size) (small : size < pagingPageSize)
    {userPtr toPtr : Word} {string : List Byte} (denotes : Denotes kernel task userPtr string)
    (separate : Separate kernel task kernelBlocks blocks userPtr toPtr string size) {after : Kernel}
    (returns : copyFromUser kernel task userPtr toPtr size = some (0, after)) :
    HoldsString after toPtr string size ↔ ArrivesWhole kernel userPtr toPtr string size := by
  have int : -2 ^ 31 ≤ size := by omega
  unfold HoldsString ArrivesWhole
  by_cases toNull : toPtr = 0#32
  · rw [if_pos toNull]
    have same {count : Nat} (below : count < min size.toNat (string.length + 1)) :=
      copyFromUser_toNull calls small separate returns int toNull (show count < size.toNat by omega)
    constructor
    · intro holds count below
      rw [← same below]
      exact holds count below
    · intro holds count below
      rw [same below]
      exact holds count below
  · rw [if_neg toNull]
    by_cases userNull : userPtr = 0#32
    · rw [if_pos userNull]
      have base : toPtr + BitVec.ofNat 32 0 = toPtr := BitVec.add_zero toPtr
      have start := copyFromUser_fromNull calls small separate toNull returns positive userNull
      constructor
      · intro holds
        have first := holds 0 (by omega)
        rw [base, start] at first
        cases string with
        | nil => rfl
        | cons byte rest => exact absurd first.symm (textByte_ne_zero denotes.isString (Nat.zero_lt_succ rest.length))
      · rintro rfl count below
        obtain rfl : count = 0 := by
          change count < min size.toNat 1 at below
          omega
        rw [base, start]
        rfl
    · rw [if_neg userNull]
      have arrived {count : Nat} := @copyFromUser_delivers _ _ _ _ calls _ small _ _ _ separate toNull _ returns int denotes
        userNull count
      constructor
      · intro holds count beyond below
        rw [← arrived.2 beyond (by omega)]
        exact holds count below
      · intro rest count below
        by_cases early : count < 255
        · exact arrived.1 (by omega) (by omega)
        · rw [arrived.2 (by omega) (by omega)]
          exact rest count (by omega) below

/-- Two letters and their NUL. -/
theorem copyFromUser_arrivesWhole_short : exists kernel task after,
    copyFromUser kernel task 0x100000#32 0x200000#32 16 = some (0, after) ∧
      HoldsString after 0x200000#32 [0x41#8, 0x42#8] 16 := by
  rcases exists_copySetting (stringMemory [0x41#8, 0x42#8]) with ⟨kernel, task, kernelBlocks, blocks, setting⟩
  rcases setting.copiesLow (by unfold IsString; decide) (by decide) (show 0 < 16 by decide) (by decide) with
    ⟨denotes, separate, after, returns⟩
  refine ⟨kernel, task, after, returns, ?_⟩
  refine (copyFromUser_arrivesWhole_iff setting.calls (by decide) (by decide) denotes separate returns).mpr ?_
  rw [ArrivesWhole, if_neg (by decide), if_neg (by decide)]
  intro count beyond below
  change count < min 16 3 at below
  omega

/-- Of 300 letters the last 45 do not arrive. -/
theorem copyFromUser_cutShort : exists kernel task kernelBlocks blocks after,
    CallsFor kernel task kernelBlocks blocks ∧ Denotes kernel task 0x100000#32 (List.replicate 300 0x41#8) ∧
      Separate kernel task kernelBlocks blocks 0x100000#32 0x200000#32 (List.replicate 300 0x41#8) 400 ∧
        copyFromUser kernel task 0x100000#32 0x200000#32 400 = some (0, after) ∧
          ¬ HoldsString after 0x200000#32 (List.replicate 300 0x41#8) 400 := by
  have isString : IsString (List.replicate 300 0x41#8) := by
    intro null
    exact absurd (List.eq_of_mem_replicate null) (by decide)
  have length : (List.replicate 300 (0x41#8 : Byte)).length = 300 := List.length_replicate
  have letter : textByte (List.replicate 300 0x41#8) 255 = 0x41#8 := by
    rw [textByte, List.getElem?_replicate_of_lt (by decide)]
    rfl
  generalize List.replicate 300 (0x41#8 : Byte) = string at *
  rcases exists_copySetting (stringMemory string) with ⟨kernel, task, kernelBlocks, blocks, setting⟩
  rcases setting.copiesLow isString (by omega) (show 0 < 400 by decide) (by decide) with ⟨denotes, separate, after, returns⟩
  refine ⟨kernel, task, kernelBlocks, blocks, after, setting.calls, denotes, separate, returns, fun holds => ?_⟩
  have arrived := holds 255 (by rw [length]; decide)
  have left := (@copyFromUser_delivers _ _ _ _ setting.calls _ (by decide) _ _ _ separate (by decide) _ returns (by decide)
    denotes (by decide) 255).2 (by decide) (by decide)
  rw [arrived, letter, setting.bytes, stringMemory_destination string (by decide)] at left
  exact absurd left (by decide)

end Tasks
end LarvaOS
