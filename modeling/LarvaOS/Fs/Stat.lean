import LarvaOS.Fs.StringCopy

namespace LarvaOS
namespace Fs

open Disk Library Memory

/-!
# The status of a file

`fat16_stat` copies the two name fields of an entry as strings.  They are not
terminated, so each copy runs on to the first NUL of the entry, over the fields of the
structure behind the name, and stops in front of it when the name has a NUL inside.
The later stores repair the fields from `reserved` on, not the attribute.
-/

/-! ## What is read and written -/

/-- An access to one byte of memory. -/
inductive ByteAccess where
  | load (address : Word)
  | store (address : Word)

/-- The accesses of a copy, byte after byte. -/
def copyAccesses (d s : Word) (count : Nat) : List ByteAccess :=
  (List.range count).flatMap fun place => [.load (s + BitVec.ofNat 32 place), .store (d + BitVec.ofNat 32 place)]

/-- The accesses of `strcpy`. -/
def strcpyAccesses (kernel : Kernel) (d s : Word) : List ByteAccess :=
  copyAccesses d s ((cString kernel.bytes (2 ^ 32) s).length + 1)

/-- The accesses of `fat16_stat` to the entry and to the structure. -/
def fat16StatAccesses (kernel : Kernel) (p stat : Word) : List ByteAccess :=
  let descItem := kernel.fatItems (kernel.fatFileDescriptors p).item
  if descItem.type ≠ FAT_ITEM_TYPE_FILE then []
  else
    let item := descItem.pointer
    let named := strcpy kernel (stat + 4#32) item
    let extended := strcpy named (stat + 12#32) (item + 8#32)
    let flags :=
      if extended.bytes (item + 11#32) &&& FAT_FILE_READ_ONLY ≠ 0#8 then
        [.load (item + 11#32), .load (stat + 15#32), .store (stat + 15#32)]
      else [.load (item + 11#32), .store (stat + 15#32)]
    strcpyAccesses kernel (stat + 4#32) item ++ strcpyAccesses named (stat + 12#32) (item + 8#32) ++ flags ++
      copyAccesses (stat + 16#32) (item + 12#32) 1 ++ copyAccesses (stat + 18#32) (item + 14#32) 2 ++
      copyAccesses (stat + 20#32) (item + 16#32) 2 ++ copyAccesses (stat + 22#32) (item + 18#32) 2 ++
      copyAccesses (stat + 24#32) (item + 22#32) 2 ++ copyAccesses (stat + 26#32) (item + 24#32) 2 ++
      copyAccesses (stat + 28#32) (item + 28#32) 4

theorem mem_copyAccesses {d s : Word} {count : Nat} {access : ByteAccess} :
    access ∈ copyAccesses d s count ↔ exists place, place < count ∧
      (access = .load (s + BitVec.ofNat 32 place) ∨ access = .store (d + BitVec.ofNat 32 place)) := by
  rw [copyAccesses, List.mem_flatMap]
  constructor
  · rintro ⟨place, below, member⟩
    refine ⟨place, List.mem_range.mp below, ?_⟩
    rcases List.mem_cons.mp member with loaded | stored
    · exact Or.inl loaded
    · exact Or.inr (List.mem_singleton.mp stored)
  · rintro ⟨place, below, loaded | stored⟩
    · exact ⟨place, List.mem_range.mpr below, List.mem_cons.mpr (Or.inl loaded)⟩
    · exact ⟨place, List.mem_range.mpr below, List.mem_cons.mpr (Or.inr (List.mem_singleton.mpr stored))⟩

/-- Memory that is not stored to. -/
theorem storeBytes_kept (kernel : Kernel) {d address : Word} {bytes : List Byte}
    (outside : forall place, place < bytes.length -> address ≠ d + BitVec.ofNat 32 place) :
    (storeBytes kernel d bytes).bytes address = kernel.bytes address := by
  rw [storeBytes_bytes, List.getElem?_eq_none]
  · rfl
  · exact Nat.not_lt.mp fun inside => outside _ inside (add_offset d address).symm

theorem not_mem_copyAccesses {d s address : Word} {count : Nat} (outside : .store address ∉ copyAccesses d s count)
    {place : Nat} (below : place < count) : address ≠ d + BitVec.ofNat 32 place := fun same =>
  outside (mem_copyAccesses.mpr ⟨place, below, Or.inr (congrArg ByteAccess.store same)⟩)

theorem copyField_kept (kernel : Kernel) {d s address : Word} {size : Nat} (outside : .store address ∉ copyAccesses d s size) :
    (copyField kernel d s size).bytes address = kernel.bytes address := by
  refine storeBytes_kept kernel fun place below => not_mem_copyAccesses outside ?_
  rw [List.length_map, List.length_range] at below
  exact below

theorem strcpy_kept (kernel : Kernel) {d s address : Word} (outside : .store address ∉ strcpyAccesses kernel d s) :
    (strcpy kernel d s).bytes address = kernel.bytes address := by
  refine storeBytes_kept kernel fun place below => not_mem_copyAccesses outside ?_
  rw [List.length_append, List.length_singleton] at below
  exact below

/-- The address is one of the 32 bytes of a structure. -/
def Inside (base address : Word) : Prop := exists place, place < slotSize ∧ address = base + BitVec.ofNat 32 place

/-- The access reads the entry or the structure, or writes the structure. -/
def Within (pointer stat : Word) : ByteAccess -> Prop
  | .load address => Inside pointer address ∨ Inside stat address
  | .store address => Inside stat address

/-- The entry and the structure have no byte in common. -/
def EntryApart (pointer stat : Word) : Prop :=
  forall place other, place < slotSize -> other < slotSize ->
    pointer + BitVec.ofNat 32 place ≠ stat + BitVec.ofNat 32 other

theorem inside_offset (base : Word) {offset place : Nat} (below : offset + place < slotSize) :
    Inside base (base + BitVec.ofNat 32 offset + BitVec.ofNat 32 place) :=
  ⟨offset + place, below, by rw [BitVec.add_assoc, BitVec.ofNat_add]⟩

/-- The byte behind the structure. -/
theorem not_inside_end (base : Word) : ¬ Inside base (base + BitVec.ofNat 32 slotSize) := by
  rintro ⟨place, below, same⟩
  have left := offset_toNat base (show slotSize < 2 ^ 32 by decide)
  have small : place < 2 ^ 32 := Nat.lt_trans below (by decide)
  rw [same, offset_toNat base small] at left
  omega

theorem copyAccesses_within (pointer stat : Word) {offset source count : Nat} (fits : offset + count ≤ slotSize)
    (inEntry : source + count ≤ slotSize) {access : ByteAccess}
    (member : access ∈ copyAccesses (stat + BitVec.ofNat 32 offset) (pointer + BitVec.ofNat 32 source) count) :
    Within pointer stat access := by
  rcases mem_copyAccesses.mp member with ⟨place, below, rfl | rfl⟩
  · exact Or.inl (inside_offset pointer (by omega))
  · exact inside_offset stat (by omega)

/-- A string that goes on over the end of the structure leaves it. -/
theorem strcpyAccesses_beyond {kernel : Kernel} (stat s : Word) {offset : Nat} (inside : offset ≤ slotSize)
    (goesOn : forall i, i < slotSize - offset -> kernel.bytes (s + BitVec.ofNat 32 i) ≠ 0#8) :
    .store (stat + BitVec.ofNat 32 slotSize) ∈ strcpyAccesses kernel (stat + BitVec.ofNat 32 offset) s := by
  have length := le_cString_length (2 ^ 32) (Nat.le_trans (Nat.sub_le _ _) (by decide : slotSize ≤ 2 ^ 32)) goesOn
  refine mem_copyAccesses.mpr ⟨slotSize - offset, Nat.lt_succ_of_le length, Or.inr ?_⟩
  rw [BitVec.add_assoc, ← BitVec.ofNat_add, Nat.add_sub_cancel' inside]

/-! ## The contents of the structure -/

/-- New bytes over some of the old ones. -/
def overwrite (content : Nat -> Byte) (offset size : Nat) (new : Nat -> Byte) (place : Nat) : Byte :=
  if offset ≤ place ∧ place < offset + size then new (place - offset) else content place

theorem overwrite_inside (content : Nat -> Byte) {offset size : Nat} (new : Nat -> Byte) {place : Nat} (below : place < size) :
    overwrite content offset size new (offset + place) = new place := by
  rw [overwrite, if_pos ⟨Nat.le_add_right _ _, Nat.add_lt_add_left below _⟩, Nat.add_sub_cancel_left]

theorem overwrite_outside (content : Nat -> Byte) {offset size : Nat} (new : Nat -> Byte) {place : Nat}
    (outside : place < offset ∨ offset + size ≤ place) : overwrite content offset size new place = content place :=
  if_neg (by omega)

/-- The entry is as it was, and the structure has these contents. -/
structure Copying (kernel current : Kernel) (pointer stat : Word) (content : Nat -> Byte) : Prop where
  entry : forall place, place < slotSize ->
    current.bytes (pointer + BitVec.ofNat 32 place) = kernel.bytes (pointer + BitVec.ofNat 32 place)
  struct : forall place, place < slotSize -> current.bytes (stat + BitVec.ofNat 32 place) = content place

section Copies

variable {kernel current after : Kernel} {pointer stat : Word} {content new : Nat -> Byte} {offset size : Nat}
  (apart : EntryApart pointer stat) (copying : Copying kernel current pointer stat content)

include apart copying

theorem Copying.fills (fits : offset + size ≤ slotSize)
    (fills : Fills current.bytes after.bytes (stat + BitVec.ofNat 32 offset) size new) :
    Copying kernel after pointer stat (overwrite content offset size new) where
  entry := fun place within => by
    rw [fills.apart fits fun other below => apart place other within below]
    exact copying.entry place within
  struct := fun place within => by
    rw [fills.inStructure fits (by decide) within, overwrite, copying.struct place within]

/-- Bytes of the entry are copied. -/
theorem Copying.copied {source : Nat} (fits : offset + size ≤ slotSize) (inEntry : source + size ≤ slotSize)
    (fills : Fills current.bytes after.bytes (stat + BitVec.ofNat 32 offset) size
      fun place => current.bytes (pointer + BitVec.ofNat 32 source + BitVec.ofNat 32 place)) :
    Copying kernel after pointer stat (overwrite content offset size fun place => slotAt kernel pointer (source + place)) := by
  refine copying.fills apart fits (fills.congr fun place below => ?_)
  rw [BitVec.add_assoc, ← BitVec.ofNat_add]
  exact copying.entry (source + place) (by omega)

theorem Copying.copyField {source : Nat} (fits : offset + size ≤ slotSize) (inEntry : source + size ≤ slotSize) :
    Copying kernel (copyField current (stat + BitVec.ofNat 32 offset) (pointer + BitVec.ofNat 32 source) size) pointer stat
      (overwrite content offset size fun place => slotAt kernel pointer (source + place)) := by
  have small : size ≤ 2 ^ 32 := Nat.le_trans (Nat.le_trans (Nat.le_add_left _ _) fits) (by decide)
  exact copying.copied apart fits inEntry (copyField_fills current _ _ small)

theorem Copying.strcpy {source count : Nat} (fits : offset + (count + 1) ≤ slotSize)
    (inEntry : source + (count + 1) ≤ slotSize)
    (ends : EndsAt kernel.bytes (pointer + BitVec.ofNat 32 source) count) :
    Copying kernel (strcpy current (stat + BitVec.ofNat 32 offset) (pointer + BitVec.ofNat 32 source)) pointer stat
      (overwrite content offset (count + 1) fun place => slotAt kernel pointer (source + place)) := by
  have ends' : EndsAt current.bytes (pointer + BitVec.ofNat 32 source) count := ends.keep fun i upTo => by
    rw [BitVec.add_assoc, ← BitVec.ofNat_add]
    exact copying.entry (source + i) (by omega)
  have small : count < 2 ^ 32 := Nat.lt_of_lt_of_le (show count < slotSize by omega) (by decide)
  exact copying.copied apart fits inEntry (strcpy_fills _ ends' small)

end Copies

/-- The flags that are stored behind the extension. -/
def statFlags (attributes prior : Byte) : Byte := if attributes &&& FAT_FILE_READ_ONLY ≠ 0#8 then prior ||| 0x01#8 else 0x00#8

/-- The structure after the copy of both names. -/
def namedContent (entry : Slot) (prior : Nat -> Byte) (nameEnd extEnd : Nat) : Nat -> Byte :=
  overwrite (overwrite prior 4 (nameEnd + 1) fun place => entry (0 + place)) 12 (extEnd + 1) fun place => entry (8 + place)

/-- The structure after the call, for names that end at these places. -/
def statContent (entry : Slot) (prior : Nat -> Byte) (nameEnd extEnd : Nat) : Nat -> Byte :=
  let named := namedContent entry prior nameEnd extEnd
  let flagged := overwrite named 15 1 fun _ => statFlags (entry 11) (named 15)
  let reserved := overwrite flagged 16 1 fun place => entry (12 + place)
  let created := overwrite reserved 18 2 fun place => entry (14 + place)
  let dated := overwrite created 20 2 fun place => entry (16 + place)
  let accessed := overwrite dated 22 2 fun place => entry (18 + place)
  let modified := overwrite accessed 24 2 fun place => entry (22 + place)
  let modifiedDate := overwrite modified 26 2 fun place => entry (24 + place)
  overwrite modifiedDate 28 4 fun place => entry (28 + place)

/-- The fields from `reserved` on. -/
def copyLaterFields (kernel : Kernel) (stat item : Word) : Kernel :=
  let kernel := copyField kernel (stat + 16#32) (item + 12#32) 1
  let kernel := copyField kernel (stat + 18#32) (item + 14#32) 2
  let kernel := copyField kernel (stat + 20#32) (item + 16#32) 2
  let kernel := copyField kernel (stat + 22#32) (item + 18#32) 2
  let kernel := copyField kernel (stat + 24#32) (item + 22#32) 2
  let kernel := copyField kernel (stat + 26#32) (item + 24#32) 2
  copyField kernel (stat + 28#32) (item + 28#32) 4

section Regular

variable {kernel : Kernel} {p pointer : Word} (stat : Word)
  (file : (kernel.fatItems (kernel.fatFileDescriptors p).item).type = FAT_ITEM_TYPE_FILE)
  (item : (kernel.fatItems (kernel.fatFileDescriptors p).item).pointer = pointer)

include file item

theorem fat16Stat_regular :
    let extended := strcpy (strcpy kernel (stat + 4#32) pointer) (stat + 12#32) (pointer + 8#32)
    fat16Stat kernel p stat = (0, copyLaterFields (storeBytes extended (stat + 15#32)
      [statFlags (extended.bytes (pointer + 11#32)) (extended.bytes (stat + 15#32))]) stat pointer) := by
  unfold fat16Stat copyEntry
  simp only [file, item, ne_eq, not_true_eq_false, if_false]
  generalize strcpy (strcpy kernel (stat + 4#32) pointer) (stat + 12#32) (pointer + 8#32) = extended
  rw [statFlags]
  split <;> rfl

variable {nameEnd extEnd : Nat} (apart : EntryApart pointer stat) (name : EndsAt kernel.bytes pointer nameEnd)
  (ext : EndsAt kernel.bytes (pointer + 8#32) extEnd) (nameFits : nameEnd < 28) (extFits : extEnd < 20)

include apart name ext nameFits extFits

omit file item in
theorem strcpy_named : Copying kernel (strcpy (strcpy kernel (stat + 4#32) pointer) (stat + 12#32) (pointer + 8#32)) pointer stat
    (namedContent (slotAt kernel pointer) (slotAt kernel stat) nameEnd extEnd) := by
  have size : slotSize = 32 := rfl
  have start : pointer + BitVec.ofNat 32 0 = pointer := BitVec.add_zero pointer
  have before : Copying kernel kernel pointer stat (slotAt kernel stat) := ⟨fun _ _ => rfl, fun _ _ => rfl⟩
  have named := @Copying.strcpy _ _ _ _ _ 4 apart before 0 nameEnd (by omega) (by omega) (by rw [start]; exact name)
  rw [start] at named
  exact @Copying.strcpy _ _ _ _ _ 12 apart named 8 extEnd (by omega) (by omega) ext

omit file item apart name ext nameFits extFits in
theorem Copying.laterFields (apart : EntryApart pointer stat) {current : Kernel} {content : Nat -> Byte}
    (copying : Copying kernel current pointer stat content) :
    Copying kernel (copyLaterFields current stat pointer) pointer stat
      (overwrite (overwrite (overwrite (overwrite (overwrite (overwrite (overwrite content
        16 1 fun place => slotAt kernel pointer (12 + place)) 18 2 fun place => slotAt kernel pointer (14 + place))
        20 2 fun place => slotAt kernel pointer (16 + place)) 22 2 fun place => slotAt kernel pointer (18 + place))
        24 2 fun place => slotAt kernel pointer (22 + place)) 26 2 fun place => slotAt kernel pointer (24 + place))
        28 4 fun place => slotAt kernel pointer (28 + place)) := by
  have reserved := @Copying.copyField _ _ _ _ _ 16 1 apart copying 12 (by decide) (by decide)
  have created := @Copying.copyField _ _ _ _ _ 18 2 apart reserved 14 (by decide) (by decide)
  have dated := @Copying.copyField _ _ _ _ _ 20 2 apart created 16 (by decide) (by decide)
  have accessed := @Copying.copyField _ _ _ _ _ 22 2 apart dated 18 (by decide) (by decide)
  have modified := @Copying.copyField _ _ _ _ _ 24 2 apart accessed 22 (by decide) (by decide)
  have modifiedDate := @Copying.copyField _ _ _ _ _ 26 2 apart modified 24 (by decide) (by decide)
  exact @Copying.copyField _ _ _ _ _ 28 4 apart modifiedDate 28 (by decide) (by decide)

theorem fat16Stat_content : Copying kernel (fat16Stat kernel p stat).2 pointer stat
    (statContent (slotAt kernel pointer) (slotAt kernel stat) nameEnd extEnd) := by
  have named := strcpy_named stat apart name ext nameFits extFits
  rw [fat16Stat_regular stat file item]
  have attributes := named.entry 11 (by decide)
  have prior := named.struct 15 (by decide)
  change _ = slotAt kernel pointer 11 at attributes
  simp only [attributes, prior]
  generalize strcpy (strcpy kernel (stat + 4#32) pointer) (stat + 12#32) (pointer + 8#32) = extended at *
  refine Copying.laterFields stat apart (named.fills apart (by decide) ?_)
  exact Fills.of_list (storeBytes_bytes _ _ _) (show 1 ≤ 2 ^ 32 by decide) fun place below => by
    obtain rfl : place = 0 := Nat.lt_one_iff.mp below
    rfl

/-- Every access is to the entry or to the structure. -/
theorem fat16StatAccesses_within : forall access, access ∈ fat16StatAccesses kernel p stat -> Within pointer stat access := by
  have size : slotSize = 32 := rfl
  have start : pointer + BitVec.ofNat 32 0 = pointer := BitVec.add_zero pointer
  have before : Copying kernel kernel pointer stat (slotAt kernel stat) := ⟨fun _ _ => rfl, fun _ _ => rfl⟩
  have named := @Copying.strcpy _ _ _ _ _ 4 apart before 0 nameEnd (by omega) (by omega) (by rw [start]; exact name)
  rw [start] at named
  have ext' : EndsAt (Fs.strcpy kernel (stat + BitVec.ofNat 32 4) pointer).bytes (pointer + 8#32) extEnd :=
    ext.keep fun i upTo => by
      rw [BitVec.add_assoc, ← BitVec.ofNat_add]
      exact named.entry (8 + i) (by omega)
  intro access member
  have nameCopied := @copyAccesses_within pointer stat 4 0 (nameEnd + 1) (by omega) (by omega) access
  have extCopied := @copyAccesses_within pointer stat 12 8 (extEnd + 1) (by omega) (by omega) access
  rw [start, ← name.length (by omega)] at nameCopied
  rw [← ext'.length (by omega)] at extCopied
  have inStruct : Inside stat (stat + 15#32) := ⟨15, by decide, rfl⟩
  have loaded : Inside pointer (pointer + 11#32) ∨ Inside stat (pointer + 11#32) := Or.inl ⟨11, by decide, rfl⟩
  unfold fat16StatAccesses at member
  simp only [file, item, ne_eq, not_true_eq_false, if_false] at member
  simp only [List.mem_append] at member
  rcases member with ((((((((inName | inExt) | inFlags) | reserved) | created) | dated) | accessed) | modified) | modifiedDate) |
    filesize
  · exact nameCopied inName
  · exact extCopied inExt
  · split at inFlags
    · rcases List.mem_cons.mp inFlags with rfl | inRest
      · exact loaded
      · rcases List.mem_cons.mp inRest with rfl | inLast
        · exact Or.inr inStruct
        · rw [List.mem_singleton.mp inLast]
          exact inStruct
    · rcases List.mem_cons.mp inFlags with rfl | inLast
      · exact loaded
      · rw [List.mem_singleton.mp inLast]
        exact inStruct
  · exact @copyAccesses_within pointer stat 16 12 1 (by decide) (by decide) _ reserved
  · exact @copyAccesses_within pointer stat 18 14 2 (by decide) (by decide) _ created
  · exact @copyAccesses_within pointer stat 20 16 2 (by decide) (by decide) _ dated
  · exact @copyAccesses_within pointer stat 22 18 2 (by decide) (by decide) _ accessed
  · exact @copyAccesses_within pointer stat 24 22 2 (by decide) (by decide) _ modified
  · exact @copyAccesses_within pointer stat 26 24 2 (by decide) (by decide) _ modifiedDate
  · exact @copyAccesses_within pointer stat 28 28 4 (by decide) (by decide) _ filesize

end Regular

/-- The call changes no byte but those that its accesses store to. -/
theorem fat16Stat_kept (kernel : Kernel) (p stat : Word) {address : Word}
    (outside : .store address ∉ fat16StatAccesses kernel p stat) :
    (fat16Stat kernel p stat).2.bytes address = kernel.bytes address := by
  by_cases file : (kernel.fatItems (kernel.fatFileDescriptors p).item).type = FAT_ITEM_TYPE_FILE
  · rw [fat16Stat_regular stat file rfl]
    unfold fat16StatAccesses at outside
    simp only [file, ne_eq, not_true_eq_false, if_false, List.mem_append, not_or] at outside
    generalize (kernel.fatItems (kernel.fatFileDescriptors p).item).pointer = pointer at *
    rcases outside with ⟨⟨⟨⟨⟨⟨⟨⟨⟨name, ext⟩, flags⟩, reserved⟩, created⟩, dated⟩, accessed⟩, modified⟩, modifiedDate⟩, filesize⟩
    have different : address ≠ stat + 15#32 := by
      rintro rfl
      refine flags ?_
      split
      · exact List.mem_cons_of_mem _ (List.mem_cons_of_mem _ (List.mem_singleton.mpr rfl))
      · exact List.mem_cons_of_mem _ (List.mem_singleton.mpr rfl)
    unfold copyLaterFields
    rw [copyField_kept _ filesize, copyField_kept _ modifiedDate, copyField_kept _ modified, copyField_kept _ accessed,
      copyField_kept _ dated, copyField_kept _ created, copyField_kept _ reserved, ← strcpy_kept kernel name,
      ← strcpy_kept _ ext]
    refine storeBytes_kept _ fun place below => ?_
    obtain rfl : place = 0 := Nat.lt_one_iff.mp below
    rw [BitVec.add_zero]
    exact different
  · exact congrArg (fun result : Int × Kernel => result.2.bytes address) (if_pos file)

/-! ## The fields -/

/-- A field of the structure is that of the entry. -/
def FieldHolds (content : Nat -> Byte) (entry : Slot) (offset source size : Nat) : Prop :=
  forall place, place < size -> content (offset + place) = entry (source + place)

/-- The structure describes the entry. -/
structure StatHolds (content : Nat -> Byte) (entry : Slot) : Prop where
  filename : FieldHolds content entry 4 0 8
  ext : FieldHolds content entry 12 8 3
  attributes : content 15 = if entry 11 &&& FAT_FILE_READ_ONLY ≠ 0#8 then 0x01#8 else 0x00#8
  reserved : FieldHolds content entry 16 12 1
  creationTime : FieldHolds content entry 18 14 2
  creationDate : FieldHolds content entry 20 16 2
  lastAccess : FieldHolds content entry 22 18 2
  lastModTime : FieldHolds content entry 24 22 2
  lastModDate : FieldHolds content entry 26 24 2
  filesize : FieldHolds content entry 28 28 4

/-- The entry has a NUL between the two places. -/
def NulIn (entry : Slot) (first last : Nat) : Prop := exists null, first ≤ null ∧ null < last ∧ entry null = 0#8

/-- The NULs of the entry do no harm. -/
structure StatFits (entry : Slot) (prior : Nat -> Byte) : Prop where
  ends : NulIn entry 8 28
  filename : forall place, place < 8 -> NulIn entry 0 place -> prior (4 + place) = entry place
  ext : forall place, place < 3 -> NulIn entry 8 (8 + place) -> prior (12 + place) = entry (8 + place)
  attributes : entry 11 &&& FAT_FILE_READ_ONLY ≠ 0#8 ->
    (NulIn entry 8 11 -> prior 15 ||| 0x01#8 = 0x01#8) ∧ (¬ NulIn entry 8 11 -> entry 11 ||| 0x01#8 = 0x01#8)

section Content

variable {entry : Slot} {prior : Nat -> Byte} {nameEnd extEnd : Nat}

theorem namedContent_filename (prior : Nat -> Byte) (nameEnd extEnd : Nat) {place : Nat} (below : place < 8) :
    namedContent entry prior nameEnd extEnd (4 + place) = if nameEnd < place then prior (4 + place) else entry place := by
  rw [namedContent, overwrite_outside _ _ (Or.inl (by omega))]
  by_cases cut : nameEnd < place
  · rw [if_pos cut, overwrite_outside _ _ (Or.inr (by omega))]
  · rw [if_neg cut, overwrite_inside _ _ (by omega), Nat.zero_add]

/-- From the extension on the second copy stores all that the first one did. -/
theorem namedContent_behind (prior : Nat -> Byte) (ends : nameEnd < 8 ∨ nameEnd = 8 + extEnd) (place : Nat) :
    namedContent entry prior nameEnd extEnd (12 + place) =
      if extEnd < place then prior (12 + place) else entry (8 + place) := by
  rw [namedContent]
  by_cases cut : extEnd < place
  · rw [if_pos cut, overwrite_outside _ _ (Or.inr (by omega)), overwrite_outside _ _ (Or.inr (by omega))]
  · rw [if_neg cut, overwrite_inside _ _ (by omega)]

theorem statContent_named {place : Nat} (below : place < 15) :
    statContent entry prior nameEnd extEnd place = namedContent entry prior nameEnd extEnd place := by
  unfold statContent
  rw [overwrite_outside _ _ (Or.inl (by omega)), overwrite_outside _ _ (Or.inl (by omega)),
    overwrite_outside _ _ (Or.inl (by omega)), overwrite_outside _ _ (Or.inl (by omega)),
    overwrite_outside _ _ (Or.inl (by omega)), overwrite_outside _ _ (Or.inl (by omega)),
    overwrite_outside _ _ (Or.inl (by omega)), overwrite_outside _ _ (Or.inl below)]

theorem statContent_attributes : statContent entry prior nameEnd extEnd 15 =
    statFlags (entry 11) (namedContent entry prior nameEnd extEnd 15) := rfl

/-- The fields that are no strings are always right. -/
theorem statContent_later : FieldHolds (statContent entry prior nameEnd extEnd) entry 16 12 1 ∧
    FieldHolds (statContent entry prior nameEnd extEnd) entry 18 14 2 ∧
    FieldHolds (statContent entry prior nameEnd extEnd) entry 20 16 2 ∧
    FieldHolds (statContent entry prior nameEnd extEnd) entry 22 18 2 ∧
    FieldHolds (statContent entry prior nameEnd extEnd) entry 24 22 2 ∧
    FieldHolds (statContent entry prior nameEnd extEnd) entry 26 24 2 ∧
    FieldHolds (statContent entry prior nameEnd extEnd) entry 28 28 4 := by
  unfold statContent
  refine ⟨fun place below => ?_, fun place below => ?_, fun place below => ?_, fun place below => ?_, fun place below => ?_,
    fun place below => ?_, fun place below => overwrite_inside _ _ below⟩
  · rw [overwrite_outside _ _ (Or.inl (by omega)), overwrite_outside _ _ (Or.inl (by omega)),
      overwrite_outside _ _ (Or.inl (by omega)), overwrite_outside _ _ (Or.inl (by omega)),
      overwrite_outside _ _ (Or.inl (by omega)), overwrite_outside _ _ (Or.inl (by omega))]
    exact overwrite_inside _ _ below
  · rw [overwrite_outside _ _ (Or.inl (by omega)), overwrite_outside _ _ (Or.inl (by omega)),
      overwrite_outside _ _ (Or.inl (by omega)), overwrite_outside _ _ (Or.inl (by omega)),
      overwrite_outside _ _ (Or.inl (by omega))]
    exact overwrite_inside _ _ below
  · rw [overwrite_outside _ _ (Or.inl (by omega)), overwrite_outside _ _ (Or.inl (by omega)),
      overwrite_outside _ _ (Or.inl (by omega)), overwrite_outside _ _ (Or.inl (by omega))]
    exact overwrite_inside _ _ below
  · rw [overwrite_outside _ _ (Or.inl (by omega)), overwrite_outside _ _ (Or.inl (by omega)),
      overwrite_outside _ _ (Or.inl (by omega))]
    exact overwrite_inside _ _ below
  · rw [overwrite_outside _ _ (Or.inl (by omega)), overwrite_outside _ _ (Or.inl (by omega))]
    exact overwrite_inside _ _ below
  · rw [overwrite_outside _ _ (Or.inl (by omega))]
    exact overwrite_inside _ _ below

end Content

/-- The first NUL from a place on. -/
structure FirstNul (entry : Slot) (first count : Nat) : Prop where
  null : entry (first + count) = 0#8
  before : forall i, i < count -> entry (first + i) ≠ 0#8

theorem NulIn.firstNul {entry : Slot} {first last : Nat} (nul : NulIn entry first last) :
    exists count, first + count < last ∧ FirstNul entry first count := by
  classical
  have some : exists count, first + count < last ∧ entry (first + count) = 0#8 := by
    rcases nul with ⟨null, lower, upper, zero⟩
    exact ⟨null - first, by omega, by rw [Nat.add_sub_cancel' lower]; exact zero⟩
  refine ⟨Nat.find some, (Nat.find_spec some).1, (Nat.find_spec some).2, fun i below zero => ?_⟩
  exact Nat.find_min some below ⟨Nat.lt_trans (Nat.add_lt_add_left below first) (Nat.find_spec some).1, zero⟩

namespace FirstNul

variable {entry : Slot} {first count : Nat} (nul : FirstNul entry first count)

include nul

theorem nulIn_iff (place : Nat) : NulIn entry first (first + place) ↔ count < place := by
  constructor
  · rintro ⟨null, lower, upper, zero⟩
    refine Nat.not_le.mp fun notLater => nul.before (null - first) (by omega) ?_
    rw [Nat.add_sub_cancel' lower]
    exact zero
  · exact fun below => ⟨first + count, Nat.le_add_right _ _, Nat.add_lt_add_left below first, nul.null⟩

theorem endsAt {kernel : Kernel} {pointer : Word} (same : slotAt kernel pointer = entry) :
    EndsAt kernel.bytes (pointer + BitVec.ofNat 32 first) count := by
  have bytes (i : Nat) : kernel.bytes (pointer + BitVec.ofNat 32 first + BitVec.ofNat 32 i) = entry (first + i) := by
    rw [BitVec.add_assoc, ← BitVec.ofNat_add, ← same]
    rfl
  refine ⟨(bytes count).trans nul.null, fun i below => ?_⟩
  rw [bytes i]
  exact nul.before i below

end FirstNul

/-- The first NUL of all is the one behind the name, or lies in the name. -/
theorem firstNul_cases {entry : Slot} {nameEnd extEnd : Nat} (name : FirstNul entry 0 nameEnd)
    (ext : FirstNul entry 8 extEnd) : nameEnd < 8 ∨ nameEnd = 8 + extEnd := by
  by_cases short : nameEnd < 8
  · exact Or.inl short
  · right
    have reaches : nameEnd ≤ 8 + extEnd := Nat.not_lt.mp fun beyond => by
      have notNull := name.before (8 + extEnd) beyond
      rw [Nat.zero_add] at notNull
      exact notNull ext.null
    have nothing : extEnd ≤ nameEnd - 8 := Nat.not_lt.mp fun beyond => by
      have notNull := ext.before (nameEnd - 8) beyond
      rw [Nat.add_sub_cancel' (by omega)] at notNull
      have null := name.null
      rw [Nat.zero_add] at null
      exact notNull null
    omega

theorem StatHolds.congr {content content' : Nat -> Byte} {entry : Slot} (holds : StatHolds content entry)
    (same : forall place, place < slotSize -> content' place = content place) : StatHolds content' entry := by
  have field {offset source size : Nat} (fits : offset + size ≤ slotSize) (held : FieldHolds content entry offset source size) :
      FieldHolds content' entry offset source size := fun place below =>
    (same (offset + place) (by omega)).trans (held place below)
  exact
    { filename := field (by decide) holds.filename
      ext := field (by decide) holds.ext
      attributes := (same 15 (by decide)).trans holds.attributes
      reserved := field (by decide) holds.reserved
      creationTime := field (by decide) holds.creationTime
      creationDate := field (by decide) holds.creationDate
      lastAccess := field (by decide) holds.lastAccess
      lastModTime := field (by decide) holds.lastModTime
      lastModDate := field (by decide) holds.lastModDate
      filesize := field (by decide) holds.filesize }

/-- The contents describe the entry exactly if its NULs do no harm. -/
theorem statHolds_iff {entry : Slot} {prior : Nat -> Byte} {nameEnd extEnd : Nat} (name : FirstNul entry 0 nameEnd)
    (ext : FirstNul entry 8 extEnd) (extFits : extEnd < 20) :
    StatHolds (statContent entry prior nameEnd extEnd) entry ↔ StatFits entry prior := by
  have ends := firstNul_cases name ext
  have filename {place : Nat} (below : place < 8) : statContent entry prior nameEnd extEnd (4 + place) =
      if nameEnd < place then prior (4 + place) else entry place := by
    rw [statContent_named (by omega), namedContent_filename prior nameEnd extEnd below]
  have extension {place : Nat} (below : place < 3) : statContent entry prior nameEnd extEnd (12 + place) =
      if extEnd < place then prior (12 + place) else entry (8 + place) := by
    rw [statContent_named (by omega), namedContent_behind prior ends]
  have flags : namedContent entry prior nameEnd extEnd 15 = if extEnd < 3 then prior 15 else entry 11 :=
    namedContent_behind prior ends 3
  have nulName (place : Nat) : NulIn entry 0 place ↔ nameEnd < place := by
    have iff := name.nulIn_iff place
    rwa [Nat.zero_add] at iff
  constructor
  · intro holds
    refine ⟨⟨8 + extEnd, Nat.le_add_right _ _, by omega, ext.null⟩, fun place below nul => ?_, fun place below nul => ?_,
      fun readOnly => ?_⟩
    · have field := holds.filename place below
      rw [filename below, if_pos ((nulName place).mp nul), Nat.zero_add] at field
      exact field
    · have field := holds.ext place below
      rw [extension below, if_pos ((ext.nulIn_iff place).mp nul)] at field
      exact field
    · have field := holds.attributes
      rw [statContent_attributes, statFlags, if_pos readOnly, if_pos readOnly, flags] at field
      refine ⟨fun nul => ?_, fun noNul => ?_⟩
      · rw [if_pos ((ext.nulIn_iff 3).mp nul)] at field
        exact field
      · rw [if_neg fun early => noNul ((ext.nulIn_iff 3).mpr early)] at field
        exact field
  · intro fits
    rcases @statContent_later entry prior nameEnd extEnd with
      ⟨reserved, creationTime, creationDate, lastAccess, lastModTime, lastModDate, filesize⟩
    refine ⟨fun place below => ?_, fun place below => ?_, ?_, reserved, creationTime, creationDate, lastAccess, lastModTime,
      lastModDate, filesize⟩
    · rw [filename below, Nat.zero_add]
      split
      · rename_i cut
        exact fits.filename place below ((nulName place).mpr cut)
      · rfl
    · rw [extension below]
      split
      · rename_i cut
        exact fits.ext place below ((ext.nulIn_iff place).mpr cut)
      · rfl
    · rw [statContent_attributes, statFlags, flags]
      split
      · rename_i readOnly
        split
        · rename_i early
          exact (fits.attributes readOnly).1 ((ext.nulIn_iff 3).mpr early)
        · rename_i late
          exact (fits.attributes readOnly).2 fun nul => late ((ext.nulIn_iff 3).mp nul)
      · rfl

/-! ## The call -/

/-- The entry of an open file. -/
def entryPointer (kernel : Kernel) (fd : Int) : Word :=
  (kernel.fatItems (kernel.fatFileDescriptors (fileData kernel fd)).item).pointer

/-- The call describes the entry, and stays within the entry and the structure. -/
structure Describes (kernel : Kernel) (fd : Int) (stat : Word) : Prop where
  holds : StatHolds (slotAt (fstat kernel fd stat).2 stat) (slotAt kernel (entryPointer kernel fd))
  accesses : forall access, access ∈ fat16StatAccesses kernel (fileData kernel fd) stat ->
    Within (entryPointer kernel fd) stat access

/-- A call that returns 0 is one for a regular file. -/
theorem fstat_regular {kernel : Kernel} {fd : Int} {stat : Word} (returns : (fstat kernel fd stat).1 = 0) :
    (kernel.fatItems (kernel.fatFileDescriptors (fileData kernel fd)).item).type = FAT_ITEM_TYPE_FILE ∧
      fstat kernel fd stat = fat16Stat kernel (fileData kernel fd) stat := by
  unfold fstat at returns ⊢
  by_cases missing : getFileDescriptor kernel fd = 0#32
  · rw [if_pos missing] at returns
    exact absurd returns (show ¬ (-EINVAL : Int) = 0 by decide)
  · rw [if_neg missing] at returns ⊢
    refine ⟨?_, rfl⟩
    by_contra other
    have refused : fat16Stat kernel (fileData kernel fd) stat = (-EINVAL, kernel) := if_pos other
    change (fat16Stat kernel (fileData kernel fd) stat).1 = 0 at returns
    rw [refused] at returns
    exact absurd returns (show ¬ (-EINVAL : Int) = 0 by decide)

/-- Without a NUL in the entry from the extension on, in front of its last four bytes, a
string is copied over the end of the structure. -/
theorem fat16Stat_leaves {kernel : Kernel} {p pointer : Word} (stat : Word)
    (file : (kernel.fatItems (kernel.fatFileDescriptors p).item).type = FAT_ITEM_TYPE_FILE)
    (item : (kernel.fatItems (kernel.fatFileDescriptors p).item).pointer = pointer) (apart : EntryApart pointer stat)
    (none : ¬ NulIn (slotAt kernel pointer) 8 28) :
    .store (stat + BitVec.ofNat 32 slotSize) ∈ fat16StatAccesses kernel p stat := by
  have size : slotSize = 32 := rfl
  have start : pointer + BitVec.ofNat 32 0 = pointer := BitVec.add_zero pointer
  unfold fat16StatAccesses
  simp only [file, item, ne_eq, not_true_eq_false, if_false, List.append_assoc]
  by_cases inName : NulIn (slotAt kernel pointer) 0 8
  · rcases inName.firstNul with ⟨nameEnd, below, name⟩
    have before : Copying kernel kernel pointer stat (slotAt kernel stat) := ⟨fun _ _ => rfl, fun _ _ => rfl⟩
    have named := @Copying.strcpy _ _ _ _ _ 4 apart before 0 nameEnd (by omega) (by omega) (name.endsAt rfl)
    rw [start] at named
    refine List.mem_append_right _ (List.mem_append_left _ ?_)
    refine @strcpyAccesses_beyond (strcpy kernel (stat + 4#32) pointer) stat _ 12 (by decide) fun i below null => ?_
    rw [BitVec.add_assoc, ← BitVec.ofNat_add] at null
    exact none ⟨8 + i, Nat.le_add_right _ _, by omega, (named.entry (8 + i) (by omega)).symm.trans null⟩
  · refine List.mem_append_left _ ?_
    refine @strcpyAccesses_beyond kernel stat pointer 4 (by decide) fun i below null => ?_
    by_cases early : i < 8
    · exact inName ⟨i, Nat.zero_le i, early, null⟩
    · exact none ⟨i, by omega, by omega, null⟩

theorem fstat_openFile {kernel : Kernel} {fd : Int} (opened : OpenFile kernel fd) (stat : Word) :
    (fstat kernel fd stat).1 = 0 := by
  unfold fstat
  rw [if_neg opened.descriptor]
  exact congrArg Prod.fst (fat16Stat_regular stat opened.file rfl)

/-- The copy of the entry lies in the heap, apart from a structure below it. -/
theorem JustOpened.entryApart {booted opened : Kernel} {fd : Int} {slot : Slot} (just : JustOpened booted opened fd slot)
    (kernelHeap : opened.heap.IsKernelHeap) {stat : Word} (low : stat.toNat + 32 ≤ 0x01000000) :
    EntryApart (entryPointer opened fd) stat := by
  rcases just.copy with ⟨extent, _, inside⟩
  intro place other within below same
  have lower := (inside place within).1
  have start : KERNEL_HEAP_START_ADDRESS.toNat = 0x01000000 := rfl
  have size : slotSize = 32 := rfl
  change _ ≤ (entryPointer opened fd + BitVec.ofNat 32 place).toNat at lower
  rw [same, kernelHeap.start, start, BitVec.toNat_add, BitVec.toNat_ofNat] at lower
  omega

/-- A call that returns 0 describes the entry exactly if the NULs of the entry do no
harm. -/
theorem fstat_describes_iff {kernel : Kernel} {fd : Int} {stat : Word} (returns : (fstat kernel fd stat).1 = 0)
    (apart : EntryApart (entryPointer kernel fd) stat) :
    Describes kernel fd stat ↔ StatFits (slotAt kernel (entryPointer kernel fd)) (slotAt kernel stat) := by
  rcases fstat_regular returns with ⟨file, result⟩
  have start : entryPointer kernel fd + BitVec.ofNat 32 0 = entryPointer kernel fd := BitVec.add_zero _
  constructor
  · intro describes
    have ends : NulIn (slotAt kernel (entryPointer kernel fd)) 8 28 := by
      by_contra none
      exact not_inside_end stat (describes.accesses _ (fat16Stat_leaves stat file rfl apart none))
    have holds := describes.holds
    rcases ends.firstNul with ⟨extEnd, extFits, ext⟩
    rcases ends with ⟨null, _, upper, zero⟩
    rcases (show NulIn _ 0 28 from ⟨null, Nat.zero_le null, upper, zero⟩).firstNul with ⟨nameEnd, nameFits, name⟩
    have nameEnds := name.endsAt rfl
    rw [start] at nameEnds
    have content := fat16Stat_content stat file rfl apart nameEnds (ext.endsAt rfl) (by omega) (by omega)
    rw [result] at holds
    exact (statHolds_iff name ext (by omega)).mp (holds.congr fun place within => (content.struct place within).symm)
  · intro fits
    rcases fits.ends.firstNul with ⟨extEnd, extFits, ext⟩
    rcases fits.ends with ⟨null, _, upper, zero⟩
    rcases (show NulIn _ 0 28 from ⟨null, Nat.zero_le null, upper, zero⟩).firstNul with ⟨nameEnd, nameFits, name⟩
    have nameEnds := name.endsAt rfl
    rw [start] at nameEnds
    have content := fat16Stat_content stat file rfl apart nameEnds (ext.endsAt rfl) (by omega) (by omega)
    refine ⟨?_, fat16StatAccesses_within stat file rfl apart nameEnds (ext.endsAt rfl) (by omega) (by omega)⟩
    rw [result]
    exact ((statHolds_iff name ext (by omega)).mpr fits).congr content.struct

/-- The status of the file of a hundred bytes. -/
theorem fstat_describes_hundred : exists booted opened, boot fileVolume (fun _ => 0#8) = some booted ∧
    fopen booted [forwardSlash, 0x41#8] [0x72#8] = some (1, opened) ∧ Describes opened 1 0x1FF000#32 := by
  rcases fileVolume_opens with ⟨booted, opened, boots, opens, _, room, just⟩
  refine ⟨booted, opened, boots, opens, ?_⟩
  have slot := just.slot
  refine (fstat_describes_iff (fstat_openFile just.openFile _) (just.entryApart room.kernelHeap (by decide))).mpr
    ⟨⟨12, by decide, by decide, (slot 12 (by decide)).trans (by decide)⟩, ?_, ?_, ?_⟩
  · rintro place below ⟨null, _, early, zero⟩
    have nonzero : forall place, place < 8 ->
        (storedRoot (driveOf fileVolume) (bootSector fileVolume)).slots 0 place ≠ 0#8 := by decide
    exact absurd ((slot null (Nat.lt_trans (by omega) (by decide : 8 < slotSize))).symm.trans zero) (nonzero null (by omega))
  · rintro place below ⟨null, later, early, zero⟩
    have nonzero : forall place, place < 12 ->
        (storedRoot (driveOf fileVolume) (bootSector fileVolume)).slots 0 place ≠ 0#8 := by decide
    exact absurd ((slot null (Nat.lt_trans (by omega) (by decide : 12 < slotSize))).symm.trans zero) (nonzero null (by omega))
  · intro readOnly
    have writable : (storedRoot (driveOf fileVolume) (bootSector fileVolume)).slots 0 11 &&& FAT_FILE_READ_ONLY = 0#8 := by
      decide
    have attributes := slot 11 (by decide)
    change slotAt opened (entryPointer opened 1) 11 = _ at attributes
    rw [attributes] at readOnly
    exact absurd writable readOnly

/-- The volume of the same file, with the attributes of an archived file that may not be
written. -/
abbrev archiveSectors : Int -> Nat -> Byte := fun sector place =>
  if sector = 3 ∧ place = 11 then 0x21#8 else fileSectors sector place

/-- The attribute of that file comes out as 0x21. -/
theorem fstat_archive : exists booted opened, boot (Kernel.loaded Store.blank archiveSectors fun _ => 0#8) (fun _ => 0#8) = some booted ∧
    fopen booted [forwardSlash, 0x41#8] [0x72#8] = some (1, opened) ∧ (fstat opened 1 0x1FF000#32).1 = 0 ∧
      EntryApart (entryPointer opened 1) 0x1FF000#32 ∧ ¬ Describes opened 1 0x1FF000#32 := by
  have ends : RootEnds ⟨archiveSectors, fun _ => 0#8⟩ (archiveSectors 0) 1 := ⟨⟨by decide, by decide⟩, by decide, by decide⟩
  rcases @onlyFile_opens archiveSectors (fun _ => 0#8) (by decide) (by decide) (by decide) ends (by decide) [0x41#8]
    (by decide) (by decide) (by decide) (by decide) (by decide) with ⟨booted, opened, boots, opens, _, room, just⟩
  have returns := fstat_openFile just.openFile 0x1FF000#32
  have apart := just.entryApart room.kernelHeap (show (0x1FF000#32 : Word).toNat + 32 ≤ 0x01000000 by decide)
  refine ⟨booted, opened, boots, opens, returns, apart, fun describes => ?_⟩
  have slot : forall place, place < slotSize -> slotAt opened (entryPointer opened 1) place =
      (storedRoot ⟨archiveSectors, fun _ => 0#8⟩ (archiveSectors 0)).slots 0 place := just.slot
  have nonzero : forall place, place < 12 ->
      (storedRoot ⟨archiveSectors, fun _ => 0#8⟩ (archiveSectors 0)).slots 0 place ≠ 0#8 := by decide
  have size : slotSize = 32 := rfl
  have name : FirstNul (slotAt opened (entryPointer opened 1)) 0 12 := by
    refine ⟨(slot 12 (by decide)).trans (by decide), fun i below => ?_⟩
    rw [Nat.zero_add, slot i (by omega)]
    exact nonzero i below
  have ext : FirstNul (slotAt opened (entryPointer opened 1)) 8 4 := by
    refine ⟨(slot 12 (by decide)).trans (by decide), fun i below => ?_⟩
    rw [slot (8 + i) (by omega)]
    exact nonzero (8 + i) (by omega)
  have start : entryPointer opened 1 + BitVec.ofNat 32 0 = entryPointer opened 1 := BitVec.add_zero _
  have nameEnds := name.endsAt rfl
  rw [start] at nameEnds
  rcases fstat_regular returns with ⟨file, result⟩
  have content := fat16Stat_content 0x1FF000#32 file rfl apart nameEnds (ext.endsAt rfl) (by decide) (by decide)
  have holds := describes.holds
  rw [result] at holds
  have fits := (statHolds_iff name ext (by decide)).mp (holds.congr fun place within => (content.struct place within).symm)
  have attributes := slot 11 (by decide)
  have readOnly : slotAt opened (entryPointer opened 1) 11 &&& FAT_FILE_READ_ONLY ≠ 0#8 := by
    rw [attributes]
    decide
  have both := (fits.attributes readOnly).2 fun nul => absurd ((ext.nulIn_iff 3).mp nul) (by decide)
  rw [attributes] at both
  exact absurd both (by decide)

end Fs
end LarvaOS
