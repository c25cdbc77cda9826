import LarvaOS.Fs.Fat16Directory
import LarvaOS.Fs.PathParser
import LarvaOS.Libc.CharArray

namespace LarvaOS
namespace Fs

open Libc

/-!
# Names of directory entries

The two fields of an entry are decoded into one array, with a cursor that the second
field goes on from.  A field without padding ends by its width, and the bound is
checked behind the copy, before the next byte is read.

The name is the one that the search compares, and the two fields can be told from it
as long as neither holds a dot.
-/

/-! ## Decoding -/

/-- The array that a name is decoded into, the cursor, and the bytes of the entry that
were read. -/
structure NameDecoding where
  out : CharArray
  outTmp : Nat
  reads : List Nat

/-- `*outTmp++ = c`. -/
def NameDecoding.push (decoding : NameDecoding) (c : Byte) : NameDecoding :=
  { decoding with out := decoding.out.put decoding.outTmp c, outTmp := decoding.outTmp + 1 }

/-- `**out = 0x00`. -/
def NameDecoding.terminate (decoding : NameDecoding) : NameDecoding :=
  { decoding with out := decoding.out.put decoding.outTmp 0#8 }

def NameDecoding.read (decoding : NameDecoding) (place : Nat) : NameDecoding :=
  { decoding with reads := place :: decoding.reads }

/-- The loop of `fat16_to_proper_string`, for a number of rounds.  `input` is the place
of `in` within the entry. -/
def properStringLoop (item : Slot) (size : Nat) : Nat -> NameDecoding -> Nat -> Nat -> Option NameDecoding
  | 0, _, _, _ => none
  | rounds + 1, decoding, input, i =>
      let decoding := decoding.read input
      if item input ≠ 0x00#8 ∧ item input ≠ 0x20#8 then
        let decoding := (decoding.read input).push (item input)
        if size - 1 ≤ i then some decoding else properStringLoop item size rounds decoding (input + 1) (i + 1)
      else some decoding

/-- `fat16_to_proper_string`, on a field of an entry. -/
def toProperString (item : Slot) (decoding : NameDecoding) (input size : Nat) : Option NameDecoding :=
  (properStringLoop item size size decoding input 0).map NameDecoding.terminate

/-- `memset` with zero. -/
def clearArray (out : CharArray) : Nat -> CharArray
  | 0 => out
  | size + 1 => (clearArray out size).put size 0#8

/-- `fat16_get_full_relative_filename`, with the array that it writes. -/
def getFullRelativeFilename (item : Slot) (out : Nat -> Byte) (maxLen : Nat) : Option NameDecoding :=
  (toProperString item ⟨clearArray ⟨out, []⟩ maxLen, 0, []⟩ 0 8).bind fun decoding =>
    let decoding := decoding.read 8
    if item 8 ≠ 0x00#8 ∧ item 8 ≠ 0x20#8 then toProperString item (decoding.push 0x2E#8) 8 3 else some decoding

/-! ## What is decoded -/

/-- The bytes of an entry from a place on. -/
def Slot.bytesFrom (item : Slot) (input size : Nat) : List Byte := (List.range size).map fun place => item (input + place)

theorem Slot.bytesFrom_succ (item : Slot) (input size : Nat) :
    item.bytesFrom input (size + 1) = item input :: item.bytesFrom (input + 1) size := by
  rw [Slot.bytesFrom, List.range_succ_eq_map, List.map_cons, List.map_map]
  refine congrArg (item input :: ·) (List.map_congr_left fun place _ => ?_)
  exact congrArg item (by simp only [Nat.succ_eq_add_one]; omega)

/-- What decoding a field has done: the array holds the string from the cursor on, and
no byte outside the field was read. -/
structure Decodes (string : List Byte) (input size : Nat) (decoding after : NameDecoding) : Prop where
  cursor : after.outTmp = decoding.outTmp + string.length
  holds : HoldsAt after.out.chars decoding.outTmp string
  stored : StoresFrom string.length decoding.outTmp decoding.out after.out
  reads : forall place, place ∈ after.reads -> place ∈ decoding.reads ∨ input ≤ place ∧ place < input + size

/-- A byte that goes on the name is read, copied, and followed by the rest of the field. -/
theorem Decodes.cons {string : List Byte} {input size : Nat} {decoding after : NameDecoding} {c : Byte}
    (rest : Decodes string (input + 1) size (((decoding.read input).read input).push c) after) :
    Decodes (c :: string) input (size + 1) decoding after where
  cursor := by
    rw [rest.cursor, List.length_cons]
    exact (Nat.add_assoc decoding.outTmp 1 string.length).trans (congrArg _ (Nat.add_comm 1 string.length))
  holds := by
    refine holdsAt_cons.mpr ⟨?_, rest.holds⟩
    exact (rest.stored.kept decoding.outTmp (Nat.lt_succ_self _)).trans (Function.update_self _ _ _)
  stored := by
    rw [List.length_cons, Nat.add_comm]
    exact (StoresFrom.put decoding.out decoding.outTmp c).trans rest.stored
  reads := by
    intro place member
    rcases rest.reads place member with earlier | inside
    · rcases List.mem_cons.mp earlier with here | earlier
      · exact Or.inr (by omega)
      rcases List.mem_cons.mp earlier with here | earlier
      · exact Or.inr (by omega)
      · exact Or.inl earlier
    · exact Or.inr (by omega)

/-- Nothing is copied once the first byte has been read. -/
theorem Decodes.stop (decoding : NameDecoding) (input size : Nat) :
    Decodes [] input (size + 1) decoding (decoding.read input) where
  cursor := rfl
  holds := fun _ _ found => absurd found (by simp)
  stored := ⟨fun _ member => Or.inl member, fun _ _ => rfl⟩
  reads := by
    intro place member
    rcases List.mem_cons.mp member with here | earlier
    · exact Or.inr (by omega)
    · exact Or.inl earlier

theorem Decodes.nothing (decoding : NameDecoding) (input : Nat) : Decodes [] input 0 decoding decoding where
  cursor := rfl
  holds := fun _ _ found => absurd found (by simp)
  stored := ⟨fun _ member => Or.inl member, fun _ _ => rfl⟩
  reads := fun _ member => Or.inl member

theorem fat16ToProperString_cons (c : Byte) (field : List Byte) :
    fat16ToProperString (c :: field) = if c ≠ 0x00#8 ∧ c ≠ 0x20#8 then c :: fat16ToProperString field else [] := by
  unfold fat16ToProperString
  by_cases goesOn : c ≠ 0x00#8 ∧ c ≠ 0x20#8
  · rw [if_pos goesOn, List.takeWhile_cons_of_pos (by exact decide_eq_true goesOn)]
  · rw [if_neg goesOn, List.takeWhile_cons_of_neg (by rw [decide_eq_true_iff]; exact goesOn)]

/-- The loop copies the bytes before the padding, and reads none behind the field. -/
theorem properStringLoop_decodes (item : Slot) {size left i : Nat} (decoding : NameDecoding) (input : Nat)
    (bound : i + (left + 1) = size) :
    exists after, properStringLoop item size (left + 1) decoding input i = some after ∧
      Decodes (fat16ToProperString (item.bytesFrom input (left + 1))) input (left + 1) decoding after := by
  induction left generalizing decoding input i with
  | zero =>
      rw [properStringLoop, Slot.bytesFrom_succ, fat16ToProperString_cons]
      by_cases goesOn : item input ≠ 0x00#8 ∧ item input ≠ 0x20#8
      · have last : size - 1 ≤ i := by omega
        rw [if_pos goesOn, if_pos goesOn, if_pos last]
        exact ⟨_, rfl, Decodes.cons (Decodes.nothing _ _)⟩
      · rw [if_neg goesOn, if_neg goesOn]
        exact ⟨_, rfl, Decodes.stop decoding input 0⟩
  | succ left inductionHypothesis =>
      rw [properStringLoop, Slot.bytesFrom_succ, fat16ToProperString_cons]
      by_cases goesOn : item input ≠ 0x00#8 ∧ item input ≠ 0x20#8
      · have more : ¬ size - 1 ≤ i := by omega
        rw [if_pos goesOn, if_pos goesOn, if_neg more]
        rcases @inductionHypothesis (i + 1) (((decoding.read input).read input).push (item input)) (input + 1) (by omega)
          with ⟨after, made, decodes⟩
        exact ⟨after, made, decodes.cons⟩
      · rw [if_neg goesOn, if_neg goesOn]
        exact ⟨_, rfl, Decodes.stop decoding input (left + 1)⟩

/-- What a decoding holds, with the NUL behind it. -/
structure Terminated (string : List Byte) (start : Nat) (decoding after : NameDecoding) : Prop where
  cursor : after.outTmp = start + string.length
  holds : HoldsAt after.out.chars start (string ++ [0#8])
  stored : StoresFrom (string.length + 1) start decoding.out after.out

/-- `fat16_to_proper_string` decodes a field and ends it with a NUL. -/
theorem toProperString_decodes (item : Slot) (decoding : NameDecoding) (input left : Nat) :
    exists after, toProperString item decoding input (left + 1) = some after ∧
      Terminated (fat16ToProperString (item.bytesFrom input (left + 1))) decoding.outTmp decoding after ∧
      forall place, place ∈ after.reads -> place ∈ decoding.reads ∨ input ≤ place ∧ place < input + (left + 1) := by
  rcases properStringLoop_decodes item decoding input (Nat.zero_add (left + 1)) with ⟨after, made, decodes⟩
  generalize fat16ToProperString (item.bytesFrom input (left + 1)) = string at decodes ⊢
  have put := StoresFrom.put after.out after.outTmp 0#8
  refine ⟨after.terminate, ?_, ⟨decodes.cursor, ?_, ?_⟩, decodes.reads⟩
  · rw [toProperString, made]
    rfl
  · refine holdsAt_append.mpr ⟨fun place c found => ?_, holdsAt_cons.mpr ⟨?_, fun _ _ found => absurd found (by simp)⟩⟩
    · have inside := (List.getElem?_eq_some_iff.mp found).1
      refine (put.kept _ ?_).trans (decodes.holds place c found)
      rw [decodes.cursor]
      exact Nat.add_lt_add_left inside _
    · rw [← decodes.cursor]
      exact Function.update_self _ _ _
  · refine decodes.stored.trans ?_
    rw [← decodes.cursor]
    exact put

theorem clearArray_stores (out : CharArray) (size : Nat) :
    forall index, index ∈ (clearArray out size).stores -> index ∈ out.stores ∨ index < size := by
  induction size with
  | zero => exact fun _ member => Or.inl member
  | succ size inductionHypothesis =>
      intro index member
      rcases List.mem_cons.mp member with here | earlier
      · exact Or.inr (here ▸ Nat.lt_succ_self size)
      · exact (inductionHypothesis index earlier).imp id Nat.lt_succ_of_lt

theorem Slot.filename_eq (item : Slot) : item.filename = item.bytesFrom 0 8 :=
  List.map_congr_left fun place _ => congrArg item (Nat.zero_add place).symm

theorem Slot.ext_eq (item : Slot) : item.ext = item.bytesFrom 8 3 := rfl

theorem fat16ToProperString_length (item : Slot) (input size : Nat) :
    (fat16ToProperString (item.bytesFrom input size)).length ≤ size := by
  have bound := (List.takeWhile_prefix (l := item.bytesFrom input size)
    fun c => decide (c ≠ 0x00#8 ∧ c ≠ 0x20#8)).length_le
  rwa [Slot.bytesFrom, List.length_map, List.length_range] at bound

/-- The array holds the name and a NUL, nothing is stored outside it, and only the two
fields of the entry are read. -/
structure HoldsName (name : List Byte) (maxLen : Nat) (decoding : NameDecoding) : Prop where
  holds : HoldsAt decoding.out.chars 0 (name ++ [0#8])
  stores : forall index, index ∈ decoding.out.stores -> index < maxLen
  reads : forall place, place ∈ decoding.reads -> place < 11

/-- The array holds the name that the search compares, for every entry. -/
theorem getFullRelativeFilename_holds (item : Slot) (out : Nat -> Byte) {maxLen : Nat} (room : 13 ≤ maxLen) :
    exists after, getFullRelativeFilename item out maxLen = some after ∧
      HoldsName (fat16GetFullRelativeFilename item) maxLen after := by
  have cleared := clearArray_stores ⟨out, []⟩ maxLen
  generalize start : clearArray ⟨out, []⟩ maxLen = empty at cleared
  rcases toProperString_decodes item ⟨empty, 0, []⟩ 0 7 with ⟨base, madeBase, decodedBase, readsBase⟩
  have lengthBase := fat16ToProperString_length item 0 8
  have lengthExt := fat16ToProperString_length item 8 3
  rw [getFullRelativeFilename, start, madeBase, Option.bind_some, fat16GetFullRelativeFilename, Slot.filename_eq,
    Slot.ext_eq]
  have storesBase : forall index, index ∈ base.out.stores -> index < maxLen := by
    intro index member
    rcases decodedBase.stored.stores index member with earlier | below
    · exact (cleared index earlier).resolve_left List.not_mem_nil
    · change index < 0 + ((fat16ToProperString (item.bytesFrom 0 8)).length + 1) at below
      omega
  have readsField : forall place, place ∈ (base.read 8).reads -> place < 11 := by
    intro place member
    rcases List.mem_cons.mp member with here | earlier
    · omega
    · rcases readsBase place earlier with nothing | inside
      · exact absurd nothing List.not_mem_nil
      · omega
  generalize fat16ToProperString (item.bytesFrom 0 8) = first at decodedBase lengthBase ⊢
  by_cases extended : item 8 ≠ 0x00#8 ∧ item 8 ≠ 0x20#8
  · rw [if_pos extended, if_pos extended]
    rcases toProperString_decodes item ((base.read 8).push 0x2E#8) 8 2 with ⟨after, made, decoded, reads⟩
    generalize fat16ToProperString (item.bytesFrom 8 3) = later at decoded lengthExt ⊢
    have cursor : base.outTmp = first.length := decodedBase.cursor.trans (Nat.zero_add _)
    have dot := StoresFrom.put base.out base.outTmp 0x2E#8
    have stored : StoresFrom (1 + (later.length + 1)) base.outTmp base.out after.out := dot.trans decoded.stored
    refine ⟨after, made, ?_, ?_, ?_⟩
    · rw [List.append_assoc, holdsAt_append, Nat.zero_add, List.cons_append, holdsAt_cons, ← cursor]
      refine ⟨fun place c found => ?_, ?_, decoded.holds⟩
      · have inside := (List.getElem?_eq_some_iff.mp found).1
        rw [Nat.zero_add]
        refine (stored.kept place (by omega)).trans ?_
        have held := (holdsAt_append.mp decodedBase.holds).1 place c found
        rwa [Nat.zero_add] at held
      · exact (decoded.stored.kept base.outTmp (Nat.lt_succ_self _)).trans (Function.update_self _ _ _)
    · intro index member
      rcases stored.stores index member with earlier | below
      · exact storesBase index earlier
      · omega
    · intro place member
      rcases reads place member with earlier | inside
      · exact readsField place earlier
      · omega
  · rw [if_neg extended, if_neg extended, List.append_nil]
    exact ⟨base.read 8, rfl, decodedBase.holds, storesBase, readsField⟩

/-! ## Names as pairs -/

/-- A base, and an extension behind a dot. -/
def relativeName (base ext : List Byte) : List Byte := base ++ if ext = [] then [] else 0x2E#8 :: ext

/-- The entry stores a base and an extension, padded with spaces. -/
structure StoresName (base ext : List Byte) (item : Slot) : Prop where
  baseLength : 1 ≤ base.length ∧ base.length ≤ 8
  extLength : ext.length ≤ 3
  plainBase : forall c, c ∈ base -> c ≠ 0x00#8 ∧ c ≠ 0x20#8 ∧ c ≠ 0x2E#8
  plainExt : forall c, c ∈ ext -> c ≠ 0x00#8 ∧ c ≠ 0x20#8 ∧ c ≠ 0x2E#8
  filename : item.filename = base ++ List.replicate (8 - base.length) 0x20#8
  ext : item.ext = ext ++ List.replicate (3 - ext.length) 0x20#8

/-- A padded field is decoded to what it stores. -/
theorem fat16ToProperString_padded {field : List Byte} (plain : forall c, c ∈ field -> c ≠ 0x00#8 ∧ c ≠ 0x20#8 ∧ c ≠ 0x2E#8)
    (padding : Nat) : fat16ToProperString (field ++ List.replicate padding 0x20#8) = field := by
  induction field with
  | nil =>
      cases padding with
      | zero => rfl
      | succ padding => rfl
  | cons c field inductionHypothesis =>
      have first := plain c List.mem_cons_self
      rw [List.cons_append, fat16ToProperString_cons, if_pos ⟨first.1, first.2.1⟩]
      exact congrArg (c :: ·) (inductionHypothesis fun c' member => plain c' (List.mem_cons_of_mem c member))

theorem StoresName.decodes {base ext : List Byte} {item : Slot} (stores : StoresName base ext item) :
    fat16GetFullRelativeFilename item = relativeName base ext := by
  rw [fat16GetFullRelativeFilename, relativeName, stores.filename, stores.ext,
    fat16ToProperString_padded stores.plainBase, fat16ToProperString_padded stores.plainExt]
  refine congrArg (base ++ ·) ?_
  have fields : [item 8, item 9, item 10] = ext ++ List.replicate (3 - ext.length) 0x20#8 := stores.ext
  cases ext with
  | nil =>
      have padding : item 8 = 0x20#8 := (List.cons.inj fields).1
      rw [if_pos rfl, if_neg fun extended => extended.2 padding]
  | cons c ext =>
      have first : item 8 = c := (List.cons.inj fields).1
      have plain := stores.plainExt c List.mem_cons_self
      rw [if_neg (List.cons_ne_nil c ext), first, if_pos ⟨plain.1, plain.2.1⟩]

/-- A base without a dot and the extension can be told from the name. -/
theorem relativeName_eq_iff {base1 base2 ext1 ext2 : List Byte} (plain1 : 0x2E#8 ∉ base1) (plain2 : 0x2E#8 ∉ base2) :
    relativeName base1 ext1 = relativeName base2 ext2 ↔ base1 = base2 ∧ ext1 = ext2 := by
  have base : forall {base : List Byte} (ext : List Byte), 0x2E#8 ∉ base ->
      (relativeName base ext).takeWhile (fun c => c ≠ 0x2E#8) = base := by
    intro base ext plain
    have all : forall c, c ∈ base -> decide (c ≠ 0x2E#8) = true :=
      fun c member => decide_eq_true fun dot => plain (dot ▸ member)
    rw [relativeName, List.takeWhile_append_of_pos all]
    by_cases none : ext = []
    · rw [if_pos none, List.takeWhile_nil, List.append_nil]
    · rw [if_neg none, List.takeWhile_cons_of_neg (by decide), List.append_nil]
  constructor
  · intro same
    have sameBase : base1 = base2 := by
      rw [← base ext1 plain1, same, base ext2 plain2]
    refine ⟨sameBase, ?_⟩
    rw [sameBase, relativeName, relativeName, List.append_cancel_left_eq] at same
    by_cases none1 : ext1 = []
    · by_cases none2 : ext2 = []
      · rw [none1, none2]
      · rw [if_pos none1, if_neg none2] at same
        exact absurd same.symm (List.cons_ne_nil _ _)
    · by_cases none2 : ext2 = []
      · rw [if_neg none1, if_pos none2] at same
        exact absurd same (List.cons_ne_nil _ _)
      · rw [if_neg none1, if_neg none2] at same
        exact (List.cons.inj same).2
  · rintro ⟨sameBase, sameExt⟩
    rw [sameBase, sameExt]

theorem relativeName_toLower (base ext : List Byte) :
    (relativeName base ext).map toLower = relativeName (base.map toLower) (ext.map toLower) := by
  rw [relativeName, relativeName, List.map_append]
  refine congrArg (base.map toLower ++ ·) ?_
  cases ext with
  | nil => rfl
  | cons c ext => rfl

theorem toLower_eq_dot {c : Byte} : toLower c = 0x2E#8 ↔ c = 0x2E#8 := by
  revert c
  decide

namespace StoresName

variable {base ext : List Byte} {item : Slot}

theorem isString (stores : StoresName base ext item) : IsString (relativeName base ext) := by
  intro member
  rcases List.mem_append.mp member with inBase | inExt
  · exact (stores.plainBase _ inBase).1 rfl
  · by_cases none : ext = []
    · rw [if_pos none] at inExt
      exact List.not_mem_nil inExt
    · rw [if_neg none] at inExt
      rcases List.mem_cons.mp inExt with dot | inExt
      · exact absurd dot (by decide)
      · exact (stores.plainExt _ inExt).1 rfl

theorem noDot (stores : StoresName base ext item) : 0x2E#8 ∉ base.map toLower := by
  intro member
  rcases List.mem_map.mp member with ⟨c, inBase, dot⟩
  exact (stores.plainBase c inBase).2.2 (toLower_eq_dot.mp dot)

end StoresName

/-- The names of two entries compare as equal exactly when their fields do. -/
theorem strcasecmp_relativeName {base1 ext1 base2 ext2 : List Byte} {item1 item2 : Slot}
    (stores1 : StoresName base1 ext1 item1) (stores2 : StoresName base2 ext2 item2) :
    strcasecmp (relativeName base1 ext1) (relativeName base2 ext2) = 0 ↔
      SameIgnoringCase base1 base2 ∧ SameIgnoringCase ext1 ext2 := by
  rw [strcasecmp_eq_zero_iff stores1.isString stores2.isString, SameIgnoringCase, relativeName_toLower,
    relativeName_toLower]
  exact relativeName_eq_iff stores1.noDot stores2.noDot

/-- The decoding of an entry gives a string, in the array that the search compares from. -/
def Produces (item : Slot) (out : Nat -> Byte) (name : List Byte) : Prop :=
  exists decoding, getFullRelativeFilename item out FILESYSTEM_MAX_PATH_LENGTH = some decoding ∧ IsString name ∧
    HoldsName name FILESYSTEM_MAX_PATH_LENGTH decoding

theorem Produces.unique {item : Slot} {out : Nat -> Byte} {name1 name2 : List Byte} (one : Produces item out name1)
    (other : Produces item out name2) : name1 = name2 := by
  rcases one with ⟨decoding, made, string1, holds1⟩
  rcases other with ⟨decoding', made', string2, holds2⟩
  rw [← Option.some.inj (made.symm.trans made')] at holds2
  exact HoldsAt.unique string1 string2 holds1.holds holds2.holds

theorem StoresName.produces {base ext : List Byte} {item : Slot} (stores : StoresName base ext item) (out : Nat -> Byte) :
    Produces item out (relativeName base ext) := by
  rcases @getFullRelativeFilename_holds item out FILESYSTEM_MAX_PATH_LENGTH (by decide) with ⟨decoding, made, holds⟩
  rw [stores.decodes] at holds
  exact ⟨decoding, made, stores.isString, holds⟩

/-- A stored name is decoded exactly, and two entries have names that compare as equal
exactly when their bases and their extensions are equal ignoring case. -/
theorem storedNames_decoded {base1 ext1 base2 ext2 : List Byte} {item1 item2 : Slot} (stores1 : StoresName base1 ext1 item1)
    (stores2 : StoresName base2 ext2 item2) (out1 out2 : Nat -> Byte) :
    Produces item1 out1 (relativeName base1 ext1) ∧
      forall name1 name2, Produces item1 out1 name1 -> Produces item2 out2 name2 ->
        (strcasecmp name1 name2 = 0 ↔ SameIgnoringCase base1 base2 ∧ SameIgnoringCase ext1 ext2) := by
  refine ⟨stores1.produces out1, fun name1 name2 produces1 produces2 => ?_⟩
  rw [produces1.unique (stores1.produces out1), produces2.unique (stores2.produces out2)]
  exact strcasecmp_relativeName stores1 stores2

/-- An entry whose fields are full, and one that is padded. -/
theorem storedNames_decoded_full :
    Produces (fun _ => 0x41#8) (fun _ => 0xFF#8) (relativeName (List.replicate 8 0x41#8) (List.replicate 3 0x41#8)) ∧
      forall name1 name2, Produces (fun _ => 0x41#8) (fun _ => 0xFF#8) name1 ->
        Produces (fun place => if place = 0 then 0x61#8 else 0x20#8) (fun _ => 0xFF#8) name2 ->
        (strcasecmp name1 name2 = 0 ↔ SameIgnoringCase (List.replicate 8 0x41#8) [0x61#8] ∧
          SameIgnoringCase (List.replicate 3 0x41#8) []) :=
  @storedNames_decoded (List.replicate 8 0x41#8) (List.replicate 3 0x41#8) [0x61#8] [] _ _
    ⟨by decide, by decide, by decide, by decide, by decide, by decide⟩
    ⟨by decide, by decide, by decide, by decide, by decide, by decide⟩ _ _

end Fs
end LarvaOS
