import LarvaOS.Core.FileRead
import LarvaOS.Library.Leases
import LarvaOS.Library.Run
import LarvaOS.Memory.Allocations

namespace LarvaOS
namespace Core

open Fs Library Memory

/-!
# Strings

An object of `lava::string` is a pointer to an array of its own, which the constructors
allocate and the destructor releases.  A string that has been moved from holds `NULL`; it
may be assigned to, and its destructor has nothing to release.

`operator=` releases the array before it allocates the new one, and takes the length of the
text once more behind the copy.  The text may even be that of the string itself, as long as
the array is a single block: it is still there, and the heap hands the same block out again
or one beside it.
-/

/-! ## The class -/

/-- `string::string(const string &)`, for the array of the source. -/
def copyString (kernel : Kernel) (source : Word) : Word × Kernel :=
  let (str, kernel) := kmalloc kernel (BitVec.ofNat 32 (strlen kernel source + 1))
  let kernel := strcpy kernel str source
  (str, storeBytes kernel (str + BitVec.ofNat 32 (strlen kernel source)) [0#8])

/-- `string::operator=`. -/
def assignString (kernel : Kernel) (str val : Word) : Word × Kernel :=
  stringOf (if str ≠ 0#32 then kfree kernel str else kernel) val

/-- `string::~string`.  A `delete[]` of `NULL` calls no `operator delete[]`. -/
def destroyString (kernel : Kernel) (str : Word) : Kernel := if str ≠ 0#32 then kfree kernel str else kernel

/-- The kernel, and the pointers of the objects that there are. -/
structure Strings where
  kernel : Kernel
  str : Nat -> Option Word

namespace Strings

variable (strings : Strings)

def pointer (name : Nat) : Word := (strings.str name).getD 0#32

/-- The object gets the pointer that a call returns. -/
def given (name : Nat) (made : Word × Kernel) : Strings := ⟨made.2, Function.update strings.str name (some made.1)⟩

end Strings

inductive StringCall where
  | make (name : Nat)
  | makeOf (name : Nat) (val : Word)
  | copy (name source : Nat)
  | move (name source : Nat)
  | assign (name : Nat) (val : Word)
  | destroy (name : Nat)

/-- One call: a constructor, `operator=` or the destructor. -/
def StringCall.run (strings : Strings) : StringCall -> Strings
  | .make name => strings.given name (emptyString strings.kernel)
  | .makeOf name val => strings.given name (stringOf strings.kernel val)
  | .copy name source => strings.given name (copyString strings.kernel (strings.pointer source))
  | .move name source =>
      ⟨strings.kernel, Function.update (Function.update strings.str source (some 0#32)) name (some (strings.pointer source))⟩
  | .assign name val => strings.given name (assignString strings.kernel (strings.pointer name) val)
  | .destroy name => ⟨destroyString strings.kernel (strings.pointer name), Function.update strings.str name none⟩

/-! ## What the objects stand for -/

/-- The text that a `const char *` argument stands for. -/
def textAt (kernel : Kernel) (val : Word) : List Byte := if val = 0#32 then [] else cString kernel.bytes (2 ^ 32) val

/-- The text of each object, and nothing for one that has been moved from. -/
abbrev Values := Nat -> Option (Option (List Byte))

/-- What a call is meant to do. -/
def StringCall.value (values : Values) (text : Word -> List Byte) : StringCall -> Values
  | .make name => Function.update values name (some (some []))
  | .makeOf name val => Function.update values name (some (some (text val)))
  | .copy name source => Function.update values name (values source)
  | .move name source => Function.update (Function.update values source (some none)) name (values source)
  | .assign name val => Function.update values name (some (some (text val)))
  | .destroy name => Function.update values name none

/-- The objects with what they stand for. -/
structure StringSession where
  strings : Strings
  values : Values

def StringSession.step (session : StringSession) (call : StringCall) : StringSession :=
  ⟨call.run session.strings, call.value session.values (textAt session.strings.kernel)⟩

/-- No object. -/
def StringSession.start (kernel : Kernel) : StringSession := ⟨⟨kernel, fun _ => none⟩, fun _ => none⟩

/-- The address is not in a free block. -/
def Settled (heap : Heap) (address : Word) : Prop :=
  forall block, block < heap.table.total.toNat -> BlockFree heap.table.entries block ->
    ¬ heap.InExtent (Extent.single block) address

/-- Room for a text. -/
def Room (heap : Heap) (text : List Byte) : Prop :=
  text.length + 1 < 2 ^ 32 ∧ (malloc heap (BitVec.ofNat 32 (text.length + 1))).1 ≠ 0#32

/-- No byte of the text is in a free block. -/
def TextSettled (kernel : Kernel) (heap : Heap) (val : Word) : Prop :=
  val ≠ 0#32 -> forall place, place ≤ (textAt kernel val).length -> Settled heap (val + BitVec.ofNat 32 place)

/-- What is expected of a call.  A new object has a new name; a text is not in free memory,
which the array of the object itself is in `operator=`, unless the text is that of the
object and the array a single block. -/
def StringLegal (session : StringSession) : StringCall -> Prop
  | .make name => session.values name = none ∧ Room session.strings.kernel.heap []
  | .makeOf name val =>
      session.values name = none ∧ Room session.strings.kernel.heap (textAt session.strings.kernel val) ∧
        TextSettled session.strings.kernel session.strings.kernel.heap val
  | .copy name source =>
      session.values name = none ∧ exists text, session.values source = some (some text) ∧
        Room session.strings.kernel.heap text
  | .move name source => session.values name = none ∧ session.values source ≠ none
  | .assign name val =>
      let left := if session.strings.pointer name ≠ 0#32 then kfree session.strings.kernel (session.strings.pointer name)
        else session.strings.kernel
      session.values name ≠ none ∧ Room left.heap (textAt session.strings.kernel val) ∧
        (TextSettled session.strings.kernel left.heap val ∨
          val = session.strings.pointer name ∧ (textAt session.strings.kernel val).length < heapBlockSizeBytes)
  | .destroy name => session.values name ≠ none

/-! ## A text in memory -/

/-- The text lies at the address, and ends there. -/
structure HoldsText (bytes : Word -> Byte) (address : Word) (text : List Byte) : Prop where
  ends : EndsAt bytes address text.length
  content : text = (List.range text.length).map fun place => bytes (address + BitVec.ofNat 32 place)

namespace HoldsText

variable {bytes after : Word -> Byte} {address : Word} {text : List Byte}

theorem cString (holds : HoldsText bytes address text) (small : text.length ≤ 2 ^ 32) :
    Fs.cString bytes (2 ^ 32) address = text := (holds.ends.text small).trans holds.content.symm

theorem congr {address' : Word} (holds : HoldsText bytes address text)
    (same : forall place, place ≤ text.length ->
      after (address' + BitVec.ofNat 32 place) = bytes (address + BitVec.ofNat 32 place)) :
    HoldsText after address' text where
  ends := by
    refine ⟨(same _ (Nat.le_refl _)).trans holds.ends.null, fun place below => ?_⟩
    rw [same place (Nat.le_of_lt below)]
    exact holds.ends.before place below
  content := by
    refine holds.content.trans (List.map_congr_left fun place member => ?_)
    exact (same place (Nat.le_of_lt (List.mem_range.mp member))).symm

end HoldsText

theorem mem_cString {bytes : Word -> Byte} {address : Word} (length : Nat) {c : Byte}
    (member : c ∈ cString bytes length address) : c ≠ 0#8 := by
  induction length generalizing address with
  | zero => exact absurd member List.not_mem_nil
  | succ length inductionHypothesis =>
      rw [cString] at member
      by_cases null : bytes address = 0#8
      · rw [if_pos null] at member
        exact absurd member List.not_mem_nil
      · rw [if_neg null] at member
        cases List.mem_cons.mp member with
        | inl here => exact here ▸ null
        | inr later => exact inductionHypothesis later

/-- A C string that is shorter than the memory. -/
theorem holdsText_cString {bytes : Word -> Byte} {address : Word}
    (short : (cString bytes (2 ^ 32) address).length < 2 ^ 32) :
    HoldsText bytes address (cString bytes (2 ^ 32) address) := by
  have ends : EndsAt bytes address (cString bytes (2 ^ 32) address).length := by
    refine ⟨cString_null _ short, fun place below => ?_⟩
    exact mem_cString _ (List.mem_of_getElem? (cString_getElem _ below))
  exact ⟨ends, ends.text (Nat.le_of_lt short)⟩

/-- A text that does not lie in free memory is not where the heap makes room. -/
theorem Settled.not_inExtent {heap : Heap} {address size : Word} {extent : Extent} (settled : Settled heap address)
    (hands : heap.Hands size extent) : ¬ heap.InExtent extent address := by
  intro inside
  have within := hands.within
  have free := hands.fits.2
  rw [← hands.count] at free
  unfold Settled Heap.InExtent heapBlockSizeBytes at *
  have block : (address.toNat - heap.startAddress.toNat) / 4096 < extent.first + extent.count := by omega
  refine settled ((address.toNat - heap.startAddress.toNat) / 4096) (by omega) (free _ (by omega) block) ?_
  change heap.startAddress.toNat + 4096 * ((address.toNat - heap.startAddress.toNat) / 4096) ≤ _ ∧
    _ < heap.startAddress.toNat + 4096 * ((address.toNat - heap.startAddress.toNat) / 4096 + 1)
  omega

/-! ## A new array -/

/-- The kernel has made an array for a text, and changed nothing else. -/
structure Made (kernel : Kernel) (text : List Byte) (extent : Extent) (made : Word × Kernel) : Prop where
  hands : kernel.heap.Hands (BitVec.ofNat 32 (text.length + 1)) extent
  pointer : made.1 = kernel.heap.addressOf extent.first
  heap : made.2.heap = kernel.heap.withEntries (markExtent kernel.heap.table.entries extent)
  text : HoldsText made.2.bytes made.1 text
  others : forall address, ¬ kernel.heap.InExtent extent address -> made.2.bytes address = kernel.bytes address

/-- A text lies apart from an extent, or where it begins. -/
def ApartOrSame (heap : Heap) (extent : Extent) (address : Word) (text : List Byte) : Prop :=
  (forall place, place ≤ text.length -> ¬ heap.InExtent extent (address + BitVec.ofNat 32 place)) ∨
    address = heap.addressOf extent.first

/-- There is an extent for a text that there is room for. -/
theorem Room.hands {kernel : Kernel} (placed : kernel.heap.WellPlaced) {text : List Byte} (room : Room kernel.heap text) :
    exists extent, kernel.heap.Hands (BitVec.ofNat 32 (text.length + 1)) extent ∧
      malloc kernel.heap (BitVec.ofNat 32 (text.length + 1)) = (kernel.heap.addressOf extent.first,
        kernel.heap.withEntries (markExtent kernel.heap.table.entries extent)) := by
  rcases malloc_spec placed (BitVec.ofNat 32 (text.length + 1)) with ⟨extent, nonzero, count, fits, lowest, result⟩ | ⟨_, refused⟩
  · exact ⟨extent, ⟨nonzero, count, fits, lowest⟩, result⟩
  · exact absurd (congrArg Prod.fst refused) room.2

section Making

variable {kernel : Kernel} {text : List Byte} {extent : Extent} (placed : kernel.heap.WellPlaced)
  (small : text.length + 1 < 2 ^ 32) (hands : kernel.heap.Hands (BitVec.ofNat 32 (text.length + 1)) extent)
  (result : malloc kernel.heap (BitVec.ofNat 32 (text.length + 1)) = (kernel.heap.addressOf extent.first,
    kernel.heap.withEntries (markExtent kernel.heap.table.entries extent)))
include placed small hands result

/-- The copy of a text that lies apart from the new array, or where the array will be. -/
theorem copyString_made {source : Word} (holds : HoldsText kernel.bytes source text)
    (apart : ApartOrSame kernel.heap extent source text) : Made kernel text extent (copyString kernel source) := by
  have length : strlen kernel source = text.length := holds.ends.length (by omega)
  have count : (BitVec.ofNat 32 (text.length + 1)).toNat = text.length + 1 := by
    rw [BitVec.toNat_ofNat]
    omega
  have inside : forall address, (address - kernel.heap.addressOf extent.first).toNat < text.length + 1 ->
      kernel.heap.InExtent extent address := by
    intro address below
    exact placed.inExtent_of_lt hands (by rw [count]; exact below)
  unfold copyString
  rw [length]
  dsimp only
  have pointer : (kmalloc kernel (BitVec.ofNat 32 (text.length + 1))).1 = kernel.heap.addressOf extent.first :=
    congrArg Prod.fst result
  have heap : (kmalloc kernel (BitVec.ofNat 32 (text.length + 1))).2.heap =
      kernel.heap.withEntries (markExtent kernel.heap.table.entries extent) := congrArg Prod.snd result
  have bytes : (kmalloc kernel (BitVec.ofNat 32 (text.length + 1))).2.bytes = kernel.bytes := rfl
  generalize kmalloc kernel (BitVec.ofNat 32 (text.length + 1)) = array at pointer heap bytes
  unfold ApartOrSame at apart
  rw [← pointer] at inside apart
  rw [← bytes] at holds
  have copied := strcpy_fills array.1 holds.ends (by omega)
  have copiedHeap : (strcpy array.2 array.1 source).heap = array.2.heap := rfl
  generalize strcpy array.2 array.1 source = copy at copied copiedHeap
  -- the length is taken again, of the source behind the copy
  have kept : HoldsText copy.bytes source text := by
    refine holds.congr fun place below => ?_
    cases apart with
    | inl apart => exact copied.outside _ (Nat.not_lt.mp fun covered => apart place below (inside _ covered))
    | inr same =>
        rw [same]
        exact (copied.inside place (Nat.lt_succ_of_le below)).trans (congrArg (fun address => array.2.bytes (address + _)) same)
  have again : strlen copy source = text.length := kept.ends.length (by omega)
  rw [again]
  have stored : forall address, (storeBytes copy (array.1 + BitVec.ofNat 32 text.length) [0#8]).bytes address = copy.bytes address := by
    intro address
    rw [storeBytes_bytes]
    cases place : (address - (array.1 + BitVec.ofNat 32 text.length)).toNat with
    | zero =>
        have here : array.1 + BitVec.ofNat 32 text.length = address := by
          have reached := add_offset (array.1 + BitVec.ofNat 32 text.length) address
          rwa [place, BitVec.add_zero] at reached
        rw [← here, copied.inside text.length (Nat.lt_succ_self _), holds.ends.null]
        rfl
    | succ place => rfl
  refine ⟨hands, pointer, copiedHeap.trans heap, ?_, fun address outside => ?_⟩
  · refine holds.congr fun place below => ?_
    rw [stored]
    exact copied.inside place (Nat.lt_succ_of_le below)
  · rw [stored, copied.outside address (Nat.not_lt.mp fun covered => outside (inside address covered)), bytes]

end Making

/-- An array for no text. -/
theorem emptyString_made {kernel : Kernel} (placed : kernel.heap.WellPlaced) (room : Room kernel.heap []) :
    exists extent, Made kernel [] extent (emptyString kernel) := by
  rcases room.hands placed with ⟨extent, hands, result⟩
  have heap : (kmalloc kernel 1#32).2.heap = kernel.heap.withEntries (markExtent kernel.heap.table.entries extent) :=
    congrArg Prod.snd result
  have pointer : (kmalloc kernel 1#32).1 = kernel.heap.addressOf extent.first := congrArg Prod.fst result
  have bytes : (kmalloc kernel 1#32).2.bytes = kernel.bytes := rfl
  unfold emptyString
  dsimp only
  generalize kmalloc kernel 1#32 = array at heap pointer bytes
  have null : (storeBytes array.2 array.1 [0#8]).bytes array.1 = 0#8 := by
    rw [storeBytes_bytes, BitVec.sub_self]
    rfl
  refine ⟨extent, hands, pointer, heap, ⟨⟨?_, fun place below => absurd below (Nat.not_lt_zero _)⟩, rfl⟩,
    fun address outside => ?_⟩
  · rw [List.length_nil, BitVec.add_zero]
    exact null
  · rw [storeBytes_bytes, ← bytes, List.getElem?_eq_none]
    · rfl
    · refine Nat.not_lt.mp fun covered => outside ?_
      rw [pointer] at covered
      exact placed.inExtent_of_lt hands covered

/-- The array of `string::string(const char *)`. -/
theorem stringOf_made {kernel : Kernel} (placed : kernel.heap.WellPlaced) {val : Word}
    (room : Room kernel.heap (textAt kernel val))
    (apart : val ≠ 0#32 -> forall extent, kernel.heap.Hands (BitVec.ofNat 32 ((textAt kernel val).length + 1)) extent ->
      ApartOrSame kernel.heap extent val (textAt kernel val)) : exists extent, Made kernel (textAt kernel val) extent (stringOf kernel val) := by
  unfold textAt stringOf at *
  by_cases null : val = 0#32
  · simp only [if_pos null] at room ⊢
    exact emptyString_made placed room
  · simp only [if_neg null] at room apart ⊢
    rcases room.hands placed with ⟨extent, hands, result⟩
    have short : (cString kernel.bytes (2 ^ 32) val).length < 2 ^ 32 := Nat.lt_of_succ_lt room.1
    exact ⟨extent, copyString_made placed room.1 hands result (holdsText_cString short) (apart null extent hands)⟩

/-! ## Objects and their arrays -/

/-- A value that an update has not given. -/
theorem ne_of_update {values : Values} {name other : Nat} {given value : Option (Option (List Byte))}
    (here : Function.update values name given other = value) (differs : given ≠ value) : other ≠ name := by
  rintro rfl
  rw [Function.update_self] at here
  exact differs here

/-- The object has an array with its text. -/
structure HasArray (strings : Strings) (name : Nat) (text : List Byte) (extent : Extent) : Prop where
  str : strings.str name = some (strings.kernel.heap.addressOf extent.first)
  count : extent.count = blocksFor (BitVec.ofNat 32 (text.length + 1))
  small : text.length + 1 < 2 ^ 32
  holds : HoldsText strings.kernel.bytes (strings.kernel.heap.addressOf extent.first) text

/-- The objects hold exactly the arrays of their texts. -/
structure Live (first : Kernel) (session : StringSession) (held : Nat -> Option Extent) : Prop where
  pool : first.heap.SamePool session.strings.kernel.heap
  leases : Leases heapMarks first.heap.table.total.toNat first.heap.blocks session.strings.kernel.heap.blocks held
  array : forall name text, session.values name = some (some text) ->
    exists extent, held name = some extent ∧ HasArray session.strings name text extent
  moved : forall name, session.values name = some none -> session.strings.str name = some 0#32 ∧ held name = none
  absent : forall name, session.values name = none -> session.strings.str name = none ∧ held name = none

section Arrays

variable {strings : Strings} {name : Nat} {text : List Byte} {extent : Extent}

theorem HasArray.pointer (has : HasArray strings name text extent) :
    strings.pointer name = strings.kernel.heap.addressOf extent.first := by
  rw [Strings.pointer, has.str]
  rfl

/-- The text lies in the extent. -/
theorem HasArray.inside (has : HasArray strings name text extent) (placed : strings.kernel.heap.WellPlaced)
    (owned : strings.kernel.heap.Owns extent) {place : Nat} (below : place ≤ text.length) :
    strings.kernel.heap.InExtent extent (strings.kernel.heap.addressOf extent.first + BitVec.ofNat 32 place) := by
  have small := has.small
  have count := has.count
  refine placed.inExtent_of_page owned ?_
  rw [offset_toNat _ (by omega)]
  have size : (BitVec.ofNat 32 (text.length + 1)).toNat = text.length + 1 := by
    rw [BitVec.toNat_ofNat]
    omega
  unfold blocksFor at count
  rw [size] at count
  unfold heapBlockSizeBytes
  omega

end Arrays

namespace Live

variable {first : Kernel} {session : StringSession} {held : Nat -> Option Extent} (live : Live first session held)
  (kernelHeap : first.heap.IsKernelHeap)
include live

theorem owns {name : Nat} {extent : Extent} (holds : held name = some extent) : session.strings.kernel.heap.Owns extent where
  recorded := live.leases.recorded name extent holds
  within := by
    rw [live.pool.total]
    exact live.leases.within name extent holds

theorem moved_pointer {name : Nat} (value : session.values name = some none) : session.strings.pointer name = 0#32 := by
  rw [Strings.pointer, (live.moved name value).1]
  rfl

include kernelHeap

theorem placed : session.strings.kernel.heap.WellPlaced := live.pool.wellPlaced kernelHeap.wellPlaced

theorem pointer_ne_null {name : Nat} {text : List Byte} {extent : Extent} (holds : held name = some extent)
    (has : HasArray session.strings name text extent) : session.strings.pointer name ≠ 0#32 := by
  rw [has.pointer]
  exact (live.placed kernelHeap).addressOf_ne_null (live.owns holds).address_inside

/-- A new array for a name without one. -/
theorem given (encoded : first.heap.Encoded) {name : Nat} (unheld : held name = none) {text : List Byte} {extent : Extent}
    (small : text.length + 1 < 2 ^ 32) {made : Word × Kernel} (isMade : Made session.strings.kernel text extent made) :
    Live first ⟨session.strings.given name made, Function.update session.values name (some (some text))⟩
      (Function.update held name (some extent)) := by
  have placed := live.placed kernelHeap
  have address : forall block, made.2.heap.addressOf block = session.strings.kernel.heap.addressOf block := by
    intro block
    rw [isMade.heap]
    rfl
  rcases encoded with ⟨extents, encodes⟩
  refine ⟨?_, ?_, fun other text' value => ?_, fun other value => ?_, fun other value => ?_⟩
  · change first.heap.SamePool made.2.heap
    rw [isMade.heap]
    exact ⟨live.pool.start, live.pool.total⟩
  · change Leases heapMarks _ _ made.2.heap.blocks _
    have fits : extent.first + extent.count ≤ first.heap.table.total.toNat := by
      rw [← live.pool.total]
      exact isMade.hands.within
    have free := isMade.hands.fits.2
    rw [← isMade.hands.count] at free
    refine live.leases.take (fun cell inside => encodes.blank_of_free inside) unheld fits free ?_ ?_
    · intro cell covered
      rw [isMade.heap]
      exact markExtent_of_covers _ covered
    · intro cell uncovered
      rw [isMade.heap]
      exact markExtent_of_not_covers _ uncovered
  · dsimp only at value
    by_cases here : other = name
    · subst here
      rw [Function.update_self] at value
      cases value
      refine ⟨extent, Function.update_self _ _ _, ?_, isMade.hands.count, small, ?_⟩
      · exact (Function.update_self _ _ _).trans (congrArg some (isMade.pointer.trans (address _).symm))
      · change HoldsText made.2.bytes (made.2.heap.addressOf extent.first) text
        rw [address, ← isMade.pointer]
        exact isMade.text
    · rw [Function.update_of_ne here] at value ⊢
      rcases live.array other text' value with ⟨extent', holds, has⟩
      have owned := live.owns holds
      refine ⟨extent', holds, (Function.update_of_ne here _ _).trans (has.str.trans (congrArg some (address _).symm)), has.count,
        has.small, ?_⟩
      change HoldsText made.2.bytes (made.2.heap.addressOf extent'.first) text'
      rw [address]
      refine has.holds.congr fun place below => isMade.others _ ?_
      exact Heap.not_inExtent_of_apart (isMade.hands.apart owned) (has.inside placed owned below)
  · dsimp only at value
    have there := ne_of_update value fun same => nomatch same
    rw [Function.update_of_ne there] at value ⊢
    exact ⟨(Function.update_of_ne there _ _).trans (live.moved other value).1, (live.moved other value).2⟩
  · dsimp only at value
    have there := ne_of_update value fun same => nomatch same
    rw [Function.update_of_ne there] at value ⊢
    exact ⟨(Function.update_of_ne there _ _).trans (live.absent other value).1, (live.absent other value).2⟩

/-- An array is released. -/
theorem released {name : Nat} {text : List Byte} {extent : Extent} (holds : held name = some extent)
    (has : HasArray session.strings name text extent) :
    Live first
      ⟨⟨kfree session.strings.kernel (session.strings.pointer name), Function.update session.strings.str name none⟩,
        Function.update session.values name none⟩
      (Function.update held name none) := by
  have owned := live.owns holds
  have cleared := free_spec (live.placed kernelHeap) extent owned.recorded owned.within
    ((kernelHeap.samePool live.pool).low owned.address_inside)
  have heap : (kfree session.strings.kernel (session.strings.pointer name)).heap =
      session.strings.kernel.heap.withEntries (clearExtent session.strings.kernel.heap.table.entries extent) := by
    rw [has.pointer]
    exact cleared
  have bytes : (kfree session.strings.kernel (session.strings.pointer name)).bytes = session.strings.kernel.bytes := rfl
  generalize kfree session.strings.kernel (session.strings.pointer name) = after at heap bytes
  have address : forall block, after.heap.addressOf block = session.strings.kernel.heap.addressOf block := by
    intro block
    rw [heap]
    rfl
  refine ⟨?_, ?_, fun other text' value => ?_, fun other value => ?_, fun other value => ?_⟩
  · change first.heap.SamePool after.heap
    rw [heap]
    exact ⟨live.pool.start, live.pool.total⟩
  · change Leases heapMarks _ _ after.heap.blocks _
    rw [heap]
    exact live.leases.giveBack holds (fun _ covered => clearExtent_of_covers _ covered)
      fun _ uncovered => clearExtent_of_not_covers _ uncovered
  · dsimp only at value
    have there := ne_of_update value fun same => nomatch same
    rw [Function.update_of_ne there] at value ⊢
    rcases live.array other text' value with ⟨extent', holds', has'⟩
    refine ⟨extent', holds', (Function.update_of_ne there _ _).trans (has'.str.trans (congrArg some (address _).symm)),
      has'.count, has'.small, ?_⟩
    change HoldsText after.bytes (after.heap.addressOf extent'.first) text'
    rw [address, bytes]
    exact has'.holds
  · dsimp only at value
    have there := ne_of_update value fun same => nomatch same
    rw [Function.update_of_ne there] at value ⊢
    exact ⟨(Function.update_of_ne there _ _).trans (live.moved other value).1, (live.moved other value).2⟩
  · dsimp only at value
    by_cases here : other = name
    · subst here
      exact ⟨Function.update_self _ _ _, Function.update_self _ _ _⟩
    · rw [Function.update_of_ne here] at value ⊢
      exact ⟨(Function.update_of_ne here _ _).trans (live.absent other value).1, (live.absent other value).2⟩

omit kernelHeap in
/-- An object without an array goes. -/
theorem removed {name : Nat} (value : session.values name = some none) :
    Live first ⟨⟨session.strings.kernel, Function.update session.strings.str name none⟩, Function.update session.values name none⟩
      held := by
  refine ⟨live.pool, live.leases, fun other text value => ?_, fun other value => ?_, fun other gone => ?_⟩
  · dsimp only at value
    have there := ne_of_update value fun same => nomatch same
    rw [Function.update_of_ne there] at value
    rcases live.array other text value with ⟨extent, holds, has⟩
    exact ⟨extent, holds, (Function.update_of_ne there _ _).trans has.str, has.count, has.small, has.holds⟩
  · dsimp only at value
    have there := ne_of_update value fun same => nomatch same
    rw [Function.update_of_ne there] at value
    exact ⟨(Function.update_of_ne there _ _).trans (live.moved other value).1, (live.moved other value).2⟩
  · dsimp only at gone ⊢
    by_cases here : other = name
    · subst here
      exact ⟨Function.update_self _ _ _, (live.moved other value).2⟩
    · rw [Function.update_of_ne here] at gone ⊢
      exact live.absent other gone

omit kernelHeap in
/-- A pointer moves from one object to another. -/
theorem handed {name source : Nat} (new : session.values name = none) (old : session.values source ≠ none) :
    Live first (session.step (.move name source))
      (Function.update (Function.update held source none) name (held source)) := by
  have different : name ≠ source := by
    rintro rfl
    exact old new
  have unheld := (live.absent name new).2
  refine ⟨live.pool, live.leases.handOn unheld different, fun other text value => ?_, fun other value => ?_,
    fun other value => ?_⟩
  · change Function.update (Function.update session.values source (some none)) name (session.values source) other = _ at value
    by_cases here : other = name
    · subst here
      rw [Function.update_self] at value
      rcases live.array source text value with ⟨extent, holds, has⟩
      refine ⟨extent, (Function.update_self _ _ _).trans holds, ?_, has.count, has.small, has.holds⟩
      exact (Function.update_self _ _ _).trans (congrArg some has.pointer)
    · rw [Function.update_of_ne here] at value
      have there := ne_of_update value fun same => nomatch same
      rw [Function.update_of_ne there] at value
      rcases live.array other text value with ⟨extent, holds, has⟩
      refine ⟨extent, ?_, ?_, has.count, has.small, has.holds⟩
      · rw [Function.update_of_ne here, Function.update_of_ne there]
        exact holds
      · exact (Function.update_of_ne here _ _).trans ((Function.update_of_ne there _ _).trans has.str)
  · change Function.update (Function.update session.values source (some none)) name (session.values source) other = _ at value
    change Function.update (Function.update session.strings.str source (some 0#32)) name (some (session.strings.pointer source))
      other = _ ∧ _
    by_cases here : other = name
    · subst here
      rw [Function.update_self] at value
      rw [Function.update_self, Function.update_self, Strings.pointer, (live.moved source value).1]
      exact ⟨rfl, (live.moved source value).2⟩
    · rw [Function.update_of_ne here] at value
      rw [Function.update_of_ne here, Function.update_of_ne here]
      by_cases there : other = source
      · subst there
        exact ⟨Function.update_self _ _ _, Function.update_self _ _ _⟩
      · rw [Function.update_of_ne there] at value
        rw [Function.update_of_ne there, Function.update_of_ne there]
        exact live.moved other value
  · change Function.update (Function.update session.values source (some none)) name (session.values source) other = _ at value
    change Function.update (Function.update session.strings.str source (some 0#32)) name (some (session.strings.pointer source))
      other = _ ∧ _
    have here := ne_of_update value old
    rw [Function.update_of_ne here] at value
    have there := ne_of_update value fun same => nomatch same
    rw [Function.update_of_ne there] at value
    rw [Function.update_of_ne here, Function.update_of_ne here, Function.update_of_ne there, Function.update_of_ne there]
    exact live.absent other value

/-- A text that lies in the array of the object itself is still there when the array has been
released, and the new array is the same block or one apart from it. -/
theorem own_apart {name : Nat} {text : List Byte} {extent : Extent} (holds : held name = some extent)
    (has : HasArray session.strings name text extent) (short : text.length < heapBlockSizeBytes) {left : Kernel}
    {fresh : Extent} (hands : left.heap.Hands (BitVec.ofNat 32 (text.length + 1)) fresh)
    (pool : session.strings.kernel.heap.SamePool left.heap) :
    ApartOrSame left.heap fresh (session.strings.pointer name) text := by
  have owned := live.owns holds
  have placed := live.placed kernelHeap
  have one : blocksFor (BitVec.ofNat 32 (text.length + 1)) = 1 := by
    have size : (BitVec.ofNat 32 (text.length + 1)).toNat = text.length + 1 := by
      rw [BitVec.toNat_ofNat]
      unfold heapBlockSizeBytes at short
      omega
    unfold blocksFor heapBlockSizeBytes at *
    rw [size]
    omega
  have count := has.count.trans one
  have count' := hands.count.trans one
  rw [has.pointer]
  by_cases same : extent.first = fresh.first
  · right
    rw [same]
    exact (pool.addressOf fresh.first).symm
  · left
    intro place below
    have apart : extent.Apart fresh := by
      unfold Extent.Apart
      omega
    exact Heap.not_inExtent_of_apart apart (pool.inExtent.mpr (has.inside placed owned below))

end Live

/-! ## Sessions -/

/-- The objects hold the arrays of their texts. -/
def LiveSession (first : Kernel) (session : StringSession) : Prop := exists held, Live first session held

section Steps

variable {first : Kernel} {session : StringSession} {held : Nat -> Option Extent} (live : Live first session held)
  (kernelHeap : first.heap.IsKernelHeap) (encoded : first.heap.Encoded) {name : Nat} {val : Word}
  (legal : StringLegal session (.assign name val))
include live kernelHeap encoded legal

/-- An assignment to an object that has been moved from. -/
theorem Live.assigned_moved (value : session.values name = some none) :
    LiveSession first (session.step (.assign name val)) := by
  rcases legal with ⟨_, room, apart⟩
  have unheld := (live.moved name value).2
  have pointer := live.moved_pointer value
  have same : assignString session.strings.kernel (session.strings.pointer name) val =
      stringOf session.strings.kernel val := by
    rw [assignString, if_neg (not_not.mpr pointer)]
  rw [if_neg (not_not.mpr pointer)] at room apart
  rcases stringOf_made (live.placed kernelHeap) room (fun notNull extent hands => Or.inl fun place below => by
    cases apart with
    | inl settled => exact (settled notNull place below).not_inExtent hands
    | inr own => exact absurd (own.1.trans pointer) notNull) with ⟨extent, made⟩
  rw [← same] at made
  exact ⟨_, live.given kernelHeap encoded unheld room.1 made⟩

/-- An assignment to an object with an array, which is released first. -/
theorem Live.assigned_array {text : List Byte} (value : session.values name = some (some text)) :
    LiveSession first (session.step (.assign name val)) := by
  rcases legal with ⟨_, room, apart⟩
  rcases live.array name text value with ⟨extent, holds, has⟩
  have pointer := live.pointer_ne_null kernelHeap holds has
  have same : assignString session.strings.kernel (session.strings.pointer name) val =
      stringOf (kfree session.strings.kernel (session.strings.pointer name)) val := by
    rw [assignString, if_pos pointer]
  rw [if_pos pointer] at room apart
  have released := live.released kernelHeap holds has
  have apartLeft : val ≠ 0#32 -> forall fresh,
      (kfree session.strings.kernel (session.strings.pointer name)).heap.Hands
        (BitVec.ofNat 32 ((textAt session.strings.kernel val).length + 1)) fresh ->
      ApartOrSame (kfree session.strings.kernel (session.strings.pointer name)).heap fresh val
        (textAt session.strings.kernel val) := by
    intro notNull fresh hands
    cases apart with
    | inl settled => exact Or.inl fun place below => (settled notNull place below).not_inExtent hands
    | inr own =>
        rcases own with ⟨rfl, short⟩
        have own : textAt session.strings.kernel (session.strings.pointer name) = text := by
          rw [textAt, if_neg notNull, has.pointer]
          exact has.holds.cString (Nat.le_of_lt (Nat.lt_of_succ_lt has.small))
        rw [own] at short hands ⊢
        exact live.own_apart kernelHeap holds has short hands ⟨rfl, rfl⟩
  rcases @stringOf_made (kfree session.strings.kernel (session.strings.pointer name)) (released.placed kernelHeap) val room
    apartLeft with ⟨fresh, made⟩
  have assigned := released.given kernelHeap encoded (Function.update_self _ _ _) room.1 made
  unfold Strings.given at assigned
  dsimp only at assigned
  rw [Function.update_idem, Function.update_idem, ← same] at assigned
  exact ⟨_, assigned⟩

end Steps

/-- One call. -/
theorem LiveSession.step {first : Kernel} {session : StringSession} (kernelHeap : first.heap.IsKernelHeap)
    (encoded : first.heap.Encoded) (alive : LiveSession first session) {call : StringCall}
    (legal : StringLegal session call) : LiveSession first (session.step call) := by
  rcases alive with ⟨held, live⟩
  have placed := live.placed kernelHeap
  cases call with
  | make name =>
      rcases emptyString_made placed legal.2 with ⟨extent, made⟩
      exact ⟨_, live.given kernelHeap encoded (live.absent name legal.1).2 legal.2.1 made⟩
  | makeOf name val =>
      rcases stringOf_made placed legal.2.1 fun notNull extent hands =>
        Or.inl fun place below => (legal.2.2 notNull place below).not_inExtent hands with ⟨extent, made⟩
      exact ⟨_, live.given kernelHeap encoded (live.absent name legal.1).2 legal.2.1.1 made⟩
  | copy name source =>
      rcases legal with ⟨new, text, value, room⟩
      rcases live.array source text value with ⟨old, holds, has⟩
      rcases room.hands placed with ⟨extent, hands, result⟩
      have owned := live.owns holds
      have made : Made session.strings.kernel text extent (copyString session.strings.kernel (session.strings.pointer source)) := by
        rw [has.pointer]
        refine copyString_made placed room.1 hands result has.holds (Or.inl fun place below => ?_)
        exact Heap.not_inExtent_of_apart (hands.apart owned) (has.inside placed owned below)
      have copied := live.given kernelHeap encoded (live.absent name new).2 room.1 made
      rw [← value] at copied
      exact ⟨_, copied⟩
  | move name source => exact ⟨_, live.handed legal.1 legal.2⟩
  | destroy name =>
      change LiveSession first ⟨⟨destroyString _ (session.strings.pointer name), _⟩, _⟩
      cases value : session.values name with
      | none => exact absurd value legal
      | some content =>
          cases content with
          | none =>
              rw [live.moved_pointer value, destroyString, if_neg (not_not_intro rfl)]
              exact ⟨_, live.removed value⟩
          | some text =>
              rcases live.array name text value with ⟨extent, holds, has⟩
              rw [destroyString, if_pos (live.pointer_ne_null kernelHeap holds has)]
              exact ⟨_, live.released kernelHeap holds has⟩
  | assign name val =>
      cases value : session.values name with
      | none => exact absurd value legal.1
      | some content =>
          cases content with
          | none => exact live.assigned_moved kernelHeap encoded legal value
          | some text => exact live.assigned_array kernelHeap encoded legal value

/-- Every object stands for its text, in memory that it shares with no other; and when
there is none left, the entries of the heap are those from the beginning. -/
structure StringsStand (first : Kernel) (session : StringSession) : Prop where
  texts : forall name text, session.values name = some (some text) ->
    cString session.strings.kernel.bytes (2 ^ 32) (session.strings.pointer name) = text
  moved : forall name, session.values name = some none -> session.strings.str name = some 0#32
  apart : forall name other text text', session.values name = some (some text) ->
    session.values other = some (some text') -> name ≠ other ->
      forall place, place ≤ text.length -> forall place', place' ≤ text'.length ->
        session.strings.pointer name + BitVec.ofNat 32 place ≠ session.strings.pointer other + BitVec.ofNat 32 place'
  restored : (forall name text, session.values name ≠ some (some text)) -> SameEntries first session.strings.kernel

theorem LiveSession.stand {first : Kernel} {session : StringSession} (kernelHeap : first.heap.IsKernelHeap)
    (alive : LiveSession first session) : StringsStand first session := by
  rcases alive with ⟨held, live⟩
  have placed := live.placed kernelHeap
  refine ⟨fun name text value => ?_, fun name value => (live.moved name value).1,
    fun name other text text' value value' different => ?_, fun none block inside => ?_⟩
  · rcases live.array name text value with ⟨extent, _, has⟩
    rw [has.pointer]
    exact has.holds.cString (Nat.le_of_lt (Nat.lt_of_succ_lt has.small))
  · rcases live.array name text value with ⟨extent, holds, has⟩
    rcases live.array other text' value' with ⟨extent', holds', has'⟩
    rw [has.pointer, has'.pointer]
    intro place below place' below' same
    have here := has.inside placed (live.owns holds) below
    have there := has'.inside placed (live.owns holds') below'
    rw [← same] at there
    exact Heap.not_inExtent_of_apart (live.leases.apart name other extent extent' holds holds' different) here there
  · refine live.leases.restored (fun name => ?_) inside
    cases value : session.values name with
    | none => exact (live.absent name value).2
    | some content =>
        cases content with
        | none => exact (live.moved name value).2
        | some text => exact absurd value (none name text)

theorem LiveSession.start (kernel : Kernel) : LiveSession kernel (.start kernel) := by
  refine ⟨fun _ => none, Heap.SamePool.refl _, Leases.start _, fun name text value => ?_, fun name value => ?_,
    fun name _ => ⟨rfl, rfl⟩⟩
  · exact nomatch value
  · exact nomatch value

/-- Whatever happens to strings, as long as there is room for their texts: each of them is
the text that it was given, whether by a constructor, from another string or by an
assignment; and what they have allocated goes with them. -/
theorem strings_stand {kernel : Kernel} (kernelHeap : kernel.heap.IsKernelHeap) (encoded : kernel.heap.Encoded)
    (calls : List StringCall) (legal : Run.Everywhere StringSession.step StringLegal (.start kernel) calls) :
    Run.Throughout StringSession.step (StringsStand kernel) (.start kernel) calls := by
  exact Run.throughout_of_invariant (fun _ alive => LiveSession.stand kernelHeap alive)
    (fun _ _ alive legal => LiveSession.step kernelHeap encoded alive legal) _ calls
    (LiveSession.start kernel) legal

/-! ## A session -/

/-- There is room behind the blocks that are taken. -/
theorem room_of_freeFrom {kernel : Kernel} (placed : kernel.heap.WellPlaced) {first : Nat}
    (free : kernel.heap.FreeFrom first) (inside : first < kernel.heap.table.total.toNat) {text : List Byte}
    (short : text.length < heapBlockSizeBytes) :
    Room kernel.heap text ∧ (malloc kernel.heap (BitVec.ofNat 32 (text.length + 1))).2.FreeFrom (first + 1) := by
  unfold heapBlockSizeBytes at short
  have size : (BitVec.ofNat 32 (text.length + 1)).toNat = text.length + 1 := by
    rw [BitVec.toNat_ofNat]
    omega
  have one : blocksFor (BitVec.ofNat 32 (text.length + 1)) = 1 := by
    rw [blocksFor, size]
    omega
  have nonzero : BitVec.ofNat 32 (text.length + 1) ≠ 0#32 := by
    intro zero
    rw [zero] at size
    exact absurd size (Nat.succ_ne_zero _).symm
  have served := kzalloc_freeFrom placed (BitVec.ofNat 32 (text.length + 1)) nonzero free (by rw [one]; exact inside)
  rw [kzalloc_pointer, kzalloc_heap, one] at served
  exact ⟨⟨by omega, served.1⟩, served.2⟩

/-- An `H` at the first megabyte. -/
def letterKernel : Kernel :=
  kheapInit
    (Kernel.loaded { Store.blank with bytes := fun address => if address = 0x100000#32 then 0x48#8 else 0#8 }
      (fun _ _ => 0#8) fun _ => 0#8)
    fun _ => 0#8

theorem letterKernel_text : textAt letterKernel 0x100000#32 = [0x48#8] := by
  have ends : EndsAt letterKernel.bytes 0x100000#32 1 := by
    refine ⟨rfl, fun place below => ?_⟩
    obtain rfl := Nat.lt_one_iff.mp below
    decide
  exact (if_neg (by decide)).trans (ends.text (by decide))

/-- A string that moves to another one and is assigned to, and moves once more. -/
def letterCalls : List StringCall :=
  [.makeOf 0 0x100000#32, .move 1 0, .assign 0 0#32, .move 2 0, .destroy 0, .destroy 1, .destroy 2]

theorem letterCalls_legal : Run.Everywhere StringSession.step StringLegal (.start letterKernel) letterCalls := by
  have kernelHeap : letterKernel.heap.IsKernelHeap := kheapInit_isKernelHeap _ _
  have encoded : letterKernel.heap.Encoded := kheapInit_encoded _ _
  have placed := kernelHeap.wellPlaced
  have short : [0x48#8].length < heapBlockSizeBytes := by decide
  have blocks : forall heap : Heap, letterKernel.heap.SamePool heap -> heap.table.total.toNat = 25600 := by
    intro heap pool
    rw [pool.total, kernelHeap.total]
    rfl
  -- the first string
  have room := room_of_freeFrom placed (kheapInit_freeFrom _ _) (by rw [blocks _ (Heap.SamePool.refl _)]; decide) short
  have legal : StringLegal (.start letterKernel) (.makeOf 0 0x100000#32) := by
    refine ⟨rfl, ?_, fun _ place below block _ _ inside => ?_⟩
    · change Room letterKernel.heap (textAt letterKernel 0x100000#32)
      rw [letterKernel_text]
      exact room.1
    · change place ≤ (textAt letterKernel 0x100000#32).length at below
      rw [letterKernel_text, List.length_singleton] at below
      have lower := inside.1
      change letterKernel.heap.startAddress.toNat + _ ≤ _ at lower
      have start : letterKernel.heap.startAddress.toNat = 0x01000000 := by rw [kernelHeap.start]; rfl
      rw [start, BitVec.toNat_add, BitVec.toNat_ofNat, BitVec.toNat_ofNat] at lower
      omega
  have alive := (LiveSession.start letterKernel).step kernelHeap encoded legal
  have value : ((StringSession.start letterKernel).step (.makeOf 0 0x100000#32)).values 0 = some (some [0x48#8]) := by
    change some (some (textAt letterKernel 0x100000#32)) = _
    rw [letterKernel_text]
  have fresh : ((StringSession.start letterKernel).step (.makeOf 0 0x100000#32)).values 1 = none := rfl
  have third : ((StringSession.start letterKernel).step (.makeOf 0 0x100000#32)).values 2 = none := rfl
  have free : ((StringSession.start letterKernel).step (.makeOf 0 0x100000#32)).strings.kernel.heap.FreeFrom 1 := by
    have length : strlen letterKernel 0x100000#32 = 1 := congrArg List.length letterKernel_text
    have heap : (stringOf letterKernel 0x100000#32).2.heap =
        (malloc letterKernel.heap (BitVec.ofNat 32 (strlen letterKernel 0x100000#32 + 1))).2 := by
      rw [stringOf, if_neg (by decide)]
      rfl
    change (stringOf letterKernel 0x100000#32).2.heap.FreeFrom 1
    rw [heap, length]
    exact room.2
  refine ⟨legal, ?_⟩
  generalize (StringSession.start letterKernel).step (.makeOf 0 0x100000#32) = session at alive value fresh third free
  -- it moves
  have legal' : StringLegal session (.move 1 0) := by
    refine ⟨fresh, ?_⟩
    rw [value]
    exact Option.some_ne_none _
  refine ⟨legal', ?_⟩
  have alive' := alive.step kernelHeap encoded legal'
  have left : (session.step (.move 1 0)).values 0 = some none := rfl
  have moved : (session.step (.move 1 0)).values 1 = some (some [0x48#8]) := value
  have null : (session.step (.move 1 0)).strings.pointer 0 = 0#32 := rfl
  have fresh' : (session.step (.move 1 0)).values 2 = none := third
  have free' : (session.step (.move 1 0)).strings.kernel.heap.FreeFrom 1 := free
  generalize session.step (.move 1 0) = session' at alive' left moved null fresh' free'
  -- what it has left is assigned to
  have legal'' : StringLegal session' (.assign 0 0#32) := by
    have empty : ([] : List Byte).length < heapBlockSizeBytes := by decide
    rcases alive' with ⟨held, live⟩
    refine ⟨?_, ?_, Or.inl fun nonzero => absurd rfl nonzero⟩
    · rw [left]
      exact Option.some_ne_none _
    · rw [null, if_neg (not_not_intro rfl)]
      refine (room_of_freeFrom (live.placed kernelHeap) free' ?_ empty).1
      rw [blocks _ live.pool]
      decide
  refine ⟨legal'', ?_⟩
  have given : (session'.step (.assign 0 0#32)).values 0 ≠ none := (Option.some_ne_none _)
  have kept : (session'.step (.assign 0 0#32)).values 1 ≠ none := fun absent => nomatch moved.symm.trans absent
  have absent : (session'.step (.assign 0 0#32)).values 2 = none := fresh'
  generalize session'.step (.assign 0 0#32) = session'' at given kept absent
  exact ⟨⟨absent, given⟩, Option.some_ne_none _, kept, given, trivial⟩

theorem strings_stand_letter :
    Run.Throughout StringSession.step (StringsStand letterKernel) (.start letterKernel) letterCalls :=
  strings_stand (kheapInit_isKernelHeap _ _) (kheapInit_encoded _ _) letterCalls letterCalls_legal

end Core
end LarvaOS
