import LarvaOS.Core.Files

namespace LarvaOS
namespace Core

open Disk Fs Library Memory

/-!
# Runs of calls on files

The names of the objects, the strings of a moment and what the file system keeps of its
open files have no block in common, whatever is called.  The files that are open are hence
those of the objects that are, each with a number of its own.
-/

/-! ## Calls -/

/-- The objects, with the texts that their names are copies of. -/
structure NamedFiles where
  files : FileObjects
  paths : Nat -> List Byte

/-- The texts after a call. -/
def FileObjectCall.paths (named : NamedFiles) : FileObjectCall -> Nat -> List Byte
  | .construct name filename _ _ => Function.update named.paths name (textAt named.files.kernel filename)
  | _ => named.paths

/-- One step, which is over when a call does not return. -/
def filesStep (state : Option NamedFiles) (call : FileObjectCall) : Option NamedFiles :=
  state.bind fun named => (call.run named.files).map fun files => ⟨files, call.paths named⟩

/-- No object. -/
def NamedFiles.start (kernel : Kernel) : NamedFiles := ⟨⟨kernel, fun _ => none⟩, fun _ => []⟩

/-- The stores lie in the name of no object. -/
def SparesNames (named : NamedFiles) (stores : Word -> Prop) : Prop :=
  forall name file, named.files.objects name = some file -> forall place, place ≤ (named.paths name).length ->
    ¬ stores (file.name + BitVec.ofNat 32 place)

/-- What is expected when a file is opened.  It is left with allocations of its own, a slot
before the last is free and its descriptor is served; and the status that is stored for it
spares the names. -/
structure OpenLegal (named : NamedFiles) (file : FileObject) (kernel : Kernel) (path : List Byte) : Prop where
  apart : OpensApart kernel (.fopen path (modeLiteral file.mode))
  accepted : OpensAccepted kernel (.fopen path (modeLiteral file.mode))
  status : forall opened, fopen kernel path (modeLiteral file.mode) = some opened -> 0 < opened.1 ->
    SparesNames named ((FileCall.fstat opened.1 file.stat).StoresTo opened.2)

/-- What is expected when a file is read: the buffer spares the names, and there is room
for a string of what was read. -/
structure ReadLegal (named : NamedFiles) (fd : Int) (buf size nmemb : Word) : Prop where
  spares : SparesNames named ((FileCall.fread fd buf size nmemb).StoresTo named.files.kernel)
  notNull : buf ≠ 0#32
  string : forall res, fread named.files.kernel fd buf size nmemb = some res -> 0 ≤ res.1 ->
    Room res.2.heap (textAt res.2 buf) ∧ TextSettled res.2 res.2.heap buf

/-- What is expected of a call.  A new object has a new name, and the others are there. -/
def FileObjectLegal (named : NamedFiles) : FileObjectCall -> Prop
  | .construct name filename _ _ =>
      named.files.objects name = none ∧ filename ≠ 0#32 ∧
        Room named.files.kernel.heap (textAt named.files.kernel filename) ∧
          TextSettled named.files.kernel named.files.kernel.heap filename
  | .openFile name => exists file, named.files.objects name = some file ∧
      (¬ file.isOpen -> OpenLegal named file (modeString named.files.kernel file.mode).2 (named.paths name))
  | .read name buf size nmemb => exists file, named.files.objects name = some file ∧
      (file.isOpen -> ReadLegal named file.fd buf size nmemb)
  | .seekg name _ _ => named.files.objects name ≠ none
  | .close name => named.files.objects name ≠ none
  | .destroy name => named.files.objects name ≠ none

/-- Every object that is open has a number of its own and has been opened for reading, no
file is open besides, and the names are what they were. -/
structure FilesStand (named : NamedFiles) : Prop where
  opened : forall name file, named.files.objects name = some file -> file.isOpen ->
    getFileDescriptor named.files.kernel file.fd ≠ 0#32 ∧ file.mode = .read
  distinct : forall name other file file', named.files.objects name = some file -> named.files.objects other = some file' ->
    name ≠ other -> file.isOpen -> file.fd ≠ file'.fd
  only : forall fd, getFileDescriptor named.files.kernel fd ≠ 0#32 ->
    exists name file, named.files.objects name = some file ∧ file.isOpen ∧ file.fd = fd
  names : forall name file, named.files.objects name = some file ->
    cString named.files.kernel.bytes (2 ^ 32) file.name = named.paths name

/-! ## Steps -/

section Strings

variable {kernel : Kernel} {text : List Byte} {extent : Extent} {made : Word × Kernel}

/-- An array that was made is new. -/
theorem Made.acquired (isMade : Made kernel text extent made) : Acquired (fun _ => True) kernel made.2 made.1 extent where
  owned := isMade.heap ▸ Heap.owns_marked isMade.hands.within
  address := by
    rw [isMade.heap]
    exact isMade.pointer
  fresh := isMade.hands.freshExtent

/-- The array of a string. -/
theorem Made.temporary (isMade : Made kernel text extent made) {size : Word}
    (transferred : Transferred (kmalloc kernel size).2 made.2) : Temporary kernel made where
  keeps := by
    refine ⟨?_, fun old _ owned => ?_, fun old _ owned address inside => ?_⟩
    · rw [isMade.heap]
      exact ⟨rfl, rfl⟩
    · rw [isMade.heap]
      exact owned.mark (isMade.hands.apart owned)
    · have bytes := isMade.others address (Heap.not_inExtent_of_apart (isMade.hands.apart owned) inside)
      rcases transferred with ⟨_, _, same⟩
      rw [same] at bytes ⊢
      exact ⟨rfl, bytes, rfl, rfl, rfl, rfl, rfl, rfl, rfl⟩
  globals := transferred.toGlobals
  array := Or.inr ⟨extent, isMade.acquired⟩

/-- The array of a name. -/
theorem Made.nameArray (isMade : Made kernel text extent made) (placed : kernel.heap.WellPlaced)
    (small : text.length + 1 < 2 ^ 32) : NameArray made.2 made.1 text extent where
  owned := isMade.acquired.owned
  pointer := isMade.acquired.address
  small := Nat.lt_of_succ_lt small
  holds := isMade.text
  inside := by
    intro place below
    have size : (BitVec.ofNat 32 (text.length + 1)).toNat = text.length + 1 := by
      rw [BitVec.toNat_ofNat]
      exact Nat.mod_eq_of_lt small
    have inside : kernel.heap.InExtent extent (made.1 + BitVec.ofNat 32 place) := by
      refine placed.inExtent_of_lt isMade.hands ?_
      rw [size, isMade.pointer, offset_toNat _ (by omega)]
      exact Nat.lt_succ_of_le below
    rw [isMade.heap]
    exact inside

end Strings

theorem copyString_transferred (kernel : Kernel) (source : Word) :
    exists size, Transferred (kmalloc kernel size).2 (copyString kernel source).2 :=
  ⟨_, ((Transferred.refl _).strcpy _ _).storeBytes _ _⟩

/-- The string of a text in memory. -/
theorem copyString_settled {kernel : Kernel} (placed : kernel.heap.WellPlaced) {source : Word} (notNull : source ≠ 0#32)
    (room : Room kernel.heap (textAt kernel source)) (settled : TextSettled kernel kernel.heap source) :
    exists extent, Made kernel (textAt kernel source) extent (copyString kernel source) ∧
      Temporary kernel (copyString kernel source) := by
  rcases room.hands placed with ⟨extent, hands, result⟩
  have text : textAt kernel source = cString kernel.bytes (2 ^ 32) source := if_neg notNull
  have holds : HoldsText kernel.bytes source (textAt kernel source) := by
    have short := Nat.lt_of_succ_lt room.1
    rw [text] at short ⊢
    exact holdsText_cString short
  have isMade := copyString_made placed room.1 hands result holds
    (Or.inl fun place below => (settled notNull place below).not_inExtent hands)
  rcases copyString_transferred kernel source with ⟨size, transferred⟩
  exact ⟨extent, isMade, isMade.temporary transferred⟩

/-- `copy` of the argument is what the constructor for a `const char *` does. -/
theorem stringOf_eq_copyString {kernel : Kernel} {val : Word} (notNull : val ≠ 0#32) :
    stringOf kernel val = copyString kernel val := if_neg notNull

section Around

variable {booted : Kernel} {volume : Extent} {kernel : Kernel} {files : List (Int × Word)} {extentsOf : Int -> List Extent}
  {spared : Extent -> Prop}

/-- A string that is there while something else happens, and is dropped after it. -/
theorem Temporary.around {made : Word × Kernel} (temporary : Temporary kernel made)
    (spares : Spares booted volume ⟨kernel, files⟩ extentsOf spared) :
    exists also, Spares booted volume ⟨made.2, files⟩ extentsOf also ∧
      forall session later, Spares booted volume session later also -> made.2.heap.SamePool session.kernel.heap ->
        KeepsObjects spared session.kernel (destroyString session.kernel made.1) ∧
          Spares booted volume ⟨destroyString session.kernel made.1, session.files⟩ later spared := by
  unfold destroyString
  rcases temporary.array with null | ⟨array, acquired⟩
  · refine ⟨spared, spares.kept temporary.keeps temporary.globals, fun session later after _ => ?_⟩
    rw [if_neg (not_not_intro null)]
    exact ⟨KeepsObjects.refl _ _, after⟩
  · refine ⟨_, spares.add temporary.keeps temporary.globals acquired, fun session later after pool => ?_⟩
    have placed := (spares.kernelHeap.samePool temporary.keeps.pool).wellPlaced
    have nonNull : made.1 ≠ 0#32 := by
      rw [acquired.address]
      exact placed.addressOf_ne_null acquired.owned.address_inside
    have address : made.1 = session.kernel.heap.addressOf array.first := acquired.address.trans (pool.addressOf _).symm
    have apart : forall extent, spared extent -> extent.Apart array := fun extent member =>
      acquired.fresh extent trivial (spares.owned extent member)
    rw [if_pos nonNull]
    rcases after.released (Or.inr rfl) address with ⟨keeps, released⟩
    exact ⟨keeps.mono apart, released.mono fun extent member => ⟨Or.inl member, apart extent member⟩⟩

variable {objects : Nat -> Option FileObject} {paths : Nat -> List Byte} {arrays : Nat -> Option Extent}

/-- A file is opened, and its status is asked for. -/
theorem Spares.described (spares : Spares booted volume ⟨kernel, files⟩ extentsOf spared)
    (names : Names kernel objects paths arrays) {path mode : List Byte} (apart : OpensApart kernel (.fopen path mode))
    (accepted : OpensAccepted kernel (.fopen path mode)) {opened : Int × Kernel}
    (opens : Fs.fopen kernel path mode = some opened) {stat : Word}
    (status : 0 < opened.1 -> SparesNames ⟨⟨kernel, objects⟩, paths⟩ ((FileCall.fstat opened.1 stat).StoresTo opened.2)) :
    let described := if 0 < opened.1 then (fstat opened.2 opened.1 stat).2 else opened.2
    kernel.heap.SamePool described.heap ∧ Names described objects paths arrays ∧
      exists later, Spares booted volume ⟨described, Session.book ⟨kernel, files⟩ opened.1 (.fopen path mode)⟩ later spared := by
  rcases spares.fopen apart accepted opens with ⟨keeps, later, after⟩
  have namesAfter := names.keep keeps fun _ _ => trivial
  dsimp only
  by_cases positive : 0 < opened.1
  · rw [if_pos positive]
    have transferred := fstat_transferred opened.2 opened.1 stat
    have heap := transferred.heap
    refine ⟨?_, ?_, later, ?_⟩
    · rw [heap]
      exact keeps.pool
    · refine namesAfter.stored heap fun name file here place below => ?_
      exact fstat_kept opened.2 opened.1 stat (status positive name file here place below)
    · exact after.used (SameFiles.of_transferred transferred) transferred.sameVolume
        (congrArg Globals.disk transferred.toGlobals)
  · rw [if_neg positive]
    exact ⟨keeps.pool, namesAfter, later, after⟩

end Around

/-- Only a file that is read from can be opened, and otherwise the number is 0. -/
theorem fopen_numbers {kernel : Kernel} (kernelHeap : kernel.heap.IsKernelHeap) {path mode : List Byte}
    (apart : OpensApart kernel (.fopen path mode)) {opened : Int × Kernel} (opens : fopen kernel path mode = some opened) :
    opened.1 = 0 ∨ 0 < opened.1 ∧ getFileModeByString mode = .read := by
  rcases fopen_outcome kernelHeap apart.1 opens with ⟨zero, _⟩ | ⟨p, slot, attempt, noError, _, rfl⟩
  · exact Or.inl zero
  · refine Or.inr ⟨Int.lt_add_one_of_le (Int.natCast_nonneg slot), ?_⟩
    rcases fopenAttempt_some attempt with ⟨root, next, parsed, _, _, _, opensPath⟩
    by_contra writes
    rw [fat16Open, if_pos writes] at opensPath
    cases opensPath
    rw [isErr_errPtr (by decide) (by decide)] at noError
    cases noError

theorem modeLiteral_reads {mode : OpenFileMode} (reads : getFileModeByString (modeLiteral mode) = .read) : mode = .read := by
  cases mode with
  | read => rfl
  | write => cases reads
  | append => cases reads

/-- What is kept between the calls. -/
def LiveFiles (booted : Kernel) (volume : Extent) (named : NamedFiles) : Prop :=
  exists files extentsOf arrays, Spares booted volume ⟨named.files.kernel, files⟩ extentsOf (IsName arrays) ∧
    Names named.files.kernel named.files.objects named.paths arrays ∧
      Numbers (files.map Prod.fst) named.files.objects

/-- A method that returns was called on an object. -/
theorem use_some {files after : FileObjects} {name : Nat}
    {method : Kernel -> FileObject -> Option (Option FileObject × Kernel)} (run : files.use name method = some after) :
    exists file left, files.objects name = some file ∧ method files.kernel file = some left ∧
      after = ⟨left.2, Function.update files.objects name left.1⟩ := by
  unfold FileObjects.use at run
  cases here : files.objects name with
  | none =>
      rw [here] at run
      cases run
  | some file =>
      rw [here] at run
      rcases Option.map_eq_some_iff.mp run with ⟨left, returns, rfl⟩
      exact ⟨file, left, rfl, returns, rfl⟩

namespace LiveFiles

variable {booted : Kernel} {volume : Extent} {named : NamedFiles} (live : LiveFiles booted volume named)
include live

theorem kernelHeap : named.files.kernel.heap.IsKernelHeap := by
  rcases live with ⟨_, _, _, spares, _⟩
  exact spares.kernelHeap

/-- The kernel has changed without any of the objects. -/
theorem kept {after : Kernel} (keeps : KeepsObjects (fun _ => True) named.files.kernel after)
    (globals : after.toGlobals = named.files.kernel.toGlobals) :
    LiveFiles booted volume ⟨⟨after, named.files.objects⟩, named.paths⟩ := by
  rcases live with ⟨files, extentsOf, arrays, spares, names, numbers⟩
  exact ⟨files, extentsOf, arrays, spares.kept keeps globals, names.keep keeps fun _ _ => trivial, numbers⟩

theorem construct {name : Nat} {filename : Word} (new : named.files.objects name = none) (notNull : filename ≠ 0#32)
    (room : Room named.files.kernel.heap (textAt named.files.kernel filename))
    (settled : TextSettled named.files.kernel named.files.kernel.heap filename) (mode : OpenFileMode) (stat : Word) :
    LiveFiles booted volume
      ⟨⟨(fileOf named.files.kernel filename mode stat).2,
          Function.update named.files.objects name (some (fileOf named.files.kernel filename mode stat).1)⟩,
        Function.update named.paths name (textAt named.files.kernel filename)⟩ := by
  rcases live with ⟨files, extentsOf, arrays, spares, names, numbers⟩
  have placed := spares.kernelHeap.wellPlaced
  rcases copyString_settled placed notNull room settled with ⟨array, isMade, temporary⟩
  have acquired := isMade.acquired
  refine ⟨files, extentsOf, Function.update arrays name (some array), ?_, ?_, ?_⟩
  · refine (spares.add temporary.keeps temporary.globals acquired).mono fun extent member => ?_
    rcases member with ⟨other, holds⟩
    rcases Leases.held_update holds with ⟨_, given⟩ | ⟨_, old⟩
    · exact Or.inr (Option.some.inj given).symm
    · exact Or.inl ⟨other, old⟩
  · refine (names.keep temporary.keeps fun _ _ => trivial).construct new (isMade.nameArray placed room.1) ?_
    exact fun extent member => acquired.fresh extent trivial (spares.owned extent member)
  · apply numbers.unopened
    · intro file given
      cases given
      rfl
    · intro file here
      cases new.symm.trans here

theorem opens {name : Nat} {file : FileObject} (here : named.files.objects name = some file) (closed : ¬ file.isOpen)
    (legal : OpenLegal named file (modeString named.files.kernel file.mode).2 (named.paths name))
    {left : FileObject × Kernel} (run : fileOpen named.files.kernel file = some left) :
    LiveFiles booted volume ⟨⟨left.2, Function.update named.files.objects name (some left.1)⟩, named.paths⟩ := by
  rcases live with ⟨files, extentsOf, arrays, spares, names, numbers⟩
  have temporary := modeString_temporary spares.kernelHeap file.mode
  have text := modeString_text named.files.kernel file.mode
  have namesNow := names.keep temporary.keeps fun _ _ => trivial
  rcases temporary.around spares with ⟨also, sparesNow, drop⟩
  unfold fileOpen at run
  rw [if_neg closed] at run
  dsimp only at run
  rw [text, namesNow.text here] at run
  generalize modeString named.files.kernel file.mode = mode at *
  rcases Option.map_eq_some_iff.mp run with ⟨opened, opensFile, rfl⟩
  have beside := sparesNow.held.fopen legal.apart legal.accepted opensFile
  have number := fopen_numbers sparesNow.kernelHeap legal.apart opensFile
  rcases sparesNow.described namesNow legal.apart legal.accepted opensFile (legal.status opened opensFile) with
    ⟨pool, namesAfter, later, sparesAfter⟩
  dsimp only
  generalize (if 0 < opened.1 then (fstat opened.2 opened.1 file.stat).2 else opened.2) = described at *
  rcases drop _ later sparesAfter pool with ⟨keeps, sparesLast⟩
  have sameName : ({ file with fd := opened.1 } : FileObject).name = file.name := rfl
  have namesLast := (namesAfter.keep keeps fun _ member => member).replace here sameName
  refine ⟨Session.book ⟨mode.2, files⟩ opened.1 (.fopen (named.paths name) (modeLiteral file.mode)), later, arrays, sparesLast,
    namesLast, ?_⟩
  rcases number with zero | ⟨positive, reads⟩
  · have none : ¬ 0 < opened.1 := zero ▸ Int.lt_irrefl 0
    have book : Session.book ⟨mode.2, files⟩ opened.1 (.fopen (named.paths name) (modeLiteral file.mode)) = files := if_neg none
    rw [book]
    apply numbers.unopened
    · intro file' given
      cases given
      exact zero
    · intro file' here'
      cases here.symm.trans here'
      exact closed
  · have book : (Session.book ⟨mode.2, files⟩ opened.1 (.fopen (named.paths name) (modeLiteral file.mode))).map Prod.fst =
        opened.1 :: files.map Prod.fst := by
      unfold Session.book
      dsimp only
      rw [if_pos positive]
      rfl
    rw [book]
    exact @Numbers.opens _ _ numbers name file { file with fd := opened.1 } here closed (beside.fresh positive)
      (modeLiteral_reads reads) positive

/-- The file of an object that is open. -/
theorem accepted {name : Nat} {file : FileObject} (here : named.files.objects name = some file) (isOpen : file.isOpen) :
    getFileDescriptor named.files.kernel file.fd ≠ 0#32 := by
  rcases live with ⟨files, extentsOf, arrays, spares, names, numbers⟩
  rcases List.mem_map.mp (numbers.opened name file here isOpen).1 with ⟨listed, member, same⟩
  rcases spares.held.tracked.resolves.opened listed member with ⟨nonNull, resolved⟩
  rw [← same, resolved]
  exact nonNull

theorem seeks (fd pos : Int) (whence : SeekMode) :
    LiveFiles booted volume ⟨⟨(fseek named.files.kernel fd pos whence).2, named.files.objects⟩, named.paths⟩ := by
  rcases live with ⟨files, extentsOf, arrays, spares, names, numbers⟩
  have sameFiles := SameFiles.fseek named.files.kernel fd pos whence
  have others : SameVolume named.files.kernel (fseek named.files.kernel fd pos whence).2 ∧
      (fseek named.files.kernel fd pos whence).2.disk = named.files.kernel.disk ∧
        (fseek named.files.kernel fd pos whence).2.bytes = named.files.kernel.bytes := by
    rcases fseek_moves named.files.kernel fd pos whence with unchanged | ⟨_, pos, moved⟩
    · rw [unchanged]
      exact ⟨SameVolume.refl _, rfl, rfl⟩
    · rw [moved]
      exact ⟨⟨rfl, rfl⟩, rfl, rfl⟩
  refine ⟨files, extentsOf, arrays, spares.used sameFiles others.1 others.2.1, ?_, numbers⟩
  exact names.stored sameFiles.heap fun _ _ _ _ _ => congrFun others.2.2 _

theorem reads {fd : Int} {buf size nmemb : Word} (legal : 0 < fd -> ReadLegal named fd buf size nmemb) {read : FileRead}
    (run : fileRead named.files.kernel fd buf size nmemb = some read) :
    LiveFiles booted volume ⟨⟨destroyString read.kernel read.text, named.files.objects⟩, named.paths⟩ := by
  have kernelHeap := live.kernelHeap
  unfold fileRead at run
  by_cases closed : ¬ 0 < fd
  · rw [if_pos closed] at run
    cases run
    rcases (emptyString_temporary kernelHeap.wellPlaced).dropped kernelHeap with ⟨keeps, globals⟩
    exact live.kept keeps globals
  · rw [if_neg closed] at run
    have expected := legal (not_not.mp closed)
    rcases Option.map_eq_some_iff.mp run with ⟨res, reads, rfl⟩
    have transferred := fread_transferred reads
    have liveRead : LiveFiles booted volume ⟨⟨res.2, named.files.objects⟩, named.paths⟩ := by
      rcases live with ⟨files, extentsOf, arrays, spares, names, numbers⟩
      refine ⟨files, extentsOf, arrays, spares.used (SameFiles.of_transferred transferred) transferred.sameVolume
        (congrArg Globals.disk transferred.toGlobals), ?_, numbers⟩
      refine names.stored transferred.heap fun name file here place below => ?_
      exact fread_within reads _ (Nat.not_lt.mp (expected.spares name file here place below))
    have heapRead := liveRead.kernelHeap
    dsimp only
    by_cases failed : res.1 < 0
    · rw [if_pos failed]
      rcases (emptyString_temporary heapRead.wellPlaced).dropped heapRead with ⟨keeps, globals⟩
      exact liveRead.kept keeps globals
    · rw [if_neg failed]
      rcases expected.string res reads (Int.not_lt.mp failed) with ⟨room, settled⟩
      rcases copyString_settled heapRead.wellPlaced expected.notNull room settled with ⟨_, _, temporary⟩
      rw [stringOf_eq_copyString expected.notNull]
      rcases temporary.dropped heapRead with ⟨keeps, globals⟩
      exact liveRead.kept keeps globals

theorem closes {name : Nat} {file : FileObject} (here : named.files.objects name = some file) :
    LiveFiles booted volume ⟨⟨(fileClose named.files.kernel file).2,
      Function.update named.files.objects name (some (fileClose named.files.kernel file).1)⟩, named.paths⟩ := by
  unfold fileClose
  by_cases closed : ¬ file.isOpen
  · rw [if_pos closed, Function.update_eq_self_iff.mpr here.symm]
    exact live
  · rw [if_neg closed]
    have isOpen := not_not.mp closed
    have accepted := live.accepted here isOpen
    rcases live with ⟨files, extentsOf, arrays, spares, names, numbers⟩
    rcases spares.fclose accepted with ⟨keeps, after⟩
    refine ⟨withoutNumber files file.fd, extentsOf, arrays, after, ?_, ?_⟩
    · exact (names.keep keeps fun _ member => member).replace here rfl
    · apply numbers.closes here
      · intro file' given
        cases given
        rfl
      · intro fd
        constructor
        · intro member
          rcases List.mem_map.mp member with ⟨listed, remains, rfl⟩
          rcases mem_withoutNumber.mp remains with ⟨old, different⟩
          exact ⟨List.mem_map.mpr ⟨listed, old, rfl⟩, different⟩
        · rintro ⟨member, different⟩
          rcases List.mem_map.mp member with ⟨listed, old, rfl⟩
          exact List.mem_map.mpr ⟨listed, mem_withoutNumber.mpr ⟨old, different⟩, rfl⟩
      · exact isOpen

/-- The name of a closed object is released. -/
theorem removed {name : Nat} {file : FileObject} (here : named.files.objects name = some file) (closed : ¬ file.isOpen) :
    LiveFiles booted volume ⟨⟨destroyString named.files.kernel file.name, Function.update named.files.objects name none⟩,
      named.paths⟩ := by
  rcases live with ⟨files, extentsOf, arrays, spares, names, numbers⟩
  rcases names.array name file here with ⟨array, holds, has⟩
  have nonNull : file.name ≠ 0#32 := by
    rw [has.pointer]
    exact spares.kernelHeap.wellPlaced.addressOf_ne_null has.owned.address_inside
  rw [destroyString, if_pos nonNull]
  rcases spares.released ⟨name, holds⟩ has.pointer with ⟨keeps, after⟩
  have others : forall extent, IsName (Function.update arrays name none) extent -> IsName arrays extent ∧ extent.Apart array := by
    rintro extent ⟨other, left⟩
    rcases Leases.held_update left with ⟨_, impossible⟩ | ⟨different, old⟩
    · cases impossible
    · exact ⟨⟨other, old⟩, names.apart other name extent array old holds different⟩
  refine ⟨files, extentsOf, Function.update arrays name none, after.mono others, ?_, ?_⟩
  · exact names.destroy (fun extent left => (after.mono others).owned extent left) keeps.pool rfl
  · apply numbers.unopened
    · intro file' given
      cases given
    · intro file' here'
      cases here.symm.trans here'
      exact closed

theorem destroys {name : Nat} {file : FileObject} (here : named.files.objects name = some file) :
    LiveFiles booted volume ⟨⟨fileDestroy named.files.kernel file, Function.update named.files.objects name none⟩,
      named.paths⟩ := by
  have closedNow := live.closes here
  have notOpen : ¬ (fileClose named.files.kernel file).1.isOpen := by
    unfold fileClose
    by_cases closed : ¬ file.isOpen
    · rw [if_pos closed]
      exact closed
    · rw [if_neg closed]
      exact Int.lt_irrefl 0
  have same : (if file.isOpen then fileClose named.files.kernel file else (file, named.files.kernel)) =
      fileClose named.files.kernel file := by
    by_cases isOpen : file.isOpen
    · exact if_pos isOpen
    · rw [if_neg isOpen, fileClose, if_pos isOpen]
  have gone := closedNow.removed (Function.update_self _ _ _) notOpen
  dsimp only at gone
  rw [Function.update_idem] at gone
  unfold fileDestroy
  rw [same]
  exact gone

/-- One call. -/
theorem step {call : FileObjectCall} (legal : FileObjectLegal named call) {files : FileObjects}
    (run : call.run named.files = some files) : LiveFiles booted volume ⟨files, call.paths named⟩ := by
  cases call with
  | construct name filename mode stat =>
      cases run
      exact live.construct legal.1 legal.2.1 legal.2.2.1 legal.2.2.2 mode stat
  | openFile name =>
      dsimp only [FileObjectCall.run] at run
      rcases use_some run with ⟨file, _, here, opened, rfl⟩
      rcases Option.map_eq_some_iff.mp opened with ⟨left, opens, rfl⟩
      by_cases isOpen : file.isOpen
      · rw [fileOpen, if_pos isOpen] at opens
        cases opens
        dsimp only
        rw [Function.update_eq_self_iff.mpr here.symm]
        exact live
      · rcases legal with ⟨found, there, expected⟩
        cases here.symm.trans there
        exact live.opens here isOpen (expected isOpen) opens
  | seekg name pos mode =>
      dsimp only [FileObjectCall.run] at run
      rcases use_some run with ⟨file, _, here, sought, rfl⟩
      cases sought
      dsimp only
      rw [Function.update_eq_self_iff.mpr here.symm]
      unfold fileSeekg
      split
      · exact live
      · exact live.seeks file.fd pos _
  | read name buf size nmemb =>
      dsimp only [FileObjectCall.run] at run
      rcases use_some run with ⟨file, _, here, result, rfl⟩
      rcases Option.map_eq_some_iff.mp result with ⟨read, reads, rfl⟩
      rcases legal with ⟨found, there, expected⟩
      cases here.symm.trans there
      dsimp only
      rw [Function.update_eq_self_iff.mpr here.symm]
      exact live.reads expected reads
  | close name =>
      dsimp only [FileObjectCall.run] at run
      rcases use_some run with ⟨file, _, here, closed, rfl⟩
      cases closed
      exact live.closes here
  | destroy name =>
      dsimp only [FileObjectCall.run] at run
      rcases use_some run with ⟨file, _, here, gone, rfl⟩
      cases gone
      exact live.destroys here

theorem stand : FilesStand named where
  opened := by
    intro name file here isOpen
    refine ⟨live.accepted here isOpen, ?_⟩
    rcases live with ⟨files, extentsOf, arrays, spares, names, numbers⟩
    exact (numbers.opened name file here isOpen).2
  distinct := by
    rcases live with ⟨files, extentsOf, arrays, spares, names, numbers⟩
    exact fun name other file file' here here' different isOpen same =>
      different (numbers.distinct name other file file' here here' isOpen same)
  only := by
    rcases live with ⟨files, extentsOf, arrays, spares, names, numbers⟩
    intro fd found
    rcases spares.held.listed found with ⟨descriptor, member⟩
    have listed : fd ∈ files.map Prod.fst := List.mem_map.mpr ⟨_, member, rfl⟩
    rcases numbers.listed fd listed with ⟨name, file, here, rfl⟩
    exact ⟨name, file, here, numbers.positive _ listed, rfl⟩
  names := by
    rcases live with ⟨files, extentsOf, arrays, spares, names, numbers⟩
    exact fun name file here => names.text here

omit live in
/-- A volume on which no file is open. -/
theorem start {kernel : Kernel} (resolved : Resolved booted kernel) (held : VolumeHeld kernel)
    (empty : kernel.fileDescriptors = fun _ => 0#32) : exists volume, LiveFiles booted volume (.start kernel) := by
  rcases KeptState.start resolved held empty _ rfl with ⟨volume, ⟨extentsOf, heldNow⟩, _⟩
  refine ⟨volume, [], extentsOf, fun _ => none, ⟨heldNow, ?_, ?_, ?_⟩, ⟨?_, fun _ _ => rfl, ?_⟩, ?_⟩
  · exact fun extent ⟨_, impossible⟩ => nomatch impossible
  · exact fun extent ⟨_, impossible⟩ => nomatch impossible
  · exact fun extent ⟨_, impossible⟩ => nomatch impossible
  · exact fun name file impossible => nomatch impossible
  · exact fun name other extent extent' impossible => nomatch impossible
  · refine ⟨?_, ?_, ?_, ?_, ?_⟩
    · exact fun fd member => absurd member List.not_mem_nil
    · exact fun fd member => absurd member List.not_mem_nil
    · exact fun name file impossible => nomatch impossible
    · exact fun name other file file' impossible => nomatch impossible
    · exact fun name file impossible => nomatch impossible

end LiveFiles

/-! ## Runs -/

/-- Every call of a run meets what is expected of it. -/
def FileObjectsLegal (kernel : Kernel) (calls : List FileObjectCall) : Prop :=
  Run.Everywhere filesStep (fun state call => forall named, state = some named -> FileObjectLegal named call)
    (some (NamedFiles.start kernel)) calls

/-- The objects stand from the first call to the last. -/
def FilesStandThroughout (kernel : Kernel) (calls : List FileObjectCall) : Prop :=
  Run.Throughout filesStep (fun state => forall named, state = some named -> FilesStand named)
    (some (NamedFiles.start kernel)) calls

/-- A run that is not over. -/
def LiveState (booted : Kernel) (volume : Extent) (state : Option NamedFiles) : Prop :=
  forall named, state = some named -> LiveFiles booted volume named

theorem LiveState.step {booted : Kernel} {volume : Extent} {state : Option NamedFiles} (alive : LiveState booted volume state)
    {call : FileObjectCall} (legal : forall named, state = some named -> FileObjectLegal named call) :
    LiveState booted volume (filesStep state call) := by
  intro after step
  rcases Option.bind_eq_some_iff.mp step with ⟨named, here, returns⟩
  rcases Option.map_eq_some_iff.mp returns with ⟨files, run, rfl⟩
  exact (alive named here).step (legal named here) run

/-- Whatever is done with objects of `lava::file` on a mounted volume, in whatever order:
an object that is open has a file of its own in the table, and there is no file in the
table that does not belong to an object.  To open it once more changes nothing, and only
what is opened for reading is ever open.  With the objects all files are closed. -/
theorem files_stand {booted kernel : Kernel} (volume : Resolved booted kernel) (held : VolumeHeld kernel)
    (empty : kernel.fileDescriptors = fun _ => 0#32) (calls : List FileObjectCall) (legal : FileObjectsLegal kernel calls) :
    FilesStandThroughout kernel calls := by
  rcases LiveFiles.start volume held empty with ⟨extent, live⟩
  have start : LiveState booted extent (some (NamedFiles.start kernel)) := by
    rintro named ⟨⟩
    exact live
  exact Run.throughout_of_invariant (fun state alive named here => (alive named here).stand)
    (fun state call alive => alive.step) _ calls start legal

/-! ## A file that is opened twice -/

/-- The path of the only file, at the first megabyte. -/
def pathKernel (booted : Kernel) : Kernel := storeBytes booted 0x100000#32 [forwardSlash, 0x41#8, 0#8]

/-- An object for it, which is opened twice and closed by its destructor. -/
def pathCalls : List FileObjectCall :=
  [.construct 0 0x100000#32 .read 0x1FF000#32, .openFile 0, .openFile 0, .seekg 0 10 .set, .destroy 0]

section Rooms

variable {kernel : Kernel} {first : Nat} (room : RoomFrom kernel first)
include room

theorem room_string (inside : first < 25600) {text : List Byte} (short : text.length < heapBlockSizeBytes) :
    Room kernel.heap text ∧ (malloc kernel.heap (BitVec.ofNat 32 (text.length + 1))).2.FreeFrom (first + 1) := by
  refine room_of_freeFrom room.kernelHeap.wellPlaced room.free ?_ short
  rw [room.kernelHeap.total]
  exact inside

theorem room_literalString (inside : first < 25600) (c : Byte) : RoomFrom (literalString kernel [c]).2 (first + 1) := by
  have short : [c].length < heapBlockSizeBytes := show 1 < heapBlockSizeBytes by decide
  refine ⟨?_, (room_string room inside short).2⟩
  exact room.kernelHeap.samePool (literalString_temporary room.kernelHeap.wellPlaced c).keeps.pool

theorem room_modeString (inside : first + 1 < 25600) : RoomFrom (modeString kernel .read).2 (first + 2) := by
  have one := room_literalString room (Nat.lt_of_succ_lt inside) 0x72#8
  have dropped := (literalString_temporary room.kernelHeap.wellPlaced 0x72#8).dropped room.kernelHeap
  have freed : RoomFrom (destroyString (literalString kernel [0x72#8]).2 (literalString kernel [0x72#8]).1)
      (first + 1) := by
    refine ⟨room.kernelHeap.samePool dropped.1.pool, ?_⟩
    unfold destroyString
    split
    · exact one.free.free _
    · exact one.free
  exact room_literalString freed inside 0x72#8

end Rooms

/-- The file is opened as it should be. -/
theorem VolumeReady.opensLegal {kernel : Kernel} {count first : Nat} (ready : VolumeReady count first kernel)
    (early : count + 1 < MAX_FILE_DESCRIPTORS) (fits : first + 6 ≤ 25600) :
    OpensApart kernel opensFile ∧ OpensAccepted kernel opensFile := by
  rcases fopenAttempt_rootFile ready.mounted (AllServed.refl ready.room) (by omega) ready.fs (by decide) (by decide) (by decide)
    ready.rootFile with ⟨p, attempt, noError, last, opened⟩
  rcases last.kzalloc ready.mounted (by decide : blocksFor sizeofFileDescriptor = 1) (by omega) with ⟨served, _⟩
  refine ⟨⟨fun _ => partsFit_of_short _ _ (by decide), fun p' attempt' _ _ => ?_⟩, fun p' attempt' _ slot free => ?_⟩
  · cases attempt.symm.trans attempt'
    exact opened.item.whole last.room.kernelHeap.wellPlaced
  · cases attempt.symm.trans attempt'
    cases (ready.freeSlot (Nat.lt_of_succ_lt early)).symm.trans free
    exact ⟨early, served⟩

/-- The status of the file is stored below the heap. -/
theorem pathFile_status {opened : Kernel} (kernelHeap : opened.heap.IsKernelHeap)
    (held : HeldFile opened 1 ((storedRoot (driveOf fileVolume) (bootSector fileVolume)).slots 0)) {address : Word}
    (stores : (FileCall.fstat 1 0x1FF000#32).StoresTo opened address) : address.toNat < 0x01000000 := by
  have item := held.opened.item
  have size : slotSize = 32 := rfl
  have slot : forall place, place < slotSize -> slotAt opened (entryPointer opened 1) place =
      (storedRoot (driveOf fileVolume) (bootSector fileVolume)).slots 0 place := item.same
  have nonzero : forall place, place < 12 ->
      (storedRoot (driveOf fileVolume) (bootSector fileVolume)).slots 0 place ≠ 0#8 := by decide
  have nul : slotAt opened (entryPointer opened 1) 12 = 0#8 := (slot 12 (by decide)).trans (by decide)
  have name : FirstNul (slotAt opened (entryPointer opened 1)) 0 12 := by
    refine ⟨nul, fun i below => ?_⟩
    rw [Nat.zero_add, slot i (by omega)]
    exact nonzero i below
  have ext : FirstNul (slotAt opened (entryPointer opened 1)) 8 4 := by
    refine ⟨nul, fun i below => ?_⟩
    rw [slot (8 + i) (by omega)]
    exact nonzero (8 + i) (by omega)
  have nameEnds := name.endsAt rfl
  rw [BitVec.add_zero] at nameEnds
  have apart : EntryApart (entryPointer opened 1) 0x1FF000#32 := by
    rcases item.copied with ⟨extent, _, inside⟩
    intro place other within below same
    have lower := (inside place within).1
    change _ ≤ (entryPointer opened 1 + BitVec.ofNat 32 place).toNat at lower
    have start : KERNEL_HEAP_START_ADDRESS.toNat = 0x01000000 := rfl
    rw [same, kernelHeap.start, start, BitVec.toNat_add, BitVec.toNat_ofNat, BitVec.toNat_ofNat] at lower
    omega
  rcases fat16StatAccesses_within 0x1FF000#32 item.file rfl apart nameEnds (ext.endsAt rfl) (by decide) (by decide) _ stores with
    ⟨place, below, rfl⟩
  rw [BitVec.toNat_add, BitVec.toNat_ofNat, BitVec.toNat_ofNat]
  omega

/-- The kernel with the path is ready. -/
theorem pathKernel_ready {booted : Kernel} (times : OpenedTimes 0 booted) : VolumeReady 0 1543 (pathKernel booted) := by
  have low : FreshRange (fun _ => True) booted 0x100000#32 [forwardSlash, 0x41#8, 0#8].length := by
    intro address inside
    change (address - 0x100000#32).toNat < 3 at inside
    apply freshRange_low times.room.kernelHeap
    bv_omega
  have stored := ReadsFresh.stored ⟨Transferred.refl booted, KeepsObjects.refl _ booted⟩ low
  exact times.ready.keep stored.keeps rfl (times.room.of_heap rfl)

theorem pathKernel_text (booted : Kernel) : textAt (pathKernel booted) 0x100000#32 = [forwardSlash, 0x41#8] := by
  have ends : EndsAt (pathKernel booted).bytes 0x100000#32 2 := by
    refine ⟨rfl, fun place below => ?_⟩
    rcases Nat.lt_succ_iff_lt_or_eq.mp below with early | rfl
    · obtain rfl := Nat.lt_one_iff.mp early
      exact show forwardSlash ≠ 0#8 by decide
    · exact show 0x41#8 ≠ 0#8 by decide
  exact (if_neg (by decide)).trans (ends.text (by decide))

/-- The object. -/
def pathFile (booted : Kernel) : FileObject := ⟨0, (copyString (pathKernel booted) 0x100000#32).1, .read, 0x1FF000#32⟩

/-- The objects after the first call. -/
def pathNamed (booted : Kernel) : NamedFiles :=
  ⟨⟨(copyString (pathKernel booted) 0x100000#32).2, Function.update (fun _ => none) 0 (some (pathFile booted))⟩,
    Function.update (fun _ => []) 0 (textAt (pathKernel booted) 0x100000#32)⟩

/-- There is room for the copy of the path. -/
theorem path_settled {booted : Kernel} (times : OpenedTimes 0 booted) :
    Room (pathKernel booted).heap (textAt (pathKernel booted) 0x100000#32) ∧
      TextSettled (pathKernel booted) (pathKernel booted).heap 0x100000#32 ∧
        RoomFrom (copyString (pathKernel booted) 0x100000#32).2 1544 := by
  have ready := pathKernel_ready times
  have text := pathKernel_text booted
  have kernelHeap := ready.room.kernelHeap
  have short : [forwardSlash, 0x41#8].length < heapBlockSizeBytes := by decide
  have room := room_string ready.room (by decide) short
  rw [← text] at room
  have settled : TextSettled (pathKernel booted) (pathKernel booted).heap 0x100000#32 := by
    intro _ place below block _ _ inside
    rw [text] at below
    change place ≤ 2 at below
    have lower := inside.1
    have start : (pathKernel booted).heap.startAddress.toNat = 0x01000000 := by rw [kernelHeap.start]; rfl
    change (pathKernel booted).heap.startAddress.toNat + _ ≤ _ at lower
    rw [start, BitVec.toNat_add, BitVec.toNat_ofNat, BitVec.toNat_ofNat] at lower
    omega
  rcases copyString_settled kernelHeap.wellPlaced (by decide) room.1 settled with ⟨_, _, temporary⟩
  refine ⟨room.1, settled, kernelHeap.samePool temporary.keeps.pool, ?_⟩
  exact room.2

section Path

variable {booted : Kernel} (times : OpenedTimes 0 booted) (empty : booted.fileDescriptors = fun _ => 0#32)
include times empty

theorem pathNamed_live : exists volume, LiveFiles fileVolume volume (pathNamed booted) := by
  have ready := pathKernel_ready times
  rcases path_settled times with ⟨room, settled, _⟩
  rcases LiveFiles.start ready.volume ready.mounted.held empty with ⟨volume, live⟩
  have first : FileObjectLegal (.start (pathKernel booted)) (.construct 0 0x100000#32 .read 0x1FF000#32) :=
    ⟨rfl, by decide, room, settled⟩
  exact ⟨volume, live.step first rfl⟩

/-- The first open is as it should be, and has the number 1. -/
theorem path_opens :
    OpenLegal (pathNamed booted) (pathFile booted) (modeString (pathNamed booted).files.kernel (pathFile booted).mode).2
        ((pathNamed booted).paths 0) ∧
      exists left, fileOpen (pathNamed booted).files.kernel (pathFile booted) = some left ∧ left.1.isOpen := by
  have ready := pathKernel_ready times
  rcases path_settled times with ⟨room, settled, left⟩
  rcases copyString_settled ready.room.kernelHeap.wellPlaced (by decide) room settled with ⟨_, _, copied⟩
  have readyCopy : VolumeReady 0 1544 (pathNamed booted).files.kernel := ready.keep copied.keeps copied.globals left
  have mode := modeString_temporary readyCopy.room.kernelHeap (pathFile booted).mode
  have text := modeString_text (pathNamed booted).files.kernel (pathFile booted).mode
  have readyMode := readyCopy.keep mode.keeps mode.globals (room_modeString readyCopy.room (by decide))
  have path : (pathNamed booted).paths 0 = [forwardSlash, 0x41#8] := pathKernel_text booted
  rcases VolumeReady.opensLegal readyMode (by decide) (by decide) with ⟨apart, accepted⟩
  rcases readyMode.fopen (by decide) (by decide) with ⟨opened, opens, readyOpened, keeps, held, _⟩
  rcases pathNamed_live times empty with ⟨volume, files, extentsOf, arrays, spares, names, _⟩
  rw [path]
  constructor
  · refine ⟨apart, accepted, ?_⟩
    intro opened' opens' _ name file here place below stores
    cases opens.symm.trans opens'
    rcases names.array name file here with ⟨extent, _, has⟩
    have lower := (has.inside place below).1
    have start : (pathNamed booted).files.kernel.heap.startAddress.toNat = 0x01000000 := by rw [spares.kernelHeap.start]; rfl
    rw [start] at lower
    have upper := pathFile_status readyOpened.room.kernelHeap held stores
    omega
  · have namesMode := names.keep mode.keeps fun _ _ => trivial
    have here : (pathNamed booted).files.objects 0 = some (pathFile booted) := rfl
    have nameText := namesMode.text here
    have opensMode : fopen (modeString (pathNamed booted).files.kernel (pathFile booted).mode).2 [forwardSlash, 0x41#8]
        (modeLiteral (pathFile booted).mode) = some (1, opened) := opens
    rw [path] at nameText
    have closed : ¬ (pathFile booted).isOpen := not_isOpen_of_zero rfl
    unfold fileOpen
    rw [if_neg closed]
    dsimp only
    rw [text, nameText, opensMode]
    exact ⟨_, rfl, Int.one_pos⟩

end Path

/-- A method that returns leaves the object that it returns. -/
theorem filesStep_use {named : NamedFiles} {call : FileObjectCall} {name : Nat} {file : FileObject}
    {method : Kernel -> FileObject -> Option (Option FileObject × Kernel)} (here : named.files.objects name = some file)
    (calls : call.run named.files = named.files.use name method) {left : Option FileObject × Kernel}
    (returns : method named.files.kernel file = some left) :
    exists after, filesStep (some named) call = some after ∧ after.files.objects name = left.1 := by
  refine ⟨⟨⟨left.2, Function.update named.files.objects name left.1⟩, call.paths named⟩, ?_, Function.update_self _ _ _⟩
  rw [filesStep, Option.bind_some, calls, FileObjects.use, here]
  dsimp only
  rw [returns]
  rfl

theorem filesStep_open {named : NamedFiles} {name : Nat} {file : FileObject} (here : named.files.objects name = some file)
    {left : FileObject × Kernel} (opens : fileOpen named.files.kernel file = some left) :
    exists after, filesStep (some named) (.openFile name) = some after ∧ after.files.objects name = some left.1 := by
  have returns : (fileOpen named.files.kernel file).map (fun left => (some left.1, left.2)) = some (some left.1, left.2) := by
    rw [opens]
    rfl
  exact @filesStep_use named (.openFile name) name file
    (fun kernel file => (fileOpen kernel file).map fun left => (some left.1, left.2)) here rfl _ returns

theorem pathCalls_legal {booted : Kernel} (times : OpenedTimes 0 booted) (empty : booted.fileDescriptors = fun _ => 0#32) :
    FileObjectsLegal (pathKernel booted) pathCalls := by
  have ready := pathKernel_ready times
  rcases path_settled times with ⟨room, settled, _⟩
  rcases path_opens times empty with ⟨legal, left, opens, isOpen⟩
  have here : (pathNamed booted).files.objects 0 = some (pathFile booted) := rfl
  refine ⟨?_, ?_⟩
  · rintro named ⟨⟩
    exact ⟨rfl, by decide, room, settled⟩
  change Run.Everywhere filesStep _ (some (pathNamed booted)) _
  refine ⟨?_, ?_⟩
  · rintro named ⟨⟩
    exact ⟨pathFile booted, here, fun _ => legal⟩
  rcases filesStep_open here opens with ⟨once, run, found⟩
  rw [run]
  refine ⟨?_, ?_⟩
  · rintro named ⟨⟩
    exact ⟨_, found, fun closed => absurd isOpen closed⟩
  rcases filesStep_open found (if_pos isOpen) with ⟨twice, again, foundAgain⟩
  rw [again]
  refine ⟨?_, ?_⟩
  · rintro named ⟨⟩ absent
    cases foundAgain.symm.trans absent
  rcases @filesStep_use twice (.seekg 0 10 .set) 0 left.1
    (fun kernel file => some (some file, fileSeekg kernel file 10 .set)) foundAgain rfl _ rfl with ⟨sought, seeks, foundLast⟩
  rw [seeks]
  refine ⟨?_, trivial⟩
  rintro named ⟨⟩ absent
  cases foundLast.symm.trans absent

/-- The number of the object is 1 until its destructor closes the file. -/
theorem files_stand_path : exists booted, boot fileVolume (fun _ => 0#8) = some booted ∧
    FilesStandThroughout (pathKernel booted) pathCalls := by
  rcases fileVolume_booted with ⟨booted, boots, times⟩
  have empty := (boot_booted boots).fileDescriptors
  have ready := pathKernel_ready times
  exact ⟨booted, boots, files_stand ready.volume ready.mounted.held empty pathCalls (pathCalls_legal times empty)⟩

end Core
end LarvaOS
