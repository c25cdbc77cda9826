import LarvaOS.Core.Strings
import LarvaOS.Fs.CursorRuns

namespace LarvaOS
namespace Core

open Disk Fs Library Memory

/-!
# Files

An object of `lava::file` has the name of a file as a string of its own, and the number of
the file while it is open.  `open` makes a string of the mode for `fopen`, and asks for the
status of what it has opened.  The destructor closes the file and releases the name.

Between the calls the heap is used for the names, for the strings of the modes and of what
was read, and for what the file system keeps of an open file.
-/

/-! ## The class -/

/-- `open_file_mode`. -/
inductive OpenFileMode where
  | read
  | write
  | append

/-- `seek_file_mode`. -/
inductive SeekFileMode where
  | set
  | cur
  | fileEnd

/-- The fields of an object, with the address of its `_stat`. -/
structure FileObject where
  fd : Int
  name : Word
  mode : OpenFileMode
  stat : Word

def FileObject.isOpen (file : FileObject) : Prop := 0 < file.fd

instance (file : FileObject) : Decidable file.isOpen := inferInstanceAs (Decidable (0 < file.fd))

/-- `file::file`.  The name is a copy of the string `filename`. -/
def fileOf (kernel : Kernel) (filename : Word) (mode : OpenFileMode) (stat : Word) : FileObject × Kernel :=
  let name := copyString kernel filename
  (⟨0, name.1, mode, stat⟩, name.2)

/-- `string::string(const char *)`, of a literal. -/
def literalString (kernel : Kernel) (literal : List Byte) : Word × Kernel :=
  let (str, kernel) := kmalloc kernel (BitVec.ofNat 32 (literal.length + 1))
  let kernel := storeBytes kernel str (literal ++ [0#8])
  (str, storeBytes kernel (str + BitVec.ofNat 32 literal.length) [0#8])

def modeLiteral : OpenFileMode -> List Byte
  | .read => [0x72#8]
  | .write => [0x77#8]
  | .append => [0x61#8]

/-- The string of the mode, which is that of `"r"` until it is assigned to. -/
def modeString (kernel : Kernel) (mode : OpenFileMode) : Word × Kernel :=
  let string := literalString kernel [0x72#8]
  literalString (if string.1 ≠ 0#32 then kfree string.2 string.1 else string.2) (modeLiteral mode)

/-- `file::open`. -/
def fileOpen (kernel : Kernel) (file : FileObject) : Option (FileObject × Kernel) :=
  if file.isOpen then some (file, kernel)
  else
    let mode := modeString kernel file.mode
    (fopen mode.2 (cString mode.2.bytes (2 ^ 32) file.name) (cString mode.2.bytes (2 ^ 32) mode.1)).map fun opened =>
      let kernel := if 0 < opened.1 then (fstat opened.2 opened.1 file.stat).2 else opened.2
      ({ file with fd := opened.1 }, destroyString kernel mode.1)

def seekWhence : SeekFileMode -> SeekMode
  | .set => .set
  | .cur => .cur
  | .fileEnd => .other

/-- `file::seekg`. -/
def fileSeekg (kernel : Kernel) (file : FileObject) (pos : Int) (mode : SeekFileMode) : Kernel :=
  if ¬ file.isOpen then kernel else (fseek kernel file.fd pos (seekWhence mode)).2

/-- `file::close`. -/
def fileClose (kernel : Kernel) (file : FileObject) : FileObject × Kernel :=
  if ¬ file.isOpen then (file, kernel) else ({ file with fd := 0 }, (fclose kernel file.fd).2)

/-- `file::~file`, and the destructor of the name. -/
def fileDestroy (kernel : Kernel) (file : FileObject) : Kernel :=
  let closed := if file.isOpen then fileClose kernel file else (file, kernel)
  destroyString closed.2 closed.1.name

/-- The kernel, and the objects that there are. -/
structure FileObjects where
  kernel : Kernel
  objects : Nat -> Option FileObject

/-- A call of a method, which may be the last one of the object. -/
def FileObjects.use (files : FileObjects) (name : Nat)
    (method : Kernel -> FileObject -> Option (Option FileObject × Kernel)) : Option FileObjects :=
  match files.objects name with
  | none => none
  | some file => (method files.kernel file).map fun left => ⟨left.2, Function.update files.objects name left.1⟩

inductive FileObjectCall where
  | construct (name : Nat) (filename : Word) (mode : OpenFileMode) (stat : Word)
  | openFile (name : Nat)
  | seekg (name : Nat) (pos : Int) (mode : SeekFileMode)
  | read (name : Nat) (buf size nmemb : Word)
  | close (name : Nat)
  | destroy (name : Nat)

/-- A call that returns.  The caller of `read` drops the string. -/
def FileObjectCall.run (files : FileObjects) : FileObjectCall -> Option FileObjects
  | .construct name filename mode stat =>
      let made := fileOf files.kernel filename mode stat
      some ⟨made.2, Function.update files.objects name (some made.1)⟩
  | .openFile name => files.use name fun kernel file => (fileOpen kernel file).map fun left => (some left.1, left.2)
  | .seekg name pos mode => files.use name fun kernel file => some (some file, fileSeekg kernel file pos mode)
  | .read name buf size nmemb => files.use name fun kernel file =>
      (fileRead kernel file.fd buf size nmemb).map fun read => (some file, destroyString read.kernel read.text)
  | .close name => files.use name fun kernel file => some (some (fileClose kernel file).1, (fileClose kernel file).2)
  | .destroy name => files.use name fun kernel file => some (none, fileDestroy kernel file)

/-! ## Strings of a moment -/

/-- A new string is `NULL` or an array of its own, and nothing that was allocated has
changed. -/
structure Temporary (kernel : Kernel) (made : Word × Kernel) : Prop where
  keeps : KeepsObjects (fun _ => True) kernel made.2
  globals : made.2.toGlobals = kernel.toGlobals
  array : made.1 = 0#32 ∨ exists extent, Acquired (fun _ => True) kernel made.2 made.1 extent

/-- A request for an array. -/
theorem kmalloc_temporary {kernel : Kernel} (placed : kernel.heap.WellPlaced) (size : Word) :
    Temporary kernel (kmalloc kernel size) := by
  have zeroed := keeps_kzalloc (fun _ => True) placed size
  have heap : (kzalloc kernel size).2.heap = (kmalloc kernel size).2.heap := kzalloc_heap kernel size
  have pointer : (kzalloc kernel size).1 = (kmalloc kernel size).1 := kzalloc_pointer kernel size
  refine ⟨⟨heap ▸ zeroed.pool, fun extent guarded owned => heap ▸ zeroed.owns extent guarded owned,
    fun extent _ _ address _ => Store.SameObjects.refl _ _⟩, rfl, ?_⟩
  rw [← pointer]
  by_cases refused : (kzalloc kernel size).1 = 0#32
  · exact Or.inl refused
  · rcases (KeepsObjects.refl _ kernel).acquired placed refused with ⟨extent, acquired, _⟩
    exact Or.inr ⟨extent, acquired.of_heap heap.symm⟩

/-- Whatever pointer the array has, its first page is fresh. -/
theorem kmalloc_freshRange {kernel : Kernel} (placed : kernel.heap.WellPlaced) (size : Word) :
    FreshRange (fun _ => True) kernel (kmalloc kernel size).1 heapBlockSizeBytes := by
  have fresh := freshRange_kzalloc (fun _ => True) placed size
  rwa [kzalloc_pointer] at fresh

namespace Temporary

variable {kernel : Kernel} {made : Word × Kernel} (temporary : Temporary kernel made)
include temporary

/-- Bytes that are stored to fresh memory. -/
theorem stored {address : Word} {bytes : List Byte} (fresh : FreshRange (fun _ => True) kernel address bytes.length) :
    Temporary kernel (made.1, storeBytes made.2 address bytes) where
  keeps := (ReadsFresh.stored ⟨Transferred.refl made.2, temporary.keeps⟩ fresh).keeps
  globals := temporary.globals
  array := by
    rcases temporary.array with null | ⟨extent, acquired⟩
    · exact Or.inl null
    · exact Or.inr ⟨extent, acquired.of_heap rfl⟩

/-- A string that is dropped again. -/
theorem dropped (kernelHeap : kernel.heap.IsKernelHeap) :
    KeepsObjects (fun _ => True) kernel (destroyString made.2 made.1) ∧
      (destroyString made.2 made.1).toGlobals = kernel.toGlobals := by
  unfold destroyString
  by_cases null : made.1 = 0#32
  · rw [if_neg (not_not_intro null)]
    exact ⟨temporary.keeps, temporary.globals⟩
  · rw [if_pos null]
    rcases temporary.array with absent | ⟨extent, acquired⟩
    · exact absurd absent null
    · exact ⟨temporary.keeps.kfree kernelHeap.wellPlaced (fun _ => kernelHeap.low) acquired, temporary.globals⟩

/-- A string that follows something that has changed nothing. -/
theorem since {first : Kernel} (keeps : KeepsObjects (fun _ => True) first kernel)
    (globals : kernel.toGlobals = first.toGlobals) : Temporary first made where
  keeps := keeps.trans temporary.keeps
  globals := temporary.globals.trans globals
  array := by
    rcases temporary.array with null | ⟨extent, acquired⟩
    · exact Or.inl null
    · exact Or.inr ⟨extent, acquired.owned, acquired.address, keeps.freshExtent acquired.fresh⟩

end Temporary

section Literals

variable {kernel : Kernel} (placed : kernel.heap.WellPlaced)
include placed

theorem emptyString_temporary : Temporary kernel (emptyString kernel) := by
  refine (kmalloc_temporary placed 1#32).stored ((kmalloc_freshRange placed 1#32).mono ?_)
  decide

/-- The string of a literal that is one character. -/
theorem literalString_temporary (c : Byte) : Temporary kernel (literalString kernel [c]) := by
  have fresh := kmalloc_freshRange placed 2#32
  have two : ([c] ++ [0#8]).length ≤ heapBlockSizeBytes := show 2 ≤ heapBlockSizeBytes by decide
  have copied := (kmalloc_temporary placed 2#32).stored (fresh.mono two)
  refine copied.stored fun address inside => fresh address ?_
  change (address - ((kmalloc kernel 2#32).1 + 1#32)).toNat < 1 at inside
  unfold heapBlockSizeBytes
  bv_omega

omit placed in
/-- It holds the character. -/
theorem literalString_text {c : Byte} (notNull : c ≠ 0#8) :
    cString (literalString kernel [c]).2.bytes (2 ^ 32) (literalString kernel [c]).1 = [c] := by
  unfold literalString
  dsimp only
  generalize kmalloc kernel _ = array
  have last : (storeBytes (storeBytes array.2 array.1 ([c] ++ [0#8])) (array.1 + 1#32) [0#8]).bytes (array.1 + 1#32) = 0#8 := by
    rw [storeBytes_bytes, BitVec.sub_self]
    rfl
  have first : (storeBytes (storeBytes array.2 array.1 ([c] ++ [0#8])) (array.1 + 1#32) [0#8]).bytes array.1 = c := by
    have beyond : [0#8].length ≤ (array.1 - (array.1 + 1#32)).toNat := by
      rw [List.length_singleton]
      bv_omega
    rw [storeBytes_bytes, List.getElem?_eq_none beyond, storeBytes_bytes, BitVec.sub_self]
    rfl
  have ends : EndsAt (storeBytes (storeBytes array.2 array.1 ([c] ++ [0#8])) (array.1 + 1#32) [0#8]).bytes array.1 1 := by
    refine ⟨last, fun place below => ?_⟩
    obtain rfl := Nat.lt_one_iff.mp below
    rw [BitVec.add_zero, first]
    exact notNull
  refine (ends.text (by decide)).trans ?_
  rw [List.range_one, List.map_singleton, BitVec.add_zero, first]

end Literals

/-- The string of the mode. -/
theorem modeString_temporary {kernel : Kernel} (kernelHeap : kernel.heap.IsKernelHeap) (mode : OpenFileMode) :
    Temporary kernel (modeString kernel mode) := by
  rcases (literalString_temporary kernelHeap.wellPlaced 0x72#8).dropped kernelHeap with ⟨keeps, globals⟩
  have placed := (kernelHeap.samePool keeps.pool).wellPlaced
  cases mode with
  | read => exact (literalString_temporary placed 0x72#8).since keeps globals
  | write => exact (literalString_temporary placed 0x77#8).since keeps globals
  | append => exact (literalString_temporary placed 0x61#8).since keeps globals

theorem modeString_text (kernel : Kernel) (mode : OpenFileMode) :
    cString (modeString kernel mode).2.bytes (2 ^ 32) (modeString kernel mode).1 = modeLiteral mode := by
  cases mode with
  | read => exact literalString_text (by decide)
  | write => exact literalString_text (by decide)
  | append => exact literalString_text (by decide)


/-! ## Beside the file system -/

/-- The extents belong neither to the volume nor to an open file. -/
structure Spares (booted : Kernel) (volume : Extent) (session : Session) (extentsOf : Int -> List Extent)
    (spared : Extent -> Prop) : Prop where
  held : session.Held booted volume extentsOf
  owned : forall extent, spared extent -> session.kernel.heap.Owns extent
  volume : forall extent, spared extent -> extent.Apart volume
  files : forall extent, spared extent -> forall file, file ∈ session.files -> forall gone, gone ∈ extentsOf file.1 ->
    extent.Apart gone

namespace Spares

variable {booted : Kernel} {volume : Extent} {session : Session} {extentsOf : Int -> List Extent} {spared : Extent -> Prop}
  (spares : Spares booted volume session extentsOf spared)
include spares

theorem kernelHeap : session.kernel.heap.IsKernelHeap := spares.held.tracked.kernelHeap

theorem mono {fewer : Extent -> Prop} (implies : forall extent, fewer extent -> spared extent) :
    Spares booted volume session extentsOf fewer where
  held := spares.held
  owned := fun extent member => spares.owned extent (implies extent member)
  volume := fun extent member => spares.volume extent (implies extent member)
  files := fun extent member => spares.files extent (implies extent member)

/-- Nothing that was allocated has changed. -/
theorem kept {after : Kernel} (keeps : KeepsObjects (fun _ => True) session.kernel after)
    (globals : after.toGlobals = session.kernel.toGlobals) : Spares booted volume ⟨after, session.files⟩ extentsOf spared where
  held := spares.held.refused keeps (congrArg Globals.fileDescriptors globals) (OnlyDescriptors.of_globals globals)
  owned := fun extent member => keeps.owns extent trivial (spares.owned extent member)
  volume := spares.volume
  files := spares.files

/-- A new array is spared as well. -/
theorem add {after : Kernel} (keeps : KeepsObjects (fun _ => True) session.kernel after)
    (globals : after.toGlobals = session.kernel.toGlobals) {pointer : Word} {array : Extent}
    (acquired : Acquired (fun _ => True) session.kernel after pointer array) :
    Spares booted volume ⟨after, session.files⟩ extentsOf (fun extent => spared extent ∨ extent = array) := by
  have later := spares.kept keeps globals
  refine ⟨later.held, ?_, ?_, ?_⟩
  · rintro extent (old | rfl)
    · exact later.owned extent old
    · exact acquired.owned
  · rintro extent (old | rfl)
    · exact spares.volume extent old
    · exact (acquired.fresh volume trivial spares.held.owned).symm
  · rintro extent (old | rfl) file member gone listed
    · exact spares.files extent old file member gone listed
    · have owned := (spares.held.tracked.entries file member).objects.owned gone listed
      exact (acquired.fresh gone trivial owned).symm

/-- An array is released. -/
theorem released {pointer : Word} {array : Extent} (member : spared array)
    (address : pointer = session.kernel.heap.addressOf array.first) :
    KeepsObjects (fun extent => extent.Apart array) session.kernel (kfree session.kernel pointer) ∧
      Spares booted volume ⟨kfree session.kernel pointer, session.files⟩ extentsOf
        (fun extent => spared extent ∧ extent.Apart array) := by
  have keeps := kfree_keepsApart spares.kernelHeap (spares.owned array member) address
  refine ⟨keeps, ?_, ?_, ?_, ?_⟩
  · refine spares.held.kept keeps (spares.volume array member).symm ?_ rfl (OnlyDescriptors.of_globals rfl)
    exact fun file listed gone inFile => (spares.files array member file listed gone inFile).symm
  · exact fun extent both => keeps.owns extent both.2 (spares.owned extent both.1)
  · exact fun extent both => spares.volume extent both.1
  · exact fun extent both => spares.files extent both.1

/-- A file is opened. -/
theorem fopen {path mode : List Byte} (apart : OpensApart session.kernel (.fopen path mode))
    (accepted : OpensAccepted session.kernel (.fopen path mode)) {opened : Int × Kernel}
    (opens : Fs.fopen session.kernel path mode = some opened) :
    KeepsObjects (fun _ => True) session.kernel opened.2 ∧
      exists later, Spares booted volume ⟨opened.2, session.book opened.1 (.fopen path mode)⟩ later spared := by
  have keeps := fopen_keeps spares.kernelHeap apart.1 opens
  rcases (spares.held.fopen apart accepted opens).held with ⟨later, held, extents⟩
  refine ⟨keeps, later, held, ?_, spares.volume, ?_⟩
  · exact fun extent member => keeps.owns extent trivial (spares.owned extent member)
  · intro extent member file listed gone inFile
    rcases extents file listed gone inFile with ⟨old, inOld⟩ | fresh
    · exact spares.files extent member file old gone inOld
    · exact fresh extent trivial (spares.owned extent member)

/-- A file is closed. -/
theorem fclose {fd : Int} (accepted : getFileDescriptor session.kernel fd ≠ 0#32) :
    KeepsObjects spared session.kernel (Fs.fclose session.kernel fd).2 ∧
      Spares booted volume ⟨(Fs.fclose session.kernel fd).2, withoutNumber session.files fd⟩ extentsOf spared := by
  rcases spares.held.listed accepted with ⟨descriptor, listed⟩
  have closes := (spares.held.entry listed).fclose_keeps spares.kernelHeap accepted
  have keeps := closes.mono fun extent member => spares.files extent member (fd, descriptor) listed
  refine ⟨keeps, (spares.held.closed accepted).1, ?_, spares.volume, ?_⟩
  · exact fun extent member => keeps.owns extent member (spares.owned extent member)
  · exact fun extent member file remains => spares.files extent member file (mem_withoutNumber.mp remains).1

/-- A file is used. -/
theorem used {after : Kernel} (same : SameFiles session.kernel after) (sameVolume : SameVolume session.kernel after)
    (disk : after.disk = session.kernel.disk) : Spares booted volume ⟨after, session.files⟩ extentsOf spared where
  held := spares.held.used same sameVolume disk
  owned := fun extent member => same.heap.symm ▸ spares.owned extent member
  volume := spares.volume
  files := spares.files

end Spares

/-! ## The names -/

/-- The name lies in an array of its own. -/
structure NameArray (kernel : Kernel) (str : Word) (path : List Byte) (array : Extent) : Prop where
  owned : kernel.heap.Owns array
  pointer : str = kernel.heap.addressOf array.first
  small : path.length < 2 ^ 32
  holds : HoldsText kernel.bytes str path
  inside : forall place, place ≤ path.length -> kernel.heap.InExtent array (str + BitVec.ofNat 32 place)

/-- An allocation that is kept. -/
theorem NameArray.keep {guard : Extent -> Prop} {kernel after : Kernel} {str : Word} {path : List Byte} {array : Extent}
    (named : NameArray kernel str path array) (keeps : KeepsObjects guard kernel after) (guarded : guard array) :
    NameArray after str path array where
  owned := keeps.owns array guarded named.owned
  pointer := named.pointer.trans (keeps.pool.addressOf array.first).symm
  small := named.small
  holds := named.holds.congr fun place below => (keeps.same array guarded named.owned _ (named.inside place below)).bytes
  inside := fun place below => keeps.pool.inExtent.mpr (named.inside place below)

/-- Every object has an array for its name. -/
structure Names (kernel : Kernel) (objects : Nat -> Option FileObject) (paths : Nat -> List Byte)
    (arrays : Nat -> Option Extent) : Prop where
  array : forall name file, objects name = some file ->
    exists extent, arrays name = some extent ∧ NameArray kernel file.name (paths name) extent
  absent : forall name, objects name = none -> arrays name = none
  apart : forall name other extent extent', arrays name = some extent -> arrays other = some extent' -> name ≠ other ->
    extent.Apart extent'

/-- The arrays of names. -/
def IsName (arrays : Nat -> Option Extent) (extent : Extent) : Prop := exists name, arrays name = some extent

namespace Names

variable {kernel after : Kernel} {objects : Nat -> Option FileObject} {paths : Nat -> List Byte}
  {arrays : Nat -> Option Extent} (names : Names kernel objects paths arrays)
include names

theorem keep {guard : Extent -> Prop} (keeps : KeepsObjects guard kernel after)
    (guarded : forall extent, IsName arrays extent -> guard extent) : Names after objects paths arrays where
  array := by
    intro name file here
    rcases names.array name file here with ⟨extent, has, named⟩
    exact ⟨extent, has, named.keep keeps (guarded extent ⟨name, has⟩)⟩
  absent := names.absent
  apart := names.apart

/-- Stores that spare the names. -/
theorem stored (heap : after.heap = kernel.heap)
    (bytes : forall name file, objects name = some file -> forall place, place ≤ (paths name).length ->
      after.bytes (file.name + BitVec.ofNat 32 place) = kernel.bytes (file.name + BitVec.ofNat 32 place)) :
    Names after objects paths arrays where
  array := by
    intro name file here
    rcases names.array name file here with ⟨extent, has, named⟩
    refine ⟨extent, has, ?_, ?_, named.small, named.holds.congr (bytes name file here), ?_⟩
    · rw [heap]
      exact named.owned
    · rw [heap]
      exact named.pointer
    · rw [heap]
      exact named.inside
  absent := names.absent
  apart := names.apart

theorem text {name : Nat} {file : FileObject} (here : objects name = some file) :
    cString kernel.bytes (2 ^ 32) file.name = paths name := by
  rcases names.array name file here with ⟨extent, _, named⟩
  exact named.holds.cString (Nat.le_of_lt named.small)

/-- A new object. -/
theorem construct {name : Nat} (new : objects name = none) {file : FileObject} {path : List Byte} {array : Extent}
    (named : NameArray kernel file.name path array)
    (apart : forall extent, IsName arrays extent -> extent.Apart array) :
    Names kernel (Function.update objects name (some file)) (Function.update paths name path)
      (Function.update arrays name (some array)) where
  array := by
    intro other found here
    by_cases same : other = name
    · subst same
      rw [Function.update_self] at here
      cases here
      rw [Function.update_self, Function.update_self]
      exact ⟨array, rfl, named⟩
    · rw [Function.update_of_ne same] at here
      rw [Function.update_of_ne same, Function.update_of_ne same]
      exact names.array other found here
  absent := by
    intro other none
    by_cases same : other = name
    · subst same
      rw [Function.update_self] at none
      exact absurd none (Option.some_ne_none file)
    · rw [Function.update_of_ne same] at none ⊢
      exact names.absent other none
  apart := by
    intro one other extent extent' holds holds' different
    rcases Leases.held_update holds with ⟨rfl, given⟩ | ⟨_, old⟩
    · rcases Leases.held_update holds' with ⟨rfl, _⟩ | ⟨_, old'⟩
      · exact absurd rfl different
      · cases given
        exact (apart extent' ⟨other, old'⟩).symm
    · rcases Leases.held_update holds' with ⟨rfl, given'⟩ | ⟨_, old'⟩
      · cases given'
        exact apart extent ⟨one, old⟩
      · exact names.apart one other extent extent' old old' different

/-- An object with the same name. -/
theorem replace {name : Nat} {file file' : FileObject} (here : objects name = some file) (same : file'.name = file.name) :
    Names kernel (Function.update objects name (some file')) paths arrays where
  array := by
    intro other found
    by_cases own : other = name
    · subst own
      rw [Function.update_self]
      rintro ⟨⟩
      rw [same]
      exact names.array other file here
    · rw [Function.update_of_ne own]
      exact names.array other found
  absent := by
    intro other none
    by_cases own : other = name
    · subst own
      rw [Function.update_self] at none
      exact absurd none (Option.some_ne_none file')
    · rw [Function.update_of_ne own] at none
      exact names.absent other none
  apart := names.apart

/-- An object goes, and its array with it. -/
theorem destroy {name : Nat} (keeps : forall extent, IsName (Function.update arrays name none) extent -> after.heap.Owns extent)
    (pool : kernel.heap.SamePool after.heap) (bytes : after.bytes = kernel.bytes) :
    Names after (Function.update objects name none) paths (Function.update arrays name none) where
  array := by
    intro other found here
    by_cases same : other = name
    · subst same
      rw [Function.update_self] at here
      cases here
    · rw [Function.update_of_ne same] at here
      rcases names.array other found here with ⟨extent, has, named⟩
      have has' : Function.update arrays name none other = some extent := (Function.update_of_ne same _ _).trans has
      refine ⟨extent, has', keeps extent ⟨other, has'⟩, named.pointer.trans (pool.addressOf _).symm, named.small, ?_, ?_⟩
      · rw [bytes]
        exact named.holds
      · exact fun place below => pool.inExtent.mpr (named.inside place below)
  absent := by
    intro other none
    by_cases same : other = name
    · subst same
      exact Function.update_self _ _ _
    · rw [Function.update_of_ne same] at none ⊢
      exact names.absent other none
  apart := by
    intro one other extent extent' holds holds' different
    rcases Leases.held_update holds with ⟨_, impossible⟩ | ⟨_, old⟩
    · cases impossible
    · rcases Leases.held_update holds' with ⟨_, impossible⟩ | ⟨_, old'⟩
      · cases impossible
      · exact names.apart one other extent extent' old old' different

end Names

/-! ## The numbers -/

/-- The numbers in the table are those of the objects that are open. -/
structure Numbers (numbers : List Int) (objects : Nat -> Option FileObject) : Prop where
  positive : forall fd, fd ∈ numbers -> 0 < fd
  listed : forall fd, fd ∈ numbers -> exists name file, objects name = some file ∧ file.fd = fd
  opened : forall name file, objects name = some file -> file.isOpen -> file.fd ∈ numbers ∧ file.mode = .read
  distinct : forall name other file file', objects name = some file -> objects other = some file' -> file.isOpen ->
    file.fd = file'.fd -> name = other
  closed : forall name file, objects name = some file -> ¬ file.isOpen -> file.fd = 0

/-- What an object is after an update. -/
theorem object_update {objects : Nat -> Option FileObject} {name other : Nat} {given : Option FileObject} {file : FileObject}
    (here : Function.update objects name given other = some file) :
    (other = name ∧ given = some file) ∨ (other ≠ name ∧ objects other = some file) := by
  by_cases same : other = name
  · rw [same, Function.update_self] at here
    exact Or.inl ⟨same, here⟩
  · rw [Function.update_of_ne same] at here
    exact Or.inr ⟨same, here⟩

theorem not_isOpen_of_zero {file : FileObject} (zero : file.fd = 0) : ¬ file.isOpen := by
  unfold FileObject.isOpen
  rw [zero]
  exact Int.lt_irrefl 0

namespace Numbers

variable {numbers later : List Int} {objects : Nat -> Option FileObject} (table : Numbers numbers objects) {name : Nat}
include table

/-- Nothing is open under the name, neither before nor after, but perhaps in the table. -/
theorem replace {given : Option FileObject} (zero : forall file, given = some file -> file.fd = 0)
    (fewer : forall fd, fd ∈ later -> fd ∈ numbers ∧ forall file, objects name = some file -> file.fd ≠ fd)
    (others : forall fd, fd ∈ numbers -> (forall file, objects name = some file -> file.isOpen -> file.fd ≠ fd) -> fd ∈ later) :
    Numbers later (Function.update objects name given) where
  positive := fun fd member => table.positive fd (fewer fd member).1
  listed := by
    intro fd member
    rcases table.listed fd (fewer fd member).1 with ⟨other, file, here, same⟩
    have different : other ≠ name := by
      rintro rfl
      exact (fewer fd member).2 file here same
    exact ⟨other, file, (Function.update_of_ne different _ _).trans here, same⟩
  opened := by
    intro other file here isOpen
    rcases object_update here with ⟨_, new⟩ | ⟨different, old⟩
    · exact absurd isOpen (not_isOpen_of_zero (zero file new))
    · rcases table.opened other file old isOpen with ⟨member, reads⟩
      refine ⟨others file.fd member fun own here' ownOpen same => different ?_, reads⟩
      exact (table.distinct name other own file here' old ownOpen same).symm
  distinct := by
    intro one other file file' here here' isOpen same
    rcases object_update here with ⟨_, new⟩ | ⟨different, old⟩
    · exact absurd isOpen (not_isOpen_of_zero (zero file new))
    · rcases object_update here' with ⟨_, new'⟩ | ⟨_, old'⟩
      · rw [FileObject.isOpen, same, zero file' new'] at isOpen
        exact absurd isOpen (Int.lt_irrefl 0)
      · exact table.distinct one other file file' old old' isOpen same
  closed := by
    intro other file here notOpen
    rcases object_update here with ⟨_, new⟩ | ⟨_, old⟩
    · exact zero file new
    · exact table.closed other file old notOpen

/-- An object without a number is replaced by another one. -/
theorem unopened {given : Option FileObject} (zero : forall file, given = some file -> file.fd = 0)
    (before : forall file, objects name = some file -> ¬ file.isOpen) : Numbers numbers (Function.update objects name given) := by
  apply table.replace zero
  · refine fun fd member => ⟨member, fun file here same => before file here ?_⟩
    rw [FileObject.isOpen, same]
    exact table.positive fd member
  · exact fun fd member _ => member

/-- An object is closed. -/
theorem closes {file : FileObject} (here : objects name = some file) {given : Option FileObject}
    (zero : forall file', given = some file' -> file'.fd = 0)
    (without : forall fd, fd ∈ later ↔ fd ∈ numbers ∧ fd ≠ file.fd) (isOpen : file.isOpen) :
    Numbers later (Function.update objects name given) := by
  apply table.replace zero
  · intro fd member
    refine ⟨((without fd).mp member).1, fun found same => ?_⟩
    cases here.symm.trans same
    exact fun equal => ((without fd).mp member).2 equal.symm
  · exact fun fd member different => (without fd).mpr ⟨member, fun equal => different file here isOpen equal.symm⟩

/-- An object is opened with a new number. -/
theorem opens {file file' : FileObject} (here : objects name = some file) (notOpen : ¬ file.isOpen)
    (fresh : file'.fd ∉ numbers) (reads : file'.mode = .read) (isOpen : file'.isOpen) :
    Numbers (file'.fd :: numbers) (Function.update objects name (some file')) where
  positive := by
    intro fd member
    rcases List.mem_cons.mp member with rfl | old
    · exact isOpen
    · exact table.positive fd old
  listed := by
    intro fd member
    rcases List.mem_cons.mp member with rfl | old
    · exact ⟨name, file', Function.update_self _ _ _, rfl⟩
    · rcases table.listed fd old with ⟨other, found, there, rfl⟩
      by_cases same : other = name
      · subst same
        cases here.symm.trans there
        exact absurd (table.positive file.fd old) notOpen
      · exact ⟨other, found, (Function.update_of_ne same _ _).trans there, rfl⟩
  opened := by
    intro other found there foundOpen
    rcases object_update there with ⟨_, new⟩ | ⟨_, old⟩
    · cases new
      exact ⟨List.mem_cons_self, reads⟩
    · rcases table.opened other found old foundOpen with ⟨member, readsOld⟩
      exact ⟨List.mem_cons_of_mem _ member, readsOld⟩
  distinct := by
    intro one other found found' there there' foundOpen same
    rcases object_update there with ⟨rfl, new⟩ | ⟨_, old⟩
    · rcases object_update there' with ⟨rfl, _⟩ | ⟨_, old'⟩
      · rfl
      · cases new
        have otherOpen : found'.isOpen := by
          unfold FileObject.isOpen
          rw [← same]
          exact isOpen
        exact absurd (same ▸ (table.opened other found' old' otherOpen).1) fresh
    · rcases object_update there' with ⟨rfl, new'⟩ | ⟨_, old'⟩
      · cases new'
        exact absurd (same ▸ (table.opened one found old foundOpen).1) fresh
      · exact table.distinct one other found found' old old' foundOpen same
  closed := by
    intro other found there foundClosed
    rcases object_update there with ⟨_, new⟩ | ⟨_, old⟩
    · cases new
      exact absurd isOpen foundClosed
    · exact table.closed other found old foundClosed

end Numbers

end Core
end LarvaOS
