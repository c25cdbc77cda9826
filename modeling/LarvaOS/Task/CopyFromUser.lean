import LarvaOS.Fs.PathParser
import LarvaOS.Library.PageWalk
import LarvaOS.Memory.PagingRefinement
import LarvaOS.Memory.Requests
import LarvaOS.Task.Task

namespace LarvaOS
namespace Tasks

open Fs Library Memory PageWalk

/-!
# Copying from a task

`copy_from_user` borrows a page of the kernel heap, maps it to itself in the address
space of the task, and copies a string into it while the directory of the task is
active.  A second copy takes the string to its destination under the directory of the
kernel.

Every access of the two copies goes through the active directory, and an access to a
page that is not present does not come back: the model has no result then.  A store
may hit any byte of memory, also one of a page table or of the entry table of the
heap.  The code, the stack, the global variables and the records of the kernel lie
outside of the memory that is modelled: a copy to a destination over one of these is
not described.
-/

/-! ## Bytes -/

/-- A word after a store to one of its bytes. -/
def setByte (word : Word) (place : Nat) (byte : Byte) : Word :=
  (word &&& ~~~(0xFF#32 <<< (8 * place))) ||| (byte.setWidth 32 <<< (8 * place))

/-- A store to one byte of the physical memory.  It is seen in the bytes, in the words of
the page structures and in the entry table of the heap.  It is not seen in the record of
the heap and the other global variables, nor in the records of tasks, processes and files,
and is hence that of the processor for a place outside of all these. -/
def storeByte (kernel : Kernel) (place : Word) (byte : Byte) : Kernel :=
  let stored := kernel.withStore
    { kernel.toStore with
      bytes := Function.update kernel.bytes place byte
      words := fun address =>
        if (place - address).toNat < 4 then setByte (kernel.words address) (place - address).toNat byte
        else kernel.words address }
  stored.withHeap
    (stored.heap.withEntries (Function.update stored.heap.table.entries (place.toNat - entryTableAddress : Int) byte))

/-- The physical address under the active directory. -/
def activePlace (kernel : Kernel) (address : Word) : Option Word :=
  translate kernel.words kernel.currentDirectory address

def loadByte (kernel : Kernel) (address : Word) : Option Byte := (activePlace kernel address).map kernel.bytes

/-- `d[count] = s[count]`. -/
def copyByte (kernel : Kernel) (d s : Word) : Option Kernel :=
  (loadByte kernel s).bind fun byte => (activePlace kernel d).map fun place => storeByte kernel place byte

/-- The loop of `strncpy`, from a count on. -/
def strncpyLoop (d s : Word) : Nat -> Nat -> Kernel -> Option Kernel
  | 0, _, kernel => some kernel
  | remaining + 1, count, kernel =>
      (copyByte kernel (d + BitVec.ofNat 32 count) (s + BitVec.ofNat 32 count)).bind fun copied =>
        (loadByte copied (s + BitVec.ofNat 32 count)).bind fun byte =>
          if byte = 0#8 then some copied else strncpyLoop d s remaining (count + 1) copied

/-- `strncpy`.  Nobody looks at the pointer that it returns. -/
def strncpy (kernel : Kernel) (d s n : Word) : Option Kernel :=
  if d = 0#32 ∨ s = 0#32 then some kernel else strncpyLoop d s (min n.toNat 255) 0 kernel

/-- `copy_from_user`. -/
def copyFromUser (kernel : Kernel) (task userPtr toPtr : Word) (size : Int) : Option (Int × Kernel) :=
  if size ≥ pagingPageSize then some (-EINVAL, kernel)
  else
    let tmp := kzalloc kernel (intToWord size)
    if tmp.1 = 0#32 then some (-ENOMEM, tmp.2)
    else
      let pageStructure := (tmp.2.tasks task).pageDirectory
      let oldEntry := pagingGetEntryOfAddress tmp.2 pageStructure tmp.1
      let mapped := pagingMapPage tmp.2 pageStructure tmp.1 tmp.1
        (PAGING_IS_WRITEABLE ||| PAGING_IS_PRESENT ||| PAGING_ACCESS_FROM_ALL)
      (strncpy (switchToPage mapped.2 pageStructure) tmp.1 userPtr (intToWord size)).bind fun read =>
        let restored := pagingSetEntryForVirtualAddress (switchToKernelPage read) pageStructure tmp.1 oldEntry
        if restored.1 < 0 then some (- EIO, kfree restored.2 tmp.1)
        else (strncpy restored.2 toPtr tmp.1 (intToWord size)).map fun copied => (restored.1, kfree copied tmp.1)

/-! ## What a copy changes -/

/-- Only bytes at some places were stored to. -/
structure StoresOnly (places : Word -> Prop) (before after : Kernel) : Prop where
  bytes : forall address, ¬ places address -> after.bytes address = before.bytes address
  words : forall address, (forall place, (place - address).toNat < 4 -> ¬ places place) ->
    after.words address = before.words address
  entries : forall j : Int, (forall place, places place -> j ≠ place.toNat - entryTableAddress) ->
    after.heap.table.entries j = before.heap.table.entries j
  pool : before.heap.SamePool after.heap
  views : after.toStore = { before.toStore with bytes := after.bytes, words := after.words }
  toGlobals : after.toGlobals = before.toGlobals

namespace StoresOnly

variable {places : Word -> Prop} {first before after : Kernel}

theorem refl (places : Word -> Prop) (kernel : Kernel) : StoresOnly places kernel kernel :=
  ⟨fun _ _ => rfl, fun _ _ => rfl, fun _ _ => rfl, Heap.SamePool.refl _, rfl, rfl⟩

theorem storeByte (only : StoresOnly places first before) {place : Word} (inside : places place) (byte : Byte) :
    StoresOnly places first (storeByte before place byte) where
  bytes := by
    intro address outside
    have different : address ≠ place := fun same => outside (same ▸ inside)
    exact (Function.update_of_ne different _ _).trans (only.bytes address outside)
  words := by
    intro address outside
    have away : ¬ (place - address).toNat < 4 := fun near => outside place near inside
    exact (if_neg away).trans (only.words address outside)
  entries := by
    intro j outside
    exact (Function.update_of_ne (outside place inside) _ _).trans (only.entries j outside)
  pool := ⟨only.pool.start, only.pool.total⟩
  views := by
    have views := only.views
    rw [Tasks.storeByte, Kernel.withHeap_toStore, Kernel.withStore_toStore, views]
  toGlobals := only.toGlobals

/-- The active directory stays active. -/
theorem currentDirectory (only : StoresOnly places before after) : after.currentDirectory = before.currentDirectory :=
  congrArg Globals.currentDirectory only.toGlobals

end StoresOnly

section Loop

variable {places : Word -> Prop} {first : Kernel} {d s : Word} {limit : Nat}

/-- A copy stores where its destination is translated to. -/
theorem strncpyLoop_storesOnly
    (writes : forall kernel, StoresOnly places first kernel -> forall count, count < limit -> forall place,
      activePlace kernel (d + BitVec.ofNat 32 count) = some place -> places place)
    {remaining count : Nat} {kernel after : Kernel} (bound : count + remaining ≤ limit)
    (only : StoresOnly places first kernel) (copies : strncpyLoop d s remaining count kernel = some after) :
    StoresOnly places first after := by
  induction remaining generalizing count kernel with
  | zero =>
      obtain rfl := Option.some.inj copies
      exact only
  | succ remaining inductionHypothesis =>
      rcases Option.bind_eq_some_iff.mp copies with ⟨copied, copying, rest⟩
      rcases Option.bind_eq_some_iff.mp copying with ⟨byte, _, storing⟩
      rcases Option.map_eq_some_iff.mp storing with ⟨place, translated, rfl⟩
      have only' := only.storeByte (writes kernel only count (by omega) place translated) byte
      rcases Option.bind_eq_some_iff.mp rest with ⟨last, _, goesOn⟩
      by_cases ends : last = 0#8
      · rw [if_pos ends] at goesOn
        obtain rfl := Option.some.inj goesOn
        exact only'
      · rw [if_neg ends] at goesOn
        exact inductionHypothesis (by omega) only' goesOn

/-- A copy between pages that are present comes back. -/
theorem strncpyLoop_isSome
    (writes : forall kernel, StoresOnly places first kernel -> forall count, count < limit ->
      exists place, activePlace kernel (d + BitVec.ofNat 32 count) = some place ∧ places place)
    (reads : forall kernel, StoresOnly places first kernel -> forall count, count < limit ->
      (activePlace kernel (s + BitVec.ofNat 32 count)).isSome)
    {remaining count : Nat} {kernel : Kernel} (bound : count + remaining ≤ limit)
    (only : StoresOnly places first kernel) : (strncpyLoop d s remaining count kernel).isSome := by
  induction remaining generalizing count kernel with
  | zero => rfl
  | succ remaining inductionHypothesis =>
      have inside : count < limit := by omega
      rcases Option.isSome_iff_exists.mp (reads kernel only count inside) with ⟨source, translated⟩
      rcases writes kernel only count inside with ⟨place, target, isPlace⟩
      have only' := only.storeByte isPlace (kernel.bytes source)
      rcases Option.isSome_iff_exists.mp (reads _ only' count inside) with ⟨again, translatedAgain⟩
      simp only [strncpyLoop, copyByte, loadByte, translated, target, translatedAgain, Option.map_some, Option.bind_some]
      split
      · rfl
      · exact inductionHypothesis (by omega) only'

/-- A copy from readable memory that it does not change takes over every byte up to
the first NUL. -/
theorem strncpyLoop_copies {target : Nat -> Word} {content : Nat -> Byte}
    (writes : forall kernel, StoresOnly places first kernel -> forall count, count < limit ->
      activePlace kernel (d + BitVec.ofNat 32 count) = some (target count))
    (inside : forall count, count < limit -> places (target count))
    (distinct : forall i j, i < limit -> j < limit -> target i = target j -> i = j)
    (reads : forall kernel, StoresOnly places first kernel -> forall count, count < limit ->
      (forall i, i < count -> content i ≠ 0#8) -> loadByte kernel (s + BitVec.ofNat 32 count) = some (content count))
    {remaining count : Nat} {kernel : Kernel} (bound : count + remaining = limit)
    (only : StoresOnly places first kernel) (goesOn : forall i, i < count -> content i ≠ 0#8)
    (done : forall i, i < count -> kernel.bytes (target i) = content i) :
    exists after, strncpyLoop d s remaining count kernel = some after ∧ StoresOnly places first after ∧
      forall i, i < limit -> (forall j, j < i -> content j ≠ 0#8) -> after.bytes (target i) = content i := by
  induction remaining generalizing count kernel with
  | zero => exact ⟨kernel, rfl, only, fun i below _ => done i (by omega)⟩
  | succ remaining inductionHypothesis =>
      have below : count < limit := by omega
      have load := reads kernel only count below goesOn
      have store := writes kernel only count below
      have only' := only.storeByte (inside count below) (content count)
      have again := reads _ only' count below goesOn
      have done' : forall i, i < count + 1 -> (storeByte kernel (target count) (content count)).bytes (target i) = content i := by
        intro i upTo
        by_cases last : i = count
        · rw [last]
          exact Function.update_self _ _ _
        · have different : target i ≠ target count := fun same => last (distinct i count (by omega) below same)
          exact (Function.update_of_ne different _ _).trans (done i (by omega))
      simp only [strncpyLoop, copyByte, load, store, again, Option.map_some, Option.bind_some]
      by_cases null : content count = 0#8
      · rw [if_pos null]
        refine ⟨_, rfl, only', fun i upTo before => done' i ?_⟩
        by_contra later
        exact before count (by omega) null
      · rw [if_neg null]
        refine inductionHypothesis (by omega) only' (fun i upTo => ?_) done'
        by_cases last : i = count
        · rw [last]
          exact null
        · exact goesOn i (by omega)

/-- What a copy stores to, from its first byte on. -/
theorem strncpy_storesOnly {n : Word} {after : Kernel}
    (writes : forall kernel, StoresOnly places first kernel -> forall count, count < min n.toNat 255 -> forall place,
      activePlace kernel (d + BitVec.ofNat 32 count) = some place -> places place)
    (copies : strncpy first d s n = some after) : StoresOnly places first after := by
  rw [strncpy] at copies
  split at copies
  · obtain rfl := Option.some.inj copies
    exact StoresOnly.refl places first
  · exact strncpyLoop_storesOnly writes (Nat.le_of_eq (Nat.zero_add _)) (StoresOnly.refl places first) copies

theorem strncpy_isSome {n : Word}
    (writes : forall kernel, StoresOnly places first kernel -> forall count, count < min n.toNat 255 ->
      exists place, activePlace kernel (d + BitVec.ofNat 32 count) = some place ∧ places place)
    (reads : forall kernel, StoresOnly places first kernel -> forall count, count < min n.toNat 255 ->
      (activePlace kernel (s + BitVec.ofNat 32 count)).isSome) : (strncpy first d s n).isSome := by
  rw [strncpy]
  split
  · rfl
  · exact strncpyLoop_isSome writes reads (Nat.le_of_eq (Nat.zero_add _)) (StoresOnly.refl places first)

/-- A copy of one byte. -/
theorem strncpy_one {kernel : Kernel} {source target : Word} (dNotNull : d ≠ 0#32) (sNotNull : s ≠ 0#32)
    (reads : activePlace kernel s = some source) (writes : activePlace kernel d = some target)
    (again : (activePlace (storeByte kernel target (kernel.bytes source)) s).isSome) :
    strncpy kernel d s 1#32 = some (storeByte kernel target (kernel.bytes source)) := by
  rcases Option.isSome_iff_exists.mp again with ⟨place, readsAgain⟩
  have start (pointer : Word) : pointer + BitVec.ofNat 32 0 = pointer := BitVec.add_zero pointer
  have one : min (1#32).toNat 255 = 1 := rfl
  rw [strncpy, if_neg (not_or.mpr ⟨dNotNull, sNotNull⟩), one]
  simp only [strncpyLoop, copyByte, loadByte, start, reads, writes, readsAgain, Option.map_some, Option.bind_some, ite_self]

end Loop

end Tasks
end LarvaOS
