import LarvaOS.Library.PageWord

namespace LarvaOS
namespace Library

/-!
# The walk through the page tables

A 32-bit processor finds the physical address for a virtual one in two steps.  The
upper bits select an entry of the directory, which refers to a table, and the bits
below them select an entry of the table, which refers to a page.  An access in ring 0
needs both entries to be present.  A store in ring 3 needs three bits of both.

The words of memory are a parameter, and the walk depends on two of them only.
-/

namespace PageWalk

/-- An entry of a directory or of a table. -/
def element (array : BitVec 32) (index : Nat) : BitVec 32 := array + BitVec.ofNat 32 (4 * index)

def present (entry : BitVec 32) : Bool := entry &&& 1#32 != 0#32

/-- The number of the directory entry for an address. -/
def directoryIndex (virt : BitVec 32) : Nat := virt.toNat / (1024 * 4096)

/-- The number of the table entry for an address. -/
def tableIndex (virt : BitVec 32) : Nat := virt.toNat % (1024 * 4096) / 4096

/-- The place of an address in the page that a table entry refers to. -/
def place (entry virt : BitVec 32) : Option (BitVec 32) :=
  if present entry then some ((entry &&& 0xfffff000#32) + BitVec.ofNat 32 (virt.toNat % 4096)) else none

/-- The physical address, unless the access faults. -/
def translate (words : BitVec 32 -> BitVec 32) (directory virt : BitVec 32) : Option (BitVec 32) :=
  let entry := words (element directory (directoryIndex virt))
  if present entry then place (words (element (entry &&& 0xfffff000#32) (tableIndex virt))) virt else none

/-- An entry is present, and lets ring 3 store to what it refers to. -/
def userEntry (entry : BitVec 32) : Bool := entry &&& 7#32 == 7#32

/-- A store in ring 3 does not fault. -/
def userWritable (words : BitVec 32 -> BitVec 32) (directory virt : BitVec 32) : Bool :=
  let entry := words (element directory (directoryIndex virt))
  userEntry entry && userEntry (words (element (entry &&& 0xfffff000#32) (tableIndex virt)))

/-- An entry is present, and lets ring 3 read what it refers to. -/
def userReads (entry : BitVec 32) : Bool := entry &&& 5#32 == 5#32

/-- A read in ring 3 does not fault. -/
def userReadable (words : BitVec 32 -> BitVec 32) (directory virt : BitVec 32) : Bool :=
  let entry := words (element directory (directoryIndex virt))
  userReads entry && userReads (words (element (entry &&& 0xfffff000#32) (tableIndex virt)))

theorem directoryIndex_lt (virt : BitVec 32) : directoryIndex virt < 1024 := by
  have bound := virt.isLt
  unfold directoryIndex
  omega

theorem tableIndex_lt (virt : BitVec 32) : tableIndex virt < 1024 := by
  unfold tableIndex
  omega

theorem present_or (entry flags : BitVec 32) (isPresent : present flags = true) : present (entry ||| flags) = true := by
  have bit : (flags &&& 1#32) ≠ 0#32 := bne_iff_ne.mp isPresent
  refine bne_iff_ne.mpr fun none => bit ?_
  apply BitVec.eq_of_getLsbD_eq
  intro i inside
  have zero := congrArg (fun word => word.getLsbD i) none
  simp only [BitVec.getLsbD_and, BitVec.getLsbD_or, BitVec.getLsbD_zero] at zero ⊢
  cases one : (1#32).getLsbD i with
  | false => rw [Bool.and_false]
  | true =>
      rw [one, Bool.and_true] at zero
      rw [(Bool.or_eq_false_iff.mp zero).2, Bool.false_and]

/-- The place in a page that is present. -/
theorem place_page {page flags : BitVec 32} (virt : BitVec 32) (aligned : page.toNat % 4096 = 0)
    (low : flags.toNat < 4096) (isPresent : present flags = true) :
    place (page ||| flags) virt = some (page + BitVec.ofNat 32 (virt.toNat % 4096)) := by
  rw [place, if_pos (present_or page flags isPresent), PageWord.mask_or page flags aligned low]

/-- Whether ring 3 can store to a page is in the flags. -/
theorem userEntry_page {page flags : BitVec 32} (aligned : page.toNat % 4096 = 0) (low : flags.toNat < 4096) :
    userEntry (page ||| flags) = userEntry flags := by
  rw [userEntry, userEntry, PageWord.low_or page flags aligned low]

theorem userReads_low (entry : BitVec 32) : userReads (entry &&& 7#32) = userReads entry := by
  rw [userReads, userReads, BitVec.and_assoc]
  rfl

theorem userReads_page {page flags : BitVec 32} (aligned : page.toNat % 4096 = 0) (low : flags.toNat < 4096) :
    userReads (page ||| flags) = userReads flags := by
  rw [← userReads_low, PageWord.low_or page flags aligned low, userReads_low]

/-- A page that is mapped to itself. -/
theorem place_self {virt flags : BitVec 32} (low : flags.toNat < 4096) (isPresent : present flags = true) :
    place (BitVec.ofNat 32 (virt.toNat / 4096 * 4096) ||| flags) virt = some virt := by
  have bound := virt.isLt
  have page : (BitVec.ofNat 32 (virt.toNat / 4096 * 4096)).toNat = virt.toNat / 4096 * 4096 := by
    rw [BitVec.toNat_ofNat]
    omega
  rw [place_page virt (by rw [page]; omega) low isPresent, ← BitVec.ofNat_add, Nat.div_add_mod', BitVec.ofNat_toNat,
    BitVec.setWidth_eq]

/-- The walk through a directory entry that refers to a table. -/
theorem translate_table {words : BitVec 32 -> BitVec 32} {directory virt table flags : BitVec 32}
    (entry : words (element directory (directoryIndex virt)) = (table ||| flags)) (aligned : table.toNat % 4096 = 0)
    (low : flags.toNat < 4096) (isPresent : present flags = true) :
    translate words directory virt = place (words (element table (tableIndex virt))) virt := by
  simp only [translate, entry]
  rw [if_pos (present_or table flags isPresent), PageWord.mask_or table flags aligned low]

section Table

variable {words : BitVec 32 -> BitVec 32} {directory virt table flags : BitVec 32}
  (entry : words (element directory (directoryIndex virt)) = (table ||| flags)) (aligned : table.toNat % 4096 = 0)
  (low : flags.toNat < 4096)
include entry aligned low

/-- A store in ring 3 needs the flags of both entries. -/
theorem userWritable_table :
    userWritable words directory virt = (userEntry flags && userEntry (words (element table (tableIndex virt)))) := by
  simp only [userWritable, entry]
  rw [userEntry_page aligned low, PageWord.mask_or table flags aligned low]

theorem userReadable_table :
    userReadable words directory virt = (userReads flags && userReads (words (element table (tableIndex virt)))) := by
  simp only [userReadable, entry]
  rw [userReads_page aligned low, PageWord.mask_or table flags aligned low]

end Table

/-- Ring 3 needs the flags of the table entry. -/
theorem userEntry_of_userWritable {words : BitVec 32 -> BitVec 32} {directory virt table flags : BitVec 32}
    (entry : words (element directory (directoryIndex virt)) = (table ||| flags)) (aligned : table.toNat % 4096 = 0)
    (low : flags.toNat < 4096) (writable : userWritable words directory virt = true) :
    userEntry (words (element table (tableIndex virt))) = true := by
  have both := (Bool.and_eq_true _ _).mp writable
  rw [entry, PageWord.mask_or table flags aligned low] at both
  exact both.2

end PageWalk

end Library
end LarvaOS
