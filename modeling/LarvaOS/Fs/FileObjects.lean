import LarvaOS.Fs.OpenClose
import LarvaOS.Memory.Allocations

namespace LarvaOS
namespace Fs

open Memory

/-!
# What the release of an item follows

The item of a file has one pointer behind it, that of a directory has the record of the
directory and its slots.  The releases of the source follow these pointers from the
outermost object inwards.
-/

/-- The pointers that `fat16_free_directory` follows. -/
def directoryObjects (kernel : Kernel) (directory : Word) : List Word :=
  if directory = 0#32 then []
  else if (kernel.fatDirectories directory).item = 0#32 then [directory]
  else [(kernel.fatDirectories directory).item, directory]

/-- The pointers behind an item. -/
def contentObjects (kernel : Kernel) (record : FatItem) : List Word :=
  if record.type = FAT_ITEM_TYPE_DIRECTORY then directoryObjects kernel record.pointer
  else if record.type = FAT_ITEM_TYPE_FILE then [record.pointer]
  else []

/-- The pointers that `fat16_fat_item_free` follows. -/
def itemObjects (kernel : Kernel) (item : Word) : List Word :=
  if item = 0#32 then [] else contentObjects kernel (kernel.fatItems item) ++ [item]

theorem fat16FreeDirectory_eq (kernel : Kernel) (directory : Word) :
    fat16FreeDirectory kernel directory = releaseAll kernel (directoryObjects kernel directory) := by
  unfold fat16FreeDirectory directoryObjects
  by_cases null : directory = 0#32
  · rw [if_pos null, if_pos null]
    rfl
  · rw [if_neg null, if_neg null]
    by_cases none : (kernel.fatDirectories directory).item = 0#32
    · simp only [none, ne_eq, not_true_eq_false, if_false, if_true]
      rfl
    · simp only [none, ne_eq, not_false_eq_true, if_true, if_false]
      rfl

theorem fat16FatItemFree_eq (kernel : Kernel) (item : Word) :
    fat16FatItemFree kernel item = releaseAll kernel (itemObjects kernel item) := by
  unfold fat16FatItemFree itemObjects contentObjects
  by_cases null : item = 0#32
  · rw [if_pos null, if_pos null]
    rfl
  · rw [if_neg null, if_neg null, releaseAll_append]
    by_cases directory : (kernel.fatItems item).type = FAT_ITEM_TYPE_DIRECTORY
    · simp only [directory, if_true, fat16FreeDirectory_eq]
      rfl
    · by_cases file : (kernel.fatItems item).type = FAT_ITEM_TYPE_FILE
      · simp only [file, file_ne_directory, if_true, if_false]
        rfl
      · simp only [directory, file, if_false]
        rfl

end Fs
end LarvaOS
