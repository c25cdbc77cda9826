import LarvaOS.Fs.Fat16Volume

namespace LarvaOS
namespace Fs

open Memory

/-!
# Parsing a path

A path becomes a list of nodes, each with a copy of one component.  The list
of nodes in memory is a list here; every node and every copy is an allocation
of its own, and nothing releases them.

A copy that the heap refuses is written to address 0.  The entry table of the
kernel heap lies at `0x7E00`, within reach of a long component.
-/

def FILESYSTEM_MAX_PATH_LENGTH : Nat := 100

def forwardSlash : Byte := 0x2F#8

/-- `struct path_part`, with its address and the string that `part` points to. -/
structure PathPart where
  address : Word
  part : Word
  text : List Byte
deriving DecidableEq

/-- `path_format_is_valid`: the path begins with the root path. -/
def pathFormatIsValid (filename : List Byte) : Bool := filename.head? == some forwardSlash

/-- The address of the entry table of the kernel heap. -/
def entryTableAddress : Nat := 0x7E00

/-- The entries of a heap table after bytes were stored from address 0 on. -/
def entriesUnder (entries : Int -> Byte) (bytes : List Byte) : Int -> Byte := fun block =>
  if 0 ≤ block + entryTableAddress then (bytes[(block + entryTableAddress).toNat]?).getD (entries block)
  else entries block

/-- A copy through a null pointer. -/
def storeThroughNull (kernel : Kernel) (bytes : List Byte) : Kernel :=
  let stored := storeBytes kernel 0#32 bytes
  stored.withHeap (stored.heap.withEntries (entriesUnder stored.heap.table.entries bytes))

/-- The component that a path begins with, and what follows it. -/
def nextComponent (path : List Byte) : List Byte × List Byte :=
  (path.takeWhile (· ≠ forwardSlash), path.dropWhile (· ≠ forwardSlash))

/-- What `get_and_remove_prefix_path` comes to: the copy of the component with
its text, and what is left of the path. -/
structure Prefix where
  path : Word
  text : List Byte
  rest : List Byte
  kernel : Kernel

/-- `get_and_remove_prefix_path`.  It calls itself to skip a slash. -/
def getAndRemovePrefixPath (kernel : Kernel) : List Byte -> Prefix
  | [] => ⟨0#32, [], [], kernel⟩
  | c :: following =>
      if c = forwardSlash then getAndRemovePrefixPath kernel following
      else
        let component := nextComponent (c :: following)
        let path := kzalloc kernel (BitVec.ofNat 32 (component.1.length + 1))
        let copied :=
          if path.1 = 0#32 then storeThroughNull path.2 (component.1 ++ [0#8])
          else storeBytes path.2 path.1 (component.1 ++ [0#8])
        ⟨path.1, component.1, component.2, copied⟩

/-- `parse_one_path_part`: the node, what is left of the path, and the kernel. -/
def parseOnePathPart (kernel : Kernel) (path : List Byte) : Option PathPart × List Byte × Kernel :=
  let prefixPath := getAndRemovePrefixPath kernel path
  if prefixPath.path = 0#32 then (none, prefixPath.rest, prefixPath.kernel)
  else
    let part := kzalloc prefixPath.kernel 8#32
    if part.1 = 0#32 then (none, prefixPath.rest, part.2)
    else (some ⟨part.1, prefixPath.path, prefixPath.text⟩, prefixPath.rest, part.2)

/-- The nodes that are parsed before the first null pointer.  Every node takes
a byte of the path at least. -/
def parseParts : Nat -> Kernel -> List Byte -> List PathPart × Kernel
  | 0, kernel, _ => ([], kernel)
  | bytes + 1, kernel, path =>
      match parseOnePathPart kernel path with
      | (none, _, kernel) => ([], kernel)
      | (some part, rest, kernel) =>
          let parts := parseParts bytes kernel rest
          (part :: parts.1, parts.2)

/-- `path_parse`.  The empty list is the null pointer. -/
def pathParse (kernel : Kernel) (path : List Byte) : List PathPart × Kernel :=
  if !pathFormatIsValid path then ([], kernel) else parseParts (path.length + 1) kernel path

end Fs
end LarvaOS
