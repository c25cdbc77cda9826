import LarvaOS.Fs.Fat16Requests
import LarvaOS.Fs.FileTable
import LarvaOS.Fs.PathSpec
import LarvaOS.Fs.ReadEnd
import LarvaOS.Library.Run

namespace LarvaOS
namespace Fs

open Disk Library Memory

/-!
# Runs of file calls

A client drives the file system by calls of five kinds.  A call that does not return
ends the run.  Whatever is called, and with whatever result, the pool of the kernel heap
stays where it is.
-/

/-! ## The pool of the heap -/

section Pool

variable {kernel : Kernel} (kernelHeap : kernel.heap.IsKernelHeap)
include kernelHeap

theorem kzalloc_kernelHeap (size : Word) : (kzalloc kernel size).2.heap.IsKernelHeap :=
  kernelHeap.samePool (keeps_kzalloc (fun _ => False) kernelHeap.wellPlaced size).pool

theorem copyComponent_kernelHeap (component : List Byte × List Byte) :
    (copyComponent kernel component).kernel.heap.IsKernelHeap := by
  have copy := kzalloc_kernelHeap kernelHeap (copySize component.1)
  unfold copyComponent
  generalize kzalloc kernel (copySize component.1) = path at *
  by_cases refused : path.1 = 0#32
  · simp only [refused, if_true]
    exact ⟨copy.start, copy.total⟩
  · simp only [refused, if_false]
    exact copy

theorem parseOnePathPart_kernelHeap (path : List Byte) : (parseOnePathPart kernel path).2.2.heap.IsKernelHeap := by
  unfold parseOnePathPart
  rw [getAndRemovePrefixPath_eq]
  by_cases done : firstComponent path = []
  · simp only [done, if_true]
    exact kernelHeap
  · simp only [done, if_false]
    have copied := copyComponent_kernelHeap kernelHeap (nextComponent (fromComponent path))
    have node := kzalloc_kernelHeap copied 8#32
    generalize copyComponent kernel (nextComponent (fromComponent path)) = copy at *
    generalize kzalloc copy.kernel 8#32 = part at *
    by_cases refused : copy.path = 0#32
    · simp only [refused, if_true]
      exact copied
    · by_cases missing : part.1 = 0#32
      · simp only [refused, missing, if_true, if_false]
        exact node
      · simp only [refused, missing, if_false]
        exact node

theorem parseParts_kernelHeap (bytes : Nat) (path : List Byte) : (parseParts bytes kernel path).2.heap.IsKernelHeap := by
  induction bytes generalizing kernel path with
  | zero => exact kernelHeap
  | succ bytes inductionHypothesis =>
      have one := parseOnePathPart_kernelHeap kernelHeap path
      rw [parseParts]
      rcases parsed : parseOnePathPart kernel path with ⟨part, rest, after⟩
      rw [parsed] at one
      cases part with
      | none => exact one
      | some part => exact inductionHypothesis one rest

theorem pathParse_kernelHeap (path : List Byte) : (pathParse kernel path).2.heap.IsKernelHeap := by
  unfold pathParse
  split
  · exact kernelHeap
  · exact parseParts_kernelHeap kernelHeap _ path

theorem openDescriptor_kernelHeap (p : Word) : (openDescriptor kernel p).2.heap.IsKernelHeap := by
  cases free : freeSlot kernel.fileDescriptors with
  | none =>
      rw [openDescriptor_full free]
      exact kernelHeap
  | some slot =>
      rw [openDescriptor_free free, bindDescriptor_heap]
      exact kzalloc_kernelHeap kernelHeap sizeofFileDescriptor

theorem fopen_kernelHeap {path mode : List Byte} {opened : Int × Kernel} (opens : fopen kernel path mode = some opened) :
    opened.2.heap.IsKernelHeap := by
  have parsed := pathParse_kernelHeap kernelHeap path
  unfold fopen at opens
  rcases result : pathParse kernel path with ⟨parts, after⟩
  rw [result] at opens parsed
  cases parts with
  | nil =>
      obtain rfl := Option.some.inj opens
      exact parsed
  | cons root next =>
      dsimp only at opens parsed
      split at opens
      · obtain rfl := Option.some.inj opens
        exact parsed
      · split at opens
        · obtain rfl := Option.some.inj opens
          exact parsed
        · rcases Option.map_eq_some_iff.mp opens with ⟨p, found, rfl⟩
          have later := parsed.samePool ((fat16Open_requests (Requests.refl after) found).heap.samePool parsed.wellPlaced)
          split
          · exact later
          · exact openDescriptor_kernelHeap later p.1

end Pool

/-! ## What a call for the status stores -/

section Storing

variable {first before : Kernel} (transferred : Transferred first before)
include transferred

theorem Transferred.storeBytes (address : Word) (bytes : List Byte) :
    Transferred first (Fs.storeBytes before address bytes) := transferred.trans (Transferred.stored before address bytes)

theorem Transferred.strcpy (d s : Word) : Transferred first (Fs.strcpy before d s) := transferred.storeBytes d _

theorem Transferred.copyField (d s : Word) (size : Nat) : Transferred first (Fs.copyField before d s size) :=
  transferred.storeBytes d _

end Storing

theorem fstat_transferred (kernel : Kernel) (fd : Int) (stat : Word) : Transferred kernel (fstat kernel fd stat).2 := by
  unfold fstat
  dsimp only
  by_cases refused : getFileDescriptor kernel fd = 0#32
  · rw [if_pos refused]
    exact Transferred.refl kernel
  · rw [if_neg refused]
    generalize (kernel.fileDescriptorRecords (getFileDescriptor kernel fd)).p = p
    unfold fat16Stat copyEntry
    by_cases other : (kernel.fatItems (kernel.fatFileDescriptors p).item).type ≠ FAT_ITEM_TYPE_FILE
    · rw [if_pos other]
      exact Transferred.refl kernel
    · rw [if_neg other]
      have named := ((Transferred.refl kernel).strcpy (stat + 4#32) (kernel.fatItems
        (kernel.fatFileDescriptors p).item).pointer).strcpy (stat + 12#32) ((kernel.fatItems
          (kernel.fatFileDescriptors p).item).pointer + 8#32)
      refine Transferred.copyField (Transferred.copyField (Transferred.copyField (Transferred.copyField
        (Transferred.copyField (Transferred.copyField (Transferred.copyField ?_ _ _ _) _ _ _) _ _ _) _ _ _) _ _ _) _ _ _)
          _ _ _
      split
      · exact named.storeBytes _ _
      · exact named.storeBytes _ _

theorem fstat_heap (kernel : Kernel) (fd : Int) (stat : Word) : (fstat kernel fd stat).2.heap = kernel.heap :=
  (fstat_transferred kernel fd stat).heap

/-! ## Calls -/

/-- A call of the file interface. -/
inductive FileCall where
  | fopen (fileName modeOfOperation : List Byte)
  | fread (fd : Int) (ptr size nmemb : Word)
  | fseek (fd offset : Int) (whence : SeekMode)
  | fstat (fd : Int) (stat : Word)
  | fclose (fd : Int)

/-- The result of a call that returns, and the kernel behind it. -/
def FileCall.run (kernel : Kernel) : FileCall -> Option (Int × Kernel)
  | .fopen fileName modeOfOperation => Fs.fopen kernel fileName modeOfOperation
  | .fread fd ptr size nmemb => Fs.fread kernel fd ptr size nmemb
  | .fseek fd offset whence => some (Fs.fseek kernel fd offset whence)
  | .fstat fd stat => some (Fs.fstat kernel fd stat)
  | .fclose fd => some (Fs.fclose kernel fd)

/-- One step of a run, which is over when a call does not return. -/
def callStep (state : Option Kernel) (call : FileCall) : Option Kernel :=
  state.bind fun kernel => (call.run kernel).map Prod.snd

theorem fseek_heap (kernel : Kernel) (fd offset : Int) (whence : SeekMode) :
    (fseek kernel fd offset whence).2.heap = kernel.heap := by
  unfold fseek fat16Seek
  dsimp only
  split
  · rfl
  · split
    · rfl
    · split
      · rfl
      · cases whence <;> rfl

theorem fclose_kernelHeap {kernel : Kernel} (kernelHeap : kernel.heap.IsKernelHeap) (fd : Int) :
    (fclose kernel fd).2.heap.IsKernelHeap := by
  unfold fclose
  dsimp only
  split
  · exact kernelHeap
  · have closed := kernelHeap.samePool ((fat16Close_requests (Requests.refl kernel)
      (kernel.fileDescriptorRecords (getFileDescriptor kernel fd)).p).heap.samePool kernelHeap.wellPlaced)
    generalize fat16Close kernel (kernel.fileDescriptorRecords (getFileDescriptor kernel fd)).p = after at *
    rw [← storeSlot_heap after ((after.fileDescriptorRecords (getFileDescriptor kernel fd)).index - 1) 0#32] at closed
    exact ⟨closed.start, closed.total⟩

/-- Every call keeps the pool. -/
theorem FileCall.run_kernelHeap {kernel : Kernel} (kernelHeap : kernel.heap.IsKernelHeap) (call : FileCall)
    {returned : Int × Kernel} (returns : call.run kernel = some returned) : returned.2.heap.IsKernelHeap := by
  cases call with
  | fopen fileName modeOfOperation => exact fopen_kernelHeap kernelHeap returns
  | fread fd ptr size nmemb =>
      rw [(fread_transferred returns).heap]
      exact kernelHeap
  | fseek fd offset whence =>
      obtain rfl := Option.some.inj returns
      rw [fseek_heap]
      exact kernelHeap
  | fstat fd stat =>
      obtain rfl := Option.some.inj returns
      rw [fstat_heap]
      exact kernelHeap
  | fclose fd =>
      obtain rfl := Option.some.inj returns
      exact fclose_kernelHeap kernelHeap fd

/-! ## Runs -/

/-- The property holds of every call of a run, in the kernel that it is made in. -/
def EveryCall (property : Kernel -> FileCall -> Prop) (kernel : Kernel) (calls : List FileCall) : Prop :=
  Run.Everywhere callStep (fun state call => forall current, state = some current -> property current call) (some kernel) calls

/-- The pool of a run that is not over. -/
def PoolKept (state : Option Kernel) : Prop := forall current, state = some current -> current.heap.IsKernelHeap

theorem PoolKept.callStep {state : Option Kernel} (pool : PoolKept state) (call : FileCall) :
    PoolKept (callStep state call) := by
  intro after same
  rcases Option.bind_eq_some_iff.mp same with ⟨current, here, returned⟩
  rcases Option.map_eq_some_iff.mp returned with ⟨result, returns, rfl⟩
  exact call.run_kernelHeap (pool current here) returns

end Fs
end LarvaOS
