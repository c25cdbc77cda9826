import LarvaOS.Fs.Fat16Frame
import LarvaOS.Fs.PathParser
import LarvaOS.Memory.Requests

namespace LarvaOS
namespace Fs

open Library Memory

/-!
# What parsing a path does

The parser skips the slashes before a component, copies the component and makes
a node for it.  A component that is refused is copied to address 0.  As long as
it ends below the entry table of the heap, the copy does no harm to an
allocation; the parser then releases nothing, and the nodes and copies stay.
-/

/-! ## Components -/

/-- The path from its first component on. -/
def fromComponent (path : List Byte) : List Byte := path.dropWhile (· = forwardSlash)

/-- The first component, which is empty when there is none. -/
def firstComponent (path : List Byte) : List Byte := (nextComponent (fromComponent path)).1

/-- The size of the copy of a component. -/
def copySize (component : List Byte) : Word := BitVec.ofNat 32 (component.length + 1)

/-- The copy of a component. -/
def copyComponent (kernel : Kernel) (component : List Byte × List Byte) : Prefix :=
  let path := kzalloc kernel (copySize component.1)
  ⟨path.1, component.1, component.2,
    if path.1 = 0#32 then storeThroughNull path.2 (component.1 ++ [0#8])
    else storeBytes path.2 path.1 (component.1 ++ [0#8])⟩

theorem fromComponent_cons {c : Byte} (notSlash : c ≠ forwardSlash) (following : List Byte) :
    fromComponent (c :: following) = c :: following := by
  rw [fromComponent, List.dropWhile_cons_of_neg]
  simpa using notSlash

theorem fromComponent_slash (following : List Byte) :
    fromComponent (forwardSlash :: following) = fromComponent following := by
  rw [fromComponent, List.dropWhile_cons_of_pos]
  · rfl
  · simp

theorem firstComponent_cons {c : Byte} (notSlash : c ≠ forwardSlash) (following : List Byte) :
    firstComponent (c :: following) ≠ [] := by
  rw [firstComponent, fromComponent_cons notSlash, nextComponent, List.takeWhile_cons_of_pos]
  · exact List.cons_ne_nil _ _
  · simpa using notSlash

theorem firstComponent_length (path : List Byte) : (firstComponent path).length ≤ path.length := by
  have taken := (List.takeWhile_prefix (fun c => c ≠ forwardSlash) (l := fromComponent path)).length_le
  have dropped := (List.dropWhile_suffix (fun c => c = forwardSlash) (l := path)).length_le
  exact Nat.le_trans taken dropped

theorem rest_length (path : List Byte) : (nextComponent (fromComponent path)).2.length ≤ path.length := by
  have later := (List.dropWhile_suffix (fun c => c ≠ forwardSlash) (l := fromComponent path)).length_le
  have dropped := (List.dropWhile_suffix (fun c => c = forwardSlash) (l := path)).length_le
  exact Nat.le_trans later dropped

/-- Without a component there is no copy, and otherwise the copy of the first
one. -/
theorem getAndRemovePrefixPath_eq (kernel : Kernel) (path : List Byte) :
    getAndRemovePrefixPath kernel path =
      if firstComponent path = [] then ⟨0#32, [], [], kernel⟩
      else copyComponent kernel (nextComponent (fromComponent path)) := by
  induction path with
  | nil => rfl
  | cons c following inductionHypothesis =>
      rw [getAndRemovePrefixPath]
      by_cases slash : c = forwardSlash
      · subst slash
        rw [if_pos rfl, inductionHypothesis, firstComponent, firstComponent, fromComponent_slash]
      · rw [if_neg slash, if_neg (firstComponent_cons slash following), fromComponent_cons slash]
        rfl

/-! ## Copies through a null pointer -/

/-- A copy that ends below the entry table changes no entry. -/
theorem entriesUnder_short (entries : Int -> Byte) {bytes : List Byte} (short : bytes.length ≤ entryTableAddress)
    (block : Nat) : entriesUnder entries bytes block = entries block := by
  unfold entriesUnder
  rw [if_pos (by omega), List.getElem?_eq_none (by omega)]
  rfl

variable {guard : Extent -> Prop} {first kernel : Kernel}

theorem storeThroughNull_requests (requests : Requests first kernel) {bytes : List Byte}
    (short : bytes.length ≤ entryTableAddress) : Requests first (storeThroughNull kernel bytes) where
  heap := requests.heap.stored _ (entriesUnder_short _ short)
  toGlobals := requests.toGlobals
  refused := requests.refused
  records := requests.records

/-- The memory below the kernel heap is fresh. -/
theorem freshRange_low (kernelHeap : first.heap.IsKernelHeap) : FreshRange guard first 0#32 0x01000000 := by
  intro address low extent _ _ inside
  have start : first.heap.startAddress.toNat = 0x01000000 := congrArg BitVec.toNat kernelHeap.start
  have above := inside.1
  rw [BitVec.sub_zero] at low
  omega

theorem storeThroughNull_keeps (kernelHeap : first.heap.IsKernelHeap) (keeps : KeepsObjects guard first kernel)
    {bytes : List Byte} (short : bytes.length ≤ entryTableAddress) :
    KeepsObjects guard first (storeThroughNull kernel bytes) := by
  have low : FreshRange guard first 0#32 bytes.length := (freshRange_low kernelHeap).mono (by
    unfold entryTableAddress at short
    omega)
  have stored := (ReadsFresh.stored ⟨Transferred.refl kernel, keeps⟩ low).keeps
  refine ⟨stored.pool.trans ⟨rfl, rfl⟩, fun extent guarded owned => ?_, stored.same⟩
  have before := keeps.owns extent guarded owned
  refine ⟨?_, before.within⟩
  have blocks := Heap.blocks_stored (entriesUnder_short kernel.heap.table.entries short)
  exact blocks.symm ▸ before.recorded

/-! ## Parsing -/

/-- The copy of the component ends below the entry table wherever it goes, or the heap
serves it. -/
def ComponentFits (kernel : Kernel) (component : List Byte) : Prop :=
  component.length < entryTableAddress ∨
    component.length + 1 < 2 ^ 32 ∧ (kzalloc kernel (copySize component)).1 ≠ 0#32

theorem copySize_toNat {component : List Byte} (small : component.length + 1 < 2 ^ 32) :
    (copySize component).toNat = component.length + 1 := by
  rw [copySize, BitVec.toNat_ofNat]
  exact Nat.mod_eq_of_lt small

theorem copyComponent_keeps (kernelHeap : first.heap.IsKernelHeap) (keeps : KeepsObjects guard first kernel)
    {component : List Byte × List Byte} (fits : ComponentFits kernel component.1) :
    KeepsObjects guard first (copyComponent kernel component).kernel := by
  have placed := kernelHeap.wellPlaced
  have allocated := keeps.kzalloc placed (copySize component.1)
  have length : (component.1 ++ [0#8]).length = component.1.length + 1 := List.length_append
  unfold copyComponent
  by_cases refused : (kzalloc kernel (copySize component.1)).1 = 0#32
  · simp only [refused, if_true]
    rcases fits with short | ⟨_, served⟩
    · exact storeThroughNull_keeps kernelHeap allocated (by omega)
    · exact absurd refused served
  · simp only [refused, if_false]
    rcases keeps.acquired placed refused with ⟨extent, acquired, enough, _⟩
    refine (ReadsFresh.stored ⟨Transferred.refl _, allocated⟩ ?_).keeps
    refine (acquired.freshRange placed allocated.pool).mono ?_
    have small : component.1.length + 1 < 2 ^ 32 := by
      rcases fits with short | ⟨small, _⟩
      · unfold entryTableAddress at short
        omega
      · exact small
    rw [copySize_toNat small] at enough
    omega

theorem copyComponent_requests (requests : Requests first kernel) {component : List Byte × List Byte}
    (fits : ComponentFits kernel component.1) : Requests first (copyComponent kernel component).kernel := by
  have length : (component.1 ++ [0#8]).length = component.1.length + 1 := List.length_append
  have allocated := requests.kzalloc (copySize component.1)
  unfold copyComponent
  by_cases refused : (kzalloc kernel (copySize component.1)).1 = 0#32
  · simp only [refused, if_true]
    rcases fits with short | ⟨_, served⟩
    · exact storeThroughNull_requests allocated (by omega)
    · exact absurd refused served
  · simp only [refused, if_false]
    exact allocated.withStore _ (by rfl)

theorem parseOnePathPart_rest (kernel : Kernel) (path : List Byte) :
    (parseOnePathPart kernel path).2.1.length ≤ path.length := by
  unfold parseOnePathPart
  rw [getAndRemovePrefixPath_eq]
  by_cases done : firstComponent path = []
  · simp only [done, if_true]
    exact Nat.zero_le _
  · simp only [done, if_false]
    have rest : (copyComponent kernel (nextComponent (fromComponent path))).rest.length ≤ path.length :=
      rest_length path
    split
    · exact rest
    · split
      · exact rest
      · exact rest

/-- What one step of the parser does to a guarded allocation, and to the heap. -/
theorem parseOnePathPart_keeps (kernelHeap : first.heap.IsKernelHeap) (keeps : KeepsObjects guard first kernel)
    (requests : Requests first kernel) {path : List Byte}
    (fits : firstComponent path ≠ [] -> ComponentFits kernel (firstComponent path)) :
    KeepsObjects guard first (parseOnePathPart kernel path).2.2 ∧ Requests first (parseOnePathPart kernel path).2.2 := by
  unfold parseOnePathPart
  rw [getAndRemovePrefixPath_eq]
  by_cases done : firstComponent path = []
  · simp only [done, if_true]
    exact ⟨keeps, requests⟩
  · simp only [done, if_false]
    have copied := copyComponent_keeps kernelHeap keeps (fits done)
    have requested := copyComponent_requests requests (fits done)
    by_cases refused : (copyComponent kernel (nextComponent (fromComponent path))).path = 0#32
    · simp only [refused, if_true]
      exact ⟨copied, requested⟩
    · simp only [refused, if_false]
      by_cases missing : (kzalloc (copyComponent kernel (nextComponent (fromComponent path))).kernel 8#32).1 = 0#32
      · simp only [missing, if_true]
        exact ⟨copied.kzalloc kernelHeap.wellPlaced 8#32, requested.kzalloc 8#32⟩
      · simp only [missing, if_false]
        exact ⟨copied.kzalloc kernelHeap.wellPlaced 8#32, requested.kzalloc 8#32⟩

/-- Every component that the parser gets to fits. -/
def PartsFit : Nat -> Kernel -> List Byte -> Prop
  | 0, _, _ => True
  | bytes + 1, kernel, path =>
      (firstComponent path ≠ [] -> ComponentFits kernel (firstComponent path)) ∧
        forall part rest after, parseOnePathPart kernel path = (some part, rest, after) -> PartsFit bytes after rest

/-- A path that ends below the entry table has short components only. -/
theorem partsFit_of_short (bytes : Nat) (kernel : Kernel) {path : List Byte} (short : path.length < entryTableAddress) :
    PartsFit bytes kernel path := by
  induction bytes generalizing kernel path with
  | zero => trivial
  | succ bytes inductionHypothesis =>
      refine ⟨fun _ => Or.inl (Nat.lt_of_le_of_lt (firstComponent_length path) short), fun part rest after parsed => ?_⟩
      have shorter := parseOnePathPart_rest kernel path
      rw [parsed] at shorter
      exact inductionHypothesis after (Nat.lt_of_le_of_lt shorter short)

theorem parseParts_keeps (kernelHeap : first.heap.IsKernelHeap) (bytes : Nat) (keeps : KeepsObjects guard first kernel)
    (requests : Requests first kernel) {path : List Byte} (fits : PartsFit bytes kernel path) :
    KeepsObjects guard first (parseParts bytes kernel path).2 ∧ Requests first (parseParts bytes kernel path).2 := by
  induction bytes generalizing kernel path with
  | zero => exact ⟨keeps, requests⟩
  | succ bytes inductionHypothesis =>
      rcases parseOnePathPart_keeps kernelHeap keeps requests fits.1 with ⟨kept, requested⟩
      have later := fits.2
      rw [parseParts]
      rcases parsed : parseOnePathPart kernel path with ⟨part, rest, after⟩
      rw [parsed] at kept requested later
      cases part with
      | none => exact ⟨kept, requested⟩
      | some part => exact inductionHypothesis kept requested (later part rest after rfl)

/-- The path has no component, or each of its components fits. -/
def PathFits (kernel : Kernel) (path : List Byte) : Prop :=
  pathFormatIsValid path = true -> PartsFit (path.length + 1) kernel path

theorem pathParse_keeps (kernelHeap : first.heap.IsKernelHeap) (keeps : KeepsObjects guard first kernel)
    (requests : Requests first kernel) {path : List Byte} (fits : PathFits kernel path) :
    KeepsObjects guard first (pathParse kernel path).2 ∧ Requests first (pathParse kernel path).2 := by
  unfold pathParse
  by_cases invalid : (!pathFormatIsValid path) = true
  · rw [if_pos invalid]
    exact ⟨keeps, requests⟩
  · rw [if_neg invalid]
    exact parseParts_keeps kernelHeap _ keeps requests (fits (by simpa using invalid))

/-! ## Paths that are served -/

theorem copyComponent_refused (kernel : Kernel) (component : List Byte × List Byte) :
    (copyComponent kernel component).kernel.refused = (kzalloc kernel (copySize component.1)).2.refused := by
  unfold copyComponent
  dsimp only
  split <;> rfl

/-- One step of the parser only counts refusals, and counts one for its component. -/
theorem parseOnePathPart_counts (kernel : Kernel) (path : List Byte) :
    kernel.refused ≤ (parseOnePathPart kernel path).2.2.refused ∧
      (path.length + 1 < 2 ^ 32 -> (parseOnePathPart kernel path).2.2.refused = kernel.refused ->
        firstComponent path ≠ [] -> ComponentFits kernel (firstComponent path)) := by
  unfold parseOnePathPart
  rw [getAndRemovePrefixPath_eq]
  by_cases done : firstComponent path = []
  · simp only [done, if_true]
    exact ⟨Nat.le_refl _, fun _ _ some => absurd rfl some⟩
  · simp only [done, if_false]
    have copied := copyComponent_refused kernel (nextComponent (fromComponent path))
    have counted := kzalloc_refused_count kernel (copySize (nextComponent (fromComponent path)).1)
    have length := firstComponent_length path
    generalize copyComponent kernel (nextComponent (fromComponent path)) = copy at *
    have node := ((Requests.refl copy.kernel).kzalloc 8#32).refused
    have whole (after : Kernel) (later : copy.kernel.refused ≤ after.refused) : kernel.refused ≤ after.refused ∧
        (path.length + 1 < 2 ^ 32 -> after.refused = kernel.refused -> ¬ firstComponent path = [] ->
          ComponentFits kernel (firstComponent path)) := by
      refine ⟨by omega, fun small same _ => Or.inr ⟨by omega, fun null => ?_⟩⟩
      rw [show (kzalloc kernel (copySize (nextComponent (fromComponent path)).1)).1 = 0#32 from null, if_pos rfl] at counted
      omega
    by_cases refused : copy.path = 0#32
    · simp only [refused, if_true]
      exact whole copy.kernel (Nat.le_refl _)
    · simp only [refused, if_false]
      by_cases missing : (kzalloc copy.kernel 8#32).1 = 0#32
      · simp only [missing, if_true]
        exact whole _ node
      · simp only [missing, if_false]
        exact whole _ node

theorem parseParts_counts (bytes : Nat) (kernel : Kernel) (path : List Byte) :
    kernel.refused ≤ (parseParts bytes kernel path).2.refused := by
  induction bytes generalizing kernel path with
  | zero => exact Nat.le_refl _
  | succ bytes inductionHypothesis =>
      have step := (parseOnePathPart_counts kernel path).1
      rw [parseParts]
      generalize parseOnePathPart kernel path = parsed at step ⊢
      rcases parsed with ⟨part, rest, after⟩
      cases part with
      | none => exact step
      | some part => exact Nat.le_trans step (inductionHypothesis after rest)

/-- When the heap serves every request, the components fit. -/
theorem partsFit_of_served (bytes : Nat) {kernel : Kernel} {path : List Byte} (small : path.length + 1 < 2 ^ 32)
    (served : (parseParts bytes kernel path).2.refused = kernel.refused) : PartsFit bytes kernel path := by
  induction bytes generalizing kernel path with
  | zero => trivial
  | succ bytes inductionHypothesis =>
      have step := parseOnePathPart_counts kernel path
      have shorter := parseOnePathPart_rest kernel path
      rw [parseParts] at served
      rcases parsed : parseOnePathPart kernel path with ⟨part, rest, after⟩
      rw [parsed] at step served shorter
      cases part with
      | none => exact ⟨step.2 small served, fun part rest' after' same => by rw [parsed] at same; cases same⟩
      | some part =>
          have later := parseParts_counts bytes after rest
          refine ⟨step.2 small (Nat.le_antisymm (Nat.le_trans later (Nat.le_of_eq served)) step.1),
            fun part' rest' after' same => ?_⟩
          rw [parsed] at same
          cases same
          exact inductionHypothesis (Nat.lt_of_le_of_lt (Nat.succ_le_succ shorter) small)
            (Nat.le_antisymm (Nat.le_trans (Nat.le_of_eq served) step.1) later)

theorem pathParse_counts (kernel : Kernel) (path : List Byte) : kernel.refused ≤ (pathParse kernel path).2.refused := by
  unfold pathParse
  split
  · exact Nat.le_refl _
  · exact parseParts_counts _ _ _

theorem pathFits_of_served {kernel : Kernel} {path : List Byte} (small : path.length + 1 < 2 ^ 32)
    (served : (pathParse kernel path).2.refused = kernel.refused) : PathFits kernel path := by
  intro valid
  unfold pathParse at served
  rw [valid] at served
  exact partsFit_of_served _ small served

end Fs
end LarvaOS
