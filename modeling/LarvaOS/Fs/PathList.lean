import Mathlib.Data.List.TakeWhile
import LarvaOS.Fs.Fat16Resolve
import LarvaOS.Fs.PathSpec
import LarvaOS.Memory.Allocations

namespace LarvaOS
namespace Fs

open Library Memory

/-!
# The list of a path

As long as no request is refused, the parser makes one node for each maximal
piece of the path without a slash, in order, and each piece is copied to an
allocation of its own.

`free_root_path` releases the copy and the node of every part but the first, of
which it releases the node alone.
-/

/-! ## Components -/

/-- The maximal pieces without a slash that are not empty. -/
def components (path : List Byte) : List (List Byte) := (path.splitOn forwardSlash).filter (· ≠ [])

theorem components_slash (following : List Byte) : components (forwardSlash :: following) = components following := by
  unfold components
  rw [List.splitOn_cons_eq_if_modifyHead, if_pos (beq_self_eq_true forwardSlash), List.filter_cons_of_neg]
  simp

theorem components_slashes (count : Nat) (path : List Byte) :
    components (List.replicate count forwardSlash ++ path) = components path := by
  induction count with
  | zero => rfl
  | succ count inductionHypothesis =>
      rw [List.replicate_succ, List.cons_append, components_slash]
      exact inductionHypothesis

theorem components_fromComponent (path : List Byte) : components (fromComponent path) = components path := by
  induction path with
  | nil => rfl
  | cons c following inductionHypothesis =>
      by_cases slash : c = forwardSlash
      · subst slash
        rw [fromComponent_slash, components_slash]
        exact inductionHypothesis
      · rw [fromComponent_cons slash]

/-- A component has no slash. -/
theorem not_mem_firstComponent (path : List Byte) : forwardSlash ∉ firstComponent path := by
  intro member
  have notSlash := List.mem_takeWhile_imp (p := fun c => decide (c ≠ forwardSlash)) member
  exact absurd rfl (of_decide_eq_true notSlash)

/-- Nothing is left of a path without a component. -/
theorem fromComponent_eq_nil {path : List Byte} (none : firstComponent path = []) : fromComponent path = [] := by
  cases found : fromComponent path with
  | nil => rfl
  | cons c following =>
      have notSlash : c ≠ forwardSlash := by
        have first := List.head?_dropWhile_not (fun c => decide (c = forwardSlash)) path
        have head : (path.dropWhile fun c => decide (c = forwardSlash)).head? = some c := by
          change (fromComponent path).head? = some c
          rw [found]
          rfl
        rw [head] at first
        exact of_decide_eq_false first
      have nonempty := firstComponent_cons notSlash following
      rw [firstComponent, fromComponent_cons notSlash] at nonempty
      rw [firstComponent, found] at none
      exact absurd none nonempty

/-- What follows a component is nothing, or begins with a slash. -/
theorem rest_cases (path : List Byte) : (nextComponent path).2 = [] ∨
    exists following, (nextComponent path).2 = forwardSlash :: following := by
  cases rest : (nextComponent path).2 with
  | nil => exact Or.inl rfl
  | cons c following =>
      have first := List.head?_dropWhile_not (fun c => decide (c ≠ forwardSlash)) path
      have head : (path.dropWhile fun c => decide (c ≠ forwardSlash)).head? = some c := by
        change (nextComponent path).2.head? = some c
        rw [rest]
        rfl
      rw [head] at first
      have slash : c = forwardSlash := not_not.mp (of_decide_eq_false first)
      exact Or.inr ⟨following, slash ▸ rfl⟩

/-- The first component and what follows it. -/
theorem components_eq (path : List Byte) :
    components path =
      if firstComponent path = [] then []
      else firstComponent path :: components (nextComponent (fromComponent path)).2 := by
  rw [← components_fromComponent]
  by_cases none : firstComponent path = []
  · rw [if_pos none, fromComponent_eq_nil none]
    rfl
  · rw [if_neg none]
    have whole : firstComponent path ++ (nextComponent (fromComponent path)).2 = fromComponent path :=
      List.takeWhile_append_dropWhile
    have plain := not_mem_firstComponent path
    rcases rest_cases (fromComponent path) with ends | ⟨following, slash⟩
    · rw [ends, List.append_nil] at whole
      rw [ends, ← whole]
      unfold components
      rw [List.splitOn_eq_singleton plain]
      exact List.filter_cons_of_pos (decide_eq_true none)
    · rw [slash] at whole
      rw [slash, ← whole, components_slash]
      unfold components
      rw [List.splitOn_append_cons_self_of_not_mem plain]
      exact List.filter_cons_of_pos (decide_eq_true none)

/-- A path has no component exactly when it has nothing but slashes. -/
theorem components_eq_nil_iff (path : List Byte) : components path = [] ↔ forall c, c ∈ path -> c = forwardSlash := by
  rw [components_eq]
  constructor
  · intro empty
    by_cases none : firstComponent path = []
    · have slashes := List.dropWhile_eq_nil_iff.mp (fromComponent_eq_nil none)
      exact fun c member => of_decide_eq_true (slashes c member)
    · rw [if_neg none] at empty
      exact absurd empty (List.cons_ne_nil _ _)
  · intro slashes
    have empty : fromComponent path = [] :=
      List.dropWhile_eq_nil_iff.mpr fun c member => decide_eq_true (slashes c member)
    have none : firstComponent path = [] := by
      rw [firstComponent, empty]
      rfl
    rw [if_pos none]

/-! ## Parsing -/

/-- The bytes from an address on are those of the text, up to the NUL. -/
def StringAt (kernel : Kernel) (address : Word) (text : List Byte) : Prop :=
  forall place, place ≤ text.length -> kernel.bytes (address + BitVec.ofNat 32 place) = (text ++ [0#8]).getD place 0#8

/-- The copy of a component lies in an extent. -/
structure Copied (kernel : Kernel) (part : PathPart) (extent : Extent) : Prop where
  owned : kernel.heap.Owns extent
  address : part.part = kernel.heap.addressOf extent.first
  enough : part.text.length < heapBlockSizeBytes * extent.count
  string : StringAt kernel part.part part.text

theorem Copied.keep {kernel after : Kernel} {part : PathPart} {extent : Extent} (copied : Copied kernel part extent)
    (placed : kernel.heap.WellPlaced) (keeps : KeepsObjects (fun _ => True) kernel after) : Copied after part extent := by
  refine ⟨keeps.owns extent trivial copied.owned, copied.address.trans (keeps.pool.addressOf _).symm, copied.enough, ?_⟩
  intro place inside
  rw [← copied.string place inside]
  refine (keeps.same extent trivial copied.owned _ (placed.inExtent_of_page copied.owned ?_)).bytes
  have within := copied.owned.within
  have fits := placed.fits
  have enough := copied.enough
  rw [copied.address, BitVec.add_comm, BitVec.add_sub_cancel, BitVec.toNat_ofNat]
  unfold heapBlockSizeBytes at *
  omega

/-- The pointers of a list of parts. -/
def partObjects (parts : List PathPart) : List Word := parts.flatMap fun part => [part.part, part.address]

/-- A copy that is served. -/
theorem copyComponent_served {kernel : Kernel} (placed : kernel.heap.WellPlaced) {component : List Byte × List Byte}
    (fits : component.1.length < 2 ^ 32 - 1) (served : (copyComponent kernel component).path ≠ 0#32) :
    KeepsObjects (fun _ => True) kernel (copyComponent kernel component).kernel ∧ exists copy,
      Acquired (fun _ => True) kernel (copyComponent kernel component).kernel (copyComponent kernel component).path copy ∧
        component.1.length < heapBlockSizeBytes * copy.count ∧
          StringAt (copyComponent kernel component).kernel (copyComponent kernel component).path component.1 := by
  have length : (component.1 ++ [0#8]).length = component.1.length + 1 := List.length_append
  have size : (copySize component.1).toNat = component.1.length + 1 := by
    rw [copySize, BitVec.toNat_ofNat]
    omega
  unfold copyComponent at *
  dsimp only at served ⊢
  rw [if_neg served]
  rcases (KeepsObjects.refl (fun _ => True) kernel).acquired placed served with ⟨copy, acquired, enough, _⟩
  have allocated := (KeepsObjects.refl (fun _ => True) kernel).kzalloc placed (copySize component.1)
  have fresh := acquired.freshRange placed allocated.pool
  generalize kzalloc kernel (copySize component.1) = path at *
  refine ⟨(ReadsFresh.stored ⟨Transferred.refl _, allocated⟩ (fresh.mono (by omega))).keeps, copy,
    acquired.of_heap (storeBytes_heap _ _ _), by omega, fun place inside => ?_⟩
  have offset : (path.1 + BitVec.ofNat 32 place - path.1).toNat = place := by
    rw [BitVec.add_comm, BitVec.add_sub_cancel, BitVec.toNat_ofNat]
    omega
  have below : place < (component.1 ++ [0#8]).length := by omega
  rw [storeBytes_bytes, offset, List.getElem?_eq_getElem below, List.getD_eq_getElem?_getD,
    List.getElem?_eq_getElem below]
  rfl

/-- A part that was made has two allocations of its own, and its copy holds the
first component. -/
theorem parseOnePathPart_made {kernel after : Kernel} (placed : kernel.heap.WellPlaced) {path rest : List Byte}
    (fits : path.length < 2 ^ 32 - 1) {part : PathPart} (parsed : parseOnePathPart kernel path = (some part, rest, after)) :
    firstComponent path ≠ [] ∧ part.text = firstComponent path ∧ rest = (nextComponent (fromComponent path)).2 ∧
      KeepsObjects (fun _ => True) kernel after ∧
        exists copy node, Copied after part copy ∧ Gained kernel after [part.part, part.address] [copy, node] := by
  unfold parseOnePathPart at parsed
  rw [getAndRemovePrefixPath_eq] at parsed
  by_cases done : firstComponent path = []
  · rw [if_pos done] at parsed
    cases congrArg Prod.fst parsed
  · rw [if_neg done] at parsed
    have shorter : (nextComponent (fromComponent path)).1.length < 2 ^ 32 - 1 :=
      Nat.lt_of_le_of_lt (firstComponent_length path) fits
    have copied := copyComponent_served placed shorter
    have text : (copyComponent kernel (nextComponent (fromComponent path))).text = firstComponent path := rfl
    have left : (copyComponent kernel (nextComponent (fromComponent path))).rest =
        (nextComponent (fromComponent path)).2 := rfl
    have component : (nextComponent (fromComponent path)).1 = firstComponent path := rfl
    rw [component] at copied
    generalize copyComponent kernel (nextComponent (fromComponent path)) = copy at *
    by_cases refused : copy.path = 0#32
    · simp only [refused, if_true] at parsed
      cases congrArg Prod.fst parsed
    · rcases copied refused with ⟨keeps, extent, acquired, enough, string⟩
      have current := keeps.pool.wellPlaced placed
      simp only [refused, if_false] at parsed
      by_cases missing : (kzalloc copy.kernel 8#32).1 = 0#32
      · simp only [missing, if_true] at parsed
        cases congrArg Prod.fst parsed
      · simp only [missing, if_false] at parsed
        rcases (KeepsObjects.refl (fun _ => True) copy.kernel).acquired current missing with ⟨node, nodeAcquired, _⟩
        have later := (KeepsObjects.refl (fun _ => True) copy.kernel).kzalloc current 8#32
        obtain rfl := congrArg (fun result => result.2.1) parsed
        obtain rfl := congrArg (fun result => result.2.2) parsed
        obtain rfl := Option.some.inj (congrArg Prod.fst parsed)
        have held : Copied copy.kernel ⟨(kzalloc copy.kernel 8#32).1, copy.path, copy.text⟩ extent := by
          refine ⟨acquired.owned, acquired.address, ?_, ?_⟩
          · rw [text]
            exact enough
          · rw [text]
            exact string
        exact ⟨done, text, left, keeps.trans later, extent, node, held.keep current later,
          (Gained.of_acquired acquired).append keeps later (Gained.of_acquired nodeAcquired)⟩

/-- A component without a part was refused. -/
theorem parseOnePathPart_refuses {kernel after : Kernel} {path rest : List Byte}
    (parsed : parseOnePathPart kernel path = (none, rest, after)) (component : firstComponent path ≠ []) :
    kernel.refused < after.refused := by
  have counted := kzalloc_refused_count kernel (copySize (nextComponent (fromComponent path)).1)
  unfold parseOnePathPart at parsed
  rw [getAndRemovePrefixPath_eq, if_neg component] at parsed
  unfold copyComponent at parsed
  by_cases refused : (kzalloc kernel (copySize (nextComponent (fromComponent path)).1)).1 = 0#32
  · simp only [refused, if_true] at parsed
    rw [if_pos refused] at counted
    obtain rfl := congrArg (fun result => result.2.2) parsed
    change kernel.refused < (kzalloc kernel (copySize (nextComponent (fromComponent path)).1)).2.refused
    omega
  · simp only [refused, if_false] at parsed
    rw [if_neg refused] at counted
    generalize kzalloc kernel (copySize (nextComponent (fromComponent path)).1) = copy at *
    have node := kzalloc_refused_count (storeBytes copy.2 copy.1 ((nextComponent (fromComponent path)).1 ++ [0#8])) 8#32
    have same : (storeBytes copy.2 copy.1 ((nextComponent (fromComponent path)).1 ++ [0#8])).refused = copy.2.refused := rfl
    by_cases missing : (kzalloc (storeBytes copy.2 copy.1 ((nextComponent (fromComponent path)).1 ++ [0#8])) 8#32).1 = 0#32
    · simp only [missing, if_true] at parsed
      rw [if_pos missing] at node
      obtain rfl := congrArg (fun result => result.2.2) parsed
      change kernel.refused < (kzalloc _ 8#32).2.refused
      omega
    · simp only [missing, if_false] at parsed
      cases congrArg Prod.fst parsed

/-- Without a component the parser does nothing. -/
theorem parseOnePathPart_nothing (kernel : Kernel) {path : List Byte} (none : firstComponent path = []) :
    parseOnePathPart kernel path = (Option.none, [], kernel) := by
  unfold parseOnePathPart
  rw [getAndRemovePrefixPath_eq, if_pos none]
  rfl

/-- The parse refused nothing, or the path ends below the entry table. -/
def ParsesHarmlessly (kernel : Kernel) (path : List Byte) (after : Kernel) : Prop :=
  after.refused = kernel.refused ∨ path.length < entryTableAddress

theorem parseOnePathPart_ends {kernel after : Kernel} (kernelHeap : kernel.heap.IsKernelHeap) {path rest : List Byte}
    (parsed : parseOnePathPart kernel path = (none, rest, after)) (harmless : ParsesHarmlessly kernel path after) :
    KeepsObjects (fun _ => True) kernel after := by
  rcases harmless with served | short
  · by_cases component : firstComponent path = []
    · rw [parseOnePathPart_nothing kernel component] at parsed
      obtain rfl := congrArg (fun result => result.2.2) parsed
      exact KeepsObjects.refl _ kernel
    · exact absurd served (Nat.ne_of_gt (parseOnePathPart_refuses parsed component))
  · have kept := (parseOnePathPart_keeps kernelHeap (KeepsObjects.refl (fun _ => True) kernel) (Requests.refl kernel)
      fun _ => Or.inl (Nat.lt_of_le_of_lt (firstComponent_length path) short)).1
    rw [parsed] at kept
    exact kept

/-- The number of refusals does not fall. -/
theorem parseOnePathPart_refused_le (kernel : Kernel) (path : List Byte) :
    kernel.refused ≤ (parseOnePathPart kernel path).2.2.refused := by
  have counted := kzalloc_refused_count kernel (copySize (nextComponent (fromComponent path)).1)
  unfold parseOnePathPart
  rw [getAndRemovePrefixPath_eq]
  by_cases done : firstComponent path = []
  · simp only [done, if_true]
    exact Nat.le_refl _
  · simp only [done, if_false]
    have copied : kernel.refused ≤ (copyComponent kernel (nextComponent (fromComponent path))).kernel.refused := by
      unfold copyComponent
      dsimp only
      generalize kzalloc kernel (copySize (nextComponent (fromComponent path)).1) = copy at *
      have same : (if copy.1 = 0#32 then storeThroughNull copy.2 ((nextComponent (fromComponent path)).1 ++ [0#8])
          else storeBytes copy.2 copy.1 ((nextComponent (fromComponent path)).1 ++ [0#8])).refused = copy.2.refused := by
        split <;> rfl
      rw [same]
      omega
    generalize copyComponent kernel (nextComponent (fromComponent path)) = copy at *
    have node := kzalloc_refused_count copy.kernel 8#32
    by_cases refused : copy.path = 0#32
    · simp only [refused, if_true]
      exact copied
    · simp only [refused, if_false]
      by_cases missing : (kzalloc copy.kernel 8#32).1 = 0#32
      · simp only [missing, if_true]
        omega
      · simp only [missing, if_false]
        omega

theorem parseParts_refused_le (bytes : Nat) (kernel : Kernel) (path : List Byte) :
    kernel.refused ≤ (parseParts bytes kernel path).2.refused := by
  induction bytes generalizing kernel path with
  | zero => exact Nat.le_refl _
  | succ bytes inductionHypothesis =>
      have step := parseOnePathPart_refused_le kernel path
      rw [parseParts]
      rcases parsed : parseOnePathPart kernel path with ⟨part, rest, after⟩
      rw [parsed] at step
      cases part with
      | none => exact step
      | some part => exact Nat.le_trans step (inductionHypothesis after rest)

/-- What the parts of a path are, as far as it was parsed. -/
theorem parseParts_gained (bytes : Nat) {kernel : Kernel} (kernelHeap : kernel.heap.IsKernelHeap) {path : List Byte}
    (fits : path.length < 2 ^ 32 - 1) (harmless : ParsesHarmlessly kernel path (parseParts bytes kernel path).2) :
    KeepsObjects (fun _ => True) kernel (parseParts bytes kernel path).2 ∧
      (exists extents, Gained kernel (parseParts bytes kernel path).2 (partObjects (parseParts bytes kernel path).1) extents) ∧
        forall part, part ∈ (parseParts bytes kernel path).1 ->
          exists copy, Copied (parseParts bytes kernel path).2 part copy := by
  induction bytes generalizing kernel path with
  | zero =>
      refine ⟨KeepsObjects.refl _ kernel, ⟨[], ⟨⟨rfl, fun _ none => absurd none List.not_mem_nil, List.Pairwise.nil⟩, ?_⟩⟩, ?_⟩
      · exact fun _ none => absurd none List.not_mem_nil
      · exact fun _ none => absurd none List.not_mem_nil
  | succ bytes inductionHypothesis =>
      have step := parseOnePathPart_refused_le kernel path
      rw [parseParts] at harmless ⊢
      rcases parsed : parseOnePathPart kernel path with ⟨part, rest, after⟩
      rw [parsed] at step harmless
      cases part with
      | none =>
          refine ⟨parseOnePathPart_ends kernelHeap parsed harmless, ⟨[], ⟨⟨rfl, ?_, List.Pairwise.nil⟩, ?_⟩⟩, ?_⟩
          · exact fun _ none => absurd none List.not_mem_nil
          · exact fun _ none => absurd none List.not_mem_nil
          · exact fun _ none => absurd none List.not_mem_nil
      | some part =>
          rcases parseOnePathPart_made kernelHeap.wellPlaced fits parsed with
            ⟨_, _, left, keeps, copy, node, copied, gained⟩
          have shorter : rest.length ≤ path.length := by
            rw [left]
            exact rest_length path
          have current := kernelHeap.samePool keeps.pool
          have counted := parseParts_refused_le bytes after rest
          have later := inductionHypothesis current (Nat.lt_of_le_of_lt shorter fits) (by
            rcases harmless with served | short
            · left
              change (parseParts bytes after rest).2.refused = kernel.refused at served
              change kernel.refused ≤ after.refused at step
              omega
            · exact Or.inr (Nat.lt_of_le_of_lt shorter short))
          rcases later with ⟨kept, ⟨extents, more⟩, copies⟩
          refine ⟨keeps.trans kept, ⟨[copy, node] ++ extents, gained.append keeps kept more⟩, fun other member => ?_⟩
          rcases List.mem_cons.mp member with rfl | last
          · exact ⟨copy, copied.keep current.wellPlaced kept⟩
          · exact copies other last

/-! ## The whole list -/

/-- What is left of a path with a component. -/
theorem parseOnePathPart_follows (kernel : Kernel) {path : List Byte} (some : firstComponent path ≠ []) :
    (parseOnePathPart kernel path).2.1 = (nextComponent (fromComponent path)).2 := by
  unfold parseOnePathPart
  rw [getAndRemovePrefixPath_eq, if_neg some]
  dsimp only
  split
  · rfl
  · split <;> rfl

/-- A part takes its component off the path. -/
theorem parseOnePathPart_shorter {kernel after : Kernel} {path rest : List Byte} {part : PathPart}
    (parsed : parseOnePathPart kernel path = (some part, rest, after)) : rest.length < path.length := by
  by_cases none : firstComponent path = []
  · rw [parseOnePathPart_nothing kernel none] at parsed
    cases congrArg Prod.fst parsed
  · have left := parseOnePathPart_follows kernel none
    rw [parsed] at left
    obtain rfl : rest = (nextComponent (fromComponent path)).2 := left
    have whole : firstComponent path ++ (nextComponent (fromComponent path)).2 = fromComponent path :=
      List.takeWhile_append_dropWhile
    have split := congrArg List.length whole
    rw [List.length_append] at split
    have dropped : (fromComponent path).length ≤ path.length := (List.dropWhile_suffix _).length_le
    have positive := List.length_pos_iff.mpr none
    omega

/-- The loop ends after as many parts as the path has bytes. -/
theorem parseParts_enough (bytes : Nat) (kernel : Kernel) {path : List Byte} (enough : path.length < bytes) :
    parseParts bytes kernel path = parseParts (path.length + 1) kernel path := by
  induction bytes using Nat.strongRecOn generalizing kernel path with
  | _ bytes inductionHypothesis =>
      cases bytes with
      | zero => exact absurd enough (Nat.not_lt_zero _)
      | succ bytes =>
          rw [parseParts, parseParts]
          rcases parsed : parseOnePathPart kernel path with ⟨part, rest, after⟩
          cases part with
          | none => rfl
          | some part =>
              have shorter := parseOnePathPart_shorter parsed
              have left := @inductionHypothesis bytes (Nat.lt_succ_self bytes) after rest (by omega)
              by_cases whole : path.length = bytes
              · rw [whole]
              · have right := @inductionHypothesis path.length (by omega) after rest shorter
                dsimp only
                rw [left, right]

/-- A slash more at the beginning changes nothing. -/
theorem pathParse_slash (kernel : Kernel) {path : List Byte} (valid : pathFormatIsValid path = true) :
    pathParse kernel (forwardSlash :: path) = pathParse kernel path := by
  have skips : parseOnePathPart kernel (forwardSlash :: path) = parseOnePathPart kernel path := by
    unfold parseOnePathPart
    rw [getAndRemovePrefixPath, if_pos rfl]
  have same : parseParts (path.length + 1 + 1) kernel (forwardSlash :: path) =
      parseParts (path.length + 1 + 1) kernel path := by
    rw [parseParts, skips, ← parseParts]
  unfold pathParse
  rw [valid, List.length_cons, same, parseParts_enough (path.length + 1 + 1) kernel (by omega)]
  rfl

theorem parseParts_texts (bytes : Nat) {kernel : Kernel} (placed : kernel.heap.WellPlaced) {path : List Byte}
    (fits : path.length < 2 ^ 32 - 1) (enough : path.length < bytes)
    (served : (parseParts bytes kernel path).2.refused = kernel.refused) :
    (parseParts bytes kernel path).1.map PathPart.text = components path := by
  induction bytes generalizing kernel path with
  | zero => exact absurd enough (Nat.not_lt_zero _)
  | succ bytes inductionHypothesis =>
      have step := parseOnePathPart_refused_le kernel path
      rw [parseParts] at served ⊢
      rw [components_eq]
      rcases parsed : parseOnePathPart kernel path with ⟨part, rest, after⟩
      rw [parsed] at served step
      cases part with
      | none =>
          by_cases empty : firstComponent path = []
          · rw [if_pos empty]
            rfl
          · exact absurd served (Nat.ne_of_gt (parseOnePathPart_refuses parsed empty))
      | some part =>
          rcases parseOnePathPart_made placed fits parsed with ⟨component, text, left, keeps, _⟩
          have shorter := parseOnePathPart_shorter parsed
          have counted := parseParts_refused_le bytes after rest
          have later := @inductionHypothesis after (keeps.pool.wellPlaced placed) rest (by omega) (by omega) (by
            change (parseParts bytes after rest).2.refused = kernel.refused at served
            change kernel.refused ≤ after.refused at step
            omega)
          rw [if_neg component, List.map_cons, text, later, left]

/-- What a parse comes to: the null pointer exactly for a string that does not
begin with a slash or has nothing but slashes, and otherwise the list of the
components in order, each in a copy and a node of its own. -/
structure ParsesComponents (kernel : Kernel) (path : List Byte) (parsed : List PathPart × Kernel) : Prop where
  null : parsed.1 = [] ↔ path.head? ≠ some forwardSlash ∨ forall c, c ∈ path -> c = forwardSlash
  texts : parsed.1 ≠ [] -> parsed.1.map PathPart.text = components path
  copies : forall part, part ∈ parsed.1 -> exists copy, Copied parsed.2 part copy
  fresh : exists extents, Gained kernel parsed.2 (partObjects parsed.1) extents
  terminates : forall bytes, path.length < bytes ->
    parseParts bytes kernel path = parseParts (path.length + 1) kernel path

/-- For every string, when no request is refused. -/
theorem pathParse_components {kernel : Kernel} (kernelHeap : kernel.heap.IsKernelHeap) {path : List Byte}
    (fits : path.length < 2 ^ 32 - 1) (served : (pathParse kernel path).2.refused = kernel.refused) :
    ParsesComponents kernel path (pathParse kernel path) := by
  have enough := fun bytes => @parseParts_enough bytes kernel path
  by_cases invalid : (!pathFormatIsValid path) = true
  · have relative : path.head? ≠ some forwardSlash := by
      intro head
      rw [pathFormatIsValid, head, beq_self_eq_true] at invalid
      exact Bool.noConfusion invalid
    unfold pathParse at served ⊢
    rw [if_pos invalid] at served ⊢
    refine ⟨⟨fun _ => Or.inl relative, fun _ => rfl⟩, fun nonempty => absurd rfl nonempty, ?_, ⟨[], ⟨⟨rfl, ?_, ?_⟩, ?_⟩⟩,
      enough⟩
    · exact fun _ none => absurd none List.not_mem_nil
    · exact fun _ none => absurd none List.not_mem_nil
    · exact List.Pairwise.nil
    · exact fun _ none => absurd none List.not_mem_nil
  · have absolute : path.head? = some forwardSlash := by
      rw [Bool.not_eq_true, Bool.not_eq_false'] at invalid
      exact beq_iff_eq.mp invalid
    unfold pathParse at served ⊢
    rw [if_neg invalid] at served ⊢
    have texts := parseParts_texts (path.length + 1) kernelHeap.wellPlaced fits (Nat.lt_succ_self _) served
    rcases parseParts_gained (path.length + 1) kernelHeap fits (Or.inl served) with ⟨_, fresh, copies⟩
    refine ⟨?_, fun _ => texts, copies, fresh, enough⟩
    rw [← components_eq_nil_iff, ← texts, List.map_eq_nil_iff]
    exact ⟨Or.inr, fun either => either.resolve_left (fun relative => relative absolute)⟩

/-- A component takes two blocks when it is short. -/
theorem parseOnePathPart_room {kernel : Kernel} {first : Nat} (room : RoomFrom kernel first) (fits : first + 2 ≤ 25600)
    {path : List Byte} (short : path.length < heapBlockSizeBytes) (component : firstComponent path ≠ []) :
    exists part after, parseOnePathPart kernel path = (some part, (nextComponent (fromComponent path)).2, after) ∧
      after.refused = kernel.refused ∧ RoomFrom after (first + 2) := by
  have length := firstComponent_length path
  have one : blocksFor (copySize (firstComponent path)) = 1 ∧ copySize (firstComponent path) ≠ 0#32 := by
    unfold heapBlockSizeBytes at short
    have number : (copySize (firstComponent path)).toNat = (firstComponent path).length + 1 := by
      rw [copySize, BitVec.toNat_ofNat]
      omega
    refine ⟨?_, fun zero => ?_⟩
    · unfold blocksFor
      omega
    · have none : (copySize (firstComponent path)).toNat = 0 := congrArg BitVec.toNat zero
      omega
  rcases room.kzalloc (copySize (firstComponent path)) one.2 (by rw [one.1]; omega) with ⟨copied, later⟩
  have copyCount := kzalloc_refused_count kernel (copySize (firstComponent path))
  rw [one.1] at later
  rw [if_neg copied] at copyCount
  unfold parseOnePathPart
  rw [getAndRemovePrefixPath_eq, if_neg component]
  have placed : copyComponent kernel (nextComponent (fromComponent path)) =
      ⟨(kzalloc kernel (copySize (firstComponent path))).1, firstComponent path, (nextComponent (fromComponent path)).2,
        storeBytes (kzalloc kernel (copySize (firstComponent path))).2 (kzalloc kernel (copySize (firstComponent path))).1
          (firstComponent path ++ [0#8])⟩ :=
    congrArg (Prefix.mk _ _ _) (if_neg copied)
  rw [placed]
  clear placed
  simp only [copied, if_false]
  generalize kzalloc kernel (copySize (firstComponent path)) = copy at *
  have stored := later.of_heap (storeBytes_heap copy.2 copy.1 (firstComponent path ++ [0#8]))
  rcases stored.kzalloc 8#32 (by decide) (by rw [show blocksFor 8#32 = 1 from by decide]; omega) with ⟨served, nodeRoom⟩
  have nodeCount := kzalloc_refused_count (storeBytes copy.2 copy.1 (firstComponent path ++ [0#8])) 8#32
  rw [if_neg served] at nodeCount
  simp only [served, if_false]
  exact ⟨_, _, rfl, nodeCount.trans copyCount, nodeRoom⟩

/-- A short path is served in a heap with room for two blocks a byte. -/
theorem parseParts_room (bytes : Nat) {kernel : Kernel} {first : Nat} (room : RoomFrom kernel first)
    (fits : first + 2 * bytes ≤ 25600) {path : List Byte} (short : path.length < heapBlockSizeBytes) :
    (parseParts bytes kernel path).2.refused = kernel.refused := by
  induction bytes generalizing kernel first path with
  | zero => rfl
  | succ bytes inductionHypothesis =>
      rw [parseParts]
      by_cases none : firstComponent path = []
      · rw [parseOnePathPart_nothing kernel none]
      · rcases parseOnePathPart_room room (by omega) short none with ⟨part, after, parsed, same, later⟩
        have shorter := parseOnePathPart_shorter parsed
        rw [parsed]
        exact (inductionHypothesis later (by omega) (Nat.lt_trans shorter short)).trans same

/-- The kernel heap after its creation. -/
abbrev createdKernel : Kernel := kheapInit (Kernel.loaded Store.blank (fun _ _ => 0#8) fun _ => 0#8) fun _ => 0#8

theorem createdKernel_room : RoomFrom createdKernel 0 := ⟨kheapInit_isKernelHeap _ _, kheapInit_freeFrom _ _⟩

/-- The path `/ab//c/`. -/
abbrev doubledPath : List Byte := [forwardSlash, 0x61#8, 0x62#8, forwardSlash, forwardSlash, 0x63#8, forwardSlash]

theorem doubledPath_parse : pathParse createdKernel doubledPath =
    parseParts (doubledPath.length + 1) createdKernel doubledPath := if_neg (by decide)

theorem doubledPath_served : (pathParse createdKernel doubledPath).2.refused = createdKernel.refused := by
  rw [doubledPath_parse]
  exact parseParts_room _ createdKernel_room (by decide) (by decide)

/-- Its components are `ab` and `c`. -/
theorem pathParse_components_doubled : ParsesComponents createdKernel doubledPath (pathParse createdKernel doubledPath) ∧
    components doubledPath = [[0x61#8, 0x62#8], [0x63#8]] :=
  ⟨pathParse_components (kheapInit_isKernelHeap _ _) (by decide) doubledPath_served, by decide⟩

/-! ## Releasing -/

/-- The loop of `free_root_path`. -/
def freeParts : Kernel -> List PathPart -> Kernel
  | kernel, [] => kernel
  | kernel, part :: rest => freeParts (kfree (kfree kernel part.part) part.address) rest

/-- `free_root_path`.  The copy of the first part is not released. -/
def freeRootPath (kernel : Kernel) (root : PathPart) (next : List PathPart) : Kernel :=
  kfree (freeParts kernel next) root.address

theorem freeParts_eq (kernel : Kernel) (parts : List PathPart) :
    freeParts kernel parts = releaseAll kernel (partObjects parts) := by
  induction parts generalizing kernel with
  | nil => rfl
  | cons part rest inductionHypothesis => exact inductionHypothesis _

theorem freeRootPath_eq (kernel : Kernel) (root : PathPart) (next : List PathPart) :
    freeRootPath kernel root next = releaseAll kernel (partObjects next ++ [root.address]) := by
  rw [releaseAll_append, ← freeParts_eq]
  rfl

/-- The copy of the first component stays. -/
theorem freeRootPath_leaks {kernel parsed : Kernel} (kernelHeap : kernel.heap.IsKernelHeap) {path : List Byte}
    (fits : path.length < 2 ^ 32 - 1) {root : PathPart} {next : List PathPart}
    (parses : pathParse kernel path = (root :: next, parsed)) (harmless : ParsesHarmlessly kernel path parsed) :
    exists copy, root.part = kernel.heap.addressOf copy.first ∧ FreshExtent (fun _ => True) kernel copy ∧
      (freeRootPath parsed root next).heap.Owns copy ∧ kernel.heap.SamePool (freeRootPath parsed root next).heap := by
  have placed := kernelHeap.wellPlaced
  unfold pathParse at parses
  by_cases invalid : (!pathFormatIsValid path) = true
  · rw [if_pos invalid] at parses
    cases congrArg Prod.fst parses
  · rw [if_neg invalid, parseParts] at parses
    have step := parseOnePathPart_refused_le kernel path
    rcases first : parseOnePathPart kernel path with ⟨part, rest, after⟩
    rw [first] at parses step
    cases part with
    | none => cases congrArg Prod.fst parses
    | some part =>
        have shorter := parseOnePathPart_shorter first
        rcases parseOnePathPart_made placed fits first with ⟨_, _, _, keeps, copy, node, copied, gained⟩
        rcases List.cons.inj (congrArg Prod.fst parses) with ⟨rfl, rfl⟩
        obtain rfl : (parseParts path.length after rest).2 = parsed := congrArg Prod.snd parses
        have current := kernelHeap.samePool keeps.pool
        have counted := parseParts_refused_le path.length after rest
        rcases @parseParts_gained path.length after current rest (by omega) (by
          rcases harmless with served | short
          · left
            change kernel.refused ≤ after.refused at step
            omega
          · exact Or.inr (Nat.lt_trans shorter short)) with ⟨kept, ⟨extents, more⟩, _⟩
        have last := current.samePool kept.pool
        rcases gained.allocated.head with ⟨_, _, same, _, address, nodeAllocated, apart⟩
        rcases List.cons.inj same with ⟨rfl, rfl⟩
        have nodeFresh : Gained kernel after [part.address] [node] :=
          ⟨nodeAllocated, fun extent member => gained.fresh extent (List.mem_cons_of_mem copy member)⟩
        have released := (nodeFresh.prepend keeps kept more).allocated.releaseAll_keeps last
        have fresh : FreshExtent (fun _ => True) kernel copy := gained.fresh copy List.mem_cons_self
        refine ⟨copy, ?_, fresh, ?_, ?_⟩
        · rw [address, keeps.pool.addressOf]
        · rw [freeRootPath_eq]
          refine released.owns copy (fun gone member => ?_) (kept.owns copy trivial copied.owned)
          rcases List.mem_append.mp member with later | earlier
          · exact more.fresh gone later copy trivial copied.owned
          · obtain rfl := List.mem_singleton.mp earlier
            exact apart gone List.mem_cons_self
        · rw [freeRootPath_eq]
          exact (keeps.pool.trans kept.pool).trans released.pool

/-- No parse that makes a list is balanced by `free_root_path`. -/
theorem freeRootPath_neverBalanced {kernel parsed : Kernel} (kernelHeap : kernel.heap.IsKernelHeap) {path : List Byte}
    (fits : path.length < 2 ^ 32 - 1) {root : PathPart} {next : List PathPart}
    (parses : pathParse kernel path = (root :: next, parsed)) (harmless : ParsesHarmlessly kernel path parsed) :
    ¬ SameEntries kernel (freeRootPath parsed root next) := by
  rcases freeRootPath_leaks kernelHeap fits parses harmless with ⟨copy, _, fresh, owned, pool⟩
  exact not_sameEntries pool fresh owned

/-- The parse of `/ab//c/` in a heap that was just created has two nodes. -/
theorem doubledPath_parses : exists root last parsed, pathParse createdKernel doubledPath = ([root, last], parsed) ∧
    root.text = [0x61#8, 0x62#8] ∧ last.text = [0x63#8] ∧ parsed.refused = createdKernel.refused := by
  have served := doubledPath_served
  rw [doubledPath_parse] at served ⊢
  have texts := parseParts_texts (doubledPath.length + 1) createdKernel_room.kernelHeap.wellPlaced (by decide) (by decide)
    served
  rw [show components doubledPath = [[0x61#8, 0x62#8], [0x63#8]] by decide] at texts
  rcases List.map_eq_cons_iff.mp texts with ⟨root, rest, parts, rootText, restTexts⟩
  rcases List.map_eq_cons_iff.mp restTexts with ⟨last, none, rfl, lastText, empty⟩
  obtain rfl := List.map_eq_nil_iff.mp empty
  exact ⟨root, last, _, Prod.ext parts rfl, rootText, lastText, served⟩

/-- Its release does not give back everything. -/
theorem freeRootPath_neverBalanced_doubled : exists root last parsed,
    pathParse createdKernel doubledPath = ([root, last], parsed) ∧
      ¬ SameEntries createdKernel (freeRootPath parsed root [last]) := by
  rcases doubledPath_parses with ⟨root, last, parsed, parses, _, _, served⟩
  exact ⟨root, last, parsed, parses, freeRootPath_neverBalanced (kheapInit_isKernelHeap _ _) (by decide) parses (Or.inl served)⟩

/-- The copy of the first component stays behind. -/
theorem freeRootPath_leaks_created : exists root next parsed,
    pathParse createdKernel doubledPath = (root :: next, parsed) ∧ parsed.refused = createdKernel.refused ∧
      ¬ SameEntries createdKernel (freeRootPath parsed root next) := by
  rcases doubledPath_parses with ⟨root, last, parsed, parses, _, _, served⟩
  rcases freeRootPath_leaks (kheapInit_isKernelHeap _ _) (by decide) parses (Or.inl served) with
    ⟨copy, _, fresh, owned, pool⟩
  exact ⟨root, [last], parsed, parses, served, not_sameEntries pool fresh owned⟩

end Fs
end LarvaOS
