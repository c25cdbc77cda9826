import Mathlib.Data.List.Basic
import Mathlib.Data.List.Nodup
import Mathlib.Data.List.Rotate
import Mathlib.Logic.Function.Basic
import Mathlib.Tactic.Common

namespace LarvaOS
namespace Library

/-!
# Chains of links

A link map sends every node to another node.  `Leads link start nodes finish`
says that following the links from `start` visits the given nodes in order and
arrives at `finish`.  A null-terminated list is a chain that leads to null,
and a list with back links is a pair of chains over the same nodes, one of
them reversed.

The last section follows the links of a null-terminated chain and starts again
at the head after its end.  From any node of the chain this visits every node
exactly once before it returns.
-/

namespace Chain

variable {Node : Type*}

def Leads (link : Node -> Node) : Node -> List Node -> Node -> Prop
  | start, [], finish => start = finish
  | start, node :: rest, finish => start = node ∧ Leads link (link node) rest finish

theorem leads_append {link : Node -> Node} {start finish : Node} {left right : List Node} :
    Leads link start (left ++ right) finish ↔
      exists middle, Leads link start left middle ∧ Leads link middle right finish := by
  induction left generalizing start with
  | nil =>
      constructor
      · intro leads
        exact ⟨start, rfl, leads⟩
      · rintro ⟨_, rfl, leads⟩
        exact leads
  | cons node left inductionHypothesis =>
      change (start = node ∧ Leads link (link node) (left ++ right) finish) ↔ _
      rw [inductionHypothesis]
      constructor
      · rintro ⟨here, middle, first, second⟩
        exact ⟨middle, ⟨here, first⟩, second⟩
      · rintro ⟨middle, ⟨here, first⟩, second⟩
        exact ⟨here, middle, first, second⟩

/-- A chain depends on the links of its own nodes only. -/
theorem Leads.congr {link link' : Node -> Node} {start finish : Node} {nodes : List Node}
    (leads : Leads link start nodes finish) (same : forall node, node ∈ nodes -> link' node = link node) :
    Leads link' start nodes finish := by
  induction nodes generalizing start with
  | nil => exact leads
  | cons node nodes inductionHypothesis =>
      refine ⟨leads.1, ?_⟩
      rw [same node List.mem_cons_self]
      exact inductionHypothesis leads.2 fun other member => same other (List.mem_cons_of_mem _ member)

/-- The last node of a chain links to its finish. -/
theorem leads_concat {link : Node -> Node} {start last finish : Node} {nodes : List Node} :
    Leads link start (nodes ++ [last]) finish ↔ Leads link start nodes last ∧ link last = finish := by
  rw [leads_append]
  constructor
  · rintro ⟨middle, leads, same, finished⟩
    exact ⟨same ▸ leads, finished⟩
  · rintro ⟨leads, finished⟩
    exact ⟨last, leads, rfl, finished⟩

/-- Neighbours in a chain are linked. -/
theorem Leads.link_eq {link : Node -> Node} {start finish left right : Node} {before after : List Node}
    (leads : Leads link start (before ++ left :: right :: after) finish) : link left = right := by
  rcases leads_append.mp leads with ⟨_, _, _, same, _⟩
  exact same

/-- A node of a chain links to its finish or to another node of it. -/
theorem leads_next_or {link : Node -> Node} {start finish node : Node} {nodes : List Node}
    (leads : Leads link start nodes finish) (member : node ∈ nodes) : link node = finish ∨ link node ∈ nodes := by
  induction nodes generalizing start with
  | nil => exact absurd member List.not_mem_nil
  | cons first rest inductionHypothesis =>
      rcases List.mem_cons.mp member with same | later
      · subst same
        cases rest with
        | nil => exact Or.inl leads.2
        | cons second rest =>
            have here : link node = second := leads.2.1
            exact Or.inr (here ▸ List.mem_cons_of_mem _ List.mem_cons_self)
      · exact (inductionHypothesis leads.2 later).imp_right (List.mem_cons_of_mem _)

/-- The links of a chain, by position. -/
theorem Leads.link_getElem {link : Node -> Node} {start finish : Node} {nodes : List Node}
    (leads : Leads link start nodes finish) {i : Nat} (inside : i < nodes.length) :
    (if more : i + 1 < nodes.length then link nodes[i] = nodes[i + 1] else link nodes[i] = finish) := by
  induction nodes generalizing start i with
  | nil => exact absurd inside (Nat.not_lt_zero i)
  | cons node nodes inductionHypothesis =>
      cases i with
      | succ i =>
          have tail := inductionHypothesis leads.2 (i := i) (Nat.lt_of_succ_lt_succ inside)
          simpa [Nat.succ_lt_succ_iff] using tail
      | zero =>
          cases nodes with
          | nil => exact leads.2
          | cons next rest => exact leads.2.1

/-! ## Going round -/

section Round

variable [DecidableEq Node] {link : Node -> Node} {null head : Node} {nodes : List Node}

/-- The next node, or the head after the end of the chain. -/
def advance (link : Node -> Node) (null head node : Node) : Node :=
  if link node = null then head else link node

theorem advance_getElem (leads : Leads link head nodes null) (proper : null ∉ nodes) {i : Nat}
    (inside : i < nodes.length) :
    advance link null head nodes[i] =
      nodes.get ⟨(i + 1) % nodes.length, Nat.mod_lt _ (Nat.zero_lt_of_lt inside)⟩ := by
  have linked := leads.link_getElem inside
  unfold advance
  by_cases more : i + 1 < nodes.length
  · rw [dif_pos more] at linked
    have notNull : nodes[i + 1] ≠ null := fun same => proper (same ▸ List.getElem_mem more)
    rw [linked, if_neg notNull]
    congr 1
    exact (Nat.mod_eq_of_lt more).symm
  · rw [dif_neg more] at linked
    rw [linked, if_pos rfl]
    have last : i + 1 = nodes.length := by omega
    cases nodes with
    | nil => exact absurd inside (Nat.not_lt_zero i)
    | cons node rest =>
        have wrapped : (i + 1) % (node :: rest).length = 0 := by rw [last, Nat.mod_self]
        simp only [wrapped]
        exact leads.1

theorem iterate_advance (leads : Leads link head nodes null) (proper : null ∉ nodes) {i : Nat}
    (inside : i < nodes.length) (steps : Nat) :
    (advance link null head)^[steps] nodes[i] =
      nodes.get ⟨(i + steps) % nodes.length, Nat.mod_lt _ (Nat.zero_lt_of_lt inside)⟩ := by
  induction steps with
  | zero => exact getElem_congr_idx (Nat.mod_eq_of_lt inside).symm
  | succ steps inductionHypothesis =>
      rw [Function.iterate_succ_apply', inductionHypothesis, List.get_eq_getElem, advance_getElem leads proper]
      have index : ((i + steps) % nodes.length + 1) % nodes.length = (i + (steps + 1)) % nodes.length := by
        rw [Nat.mod_add_mod, Nat.add_assoc]
      exact congrArg nodes.get (Fin.ext index)

/-- From any node, going round visits each node of the chain exactly once and
then arrives where it began. -/
theorem advance_visits_all (leads : Leads link head nodes null) (proper : null ∉ nodes) {start : Node}
    (member : start ∈ nodes) :
    (List.range nodes.length).map (fun steps => (advance link null head)^[steps] start) ~r nodes ∧
      (advance link null head)^[nodes.length] start = start := by
  obtain ⟨i, inside, rfl⟩ := List.getElem_of_mem member
  constructor
  · refine List.IsRotated.symm ⟨i, ?_⟩
    apply List.ext_getElem
    · simp
    · intro steps _ _
      rw [List.getElem_rotate, List.getElem_map, List.getElem_range, iterate_advance leads proper inside]
      rw [List.get_eq_getElem]
      exact getElem_congr_idx (by rw [Nat.add_comm])
  · have index : (i + nodes.length) % nodes.length = i := by rw [Nat.add_mod_right, Nat.mod_eq_of_lt inside]
    rw [iterate_advance leads proper inside, List.get_eq_getElem]
    exact getElem_congr_idx index

end Round

end Chain

end Library
end LarvaOS
