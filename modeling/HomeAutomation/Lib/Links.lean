import Mathlib.Data.List.Chain
import Mathlib.Data.List.Nodup
import Mathlib.Logic.Function.Basic

/-! # Singly linked lists

A linked list is a function `next` from nodes to nodes and a node, or a value that is no
node, that ends it.  `Linked` says which nodes are passed, in which order; what follows is
what insertion behind a node and removal do to them.
-/

namespace HomeAutomation.Lib.Links

variable {Node : Type*} {next : Node → Node} {terminal : Node}

/-- Following `next` from the first node of `nodes` passes them all and ends at `terminal`. -/
def Linked (next : Node → Node) (terminal : Node) (nodes : List Node) : Prop :=
  (nodes ++ [terminal]).IsChain fun node successor => next node = successor

/-- The links of the nodes of a list are all that matters. -/
theorem Linked.congr {other : Node → Node} {nodes : List Node} (linked : Linked next terminal nodes)
    (same : ∀ node ∈ nodes, other node = next node) : Linked other terminal nodes := by
  induction nodes with
  | nil => exact List.isChain_singleton _
  | cons node nodes inductionHypothesis =>
    rw [Linked, List.cons_append] at linked ⊢
    rw [List.isChain_cons] at linked ⊢
    refine ⟨fun successor first => ?_, ?_⟩
    · rw [same node List.mem_cons_self]
      exact linked.1 successor first
    · exact inductionHypothesis linked.2 fun other member => same other (List.mem_cons_of_mem _ member)

theorem linked_append_cons {first second : List Node} {node : Node} :
    Linked next terminal (first ++ node :: second) ↔
      Linked next node first ∧ Linked next terminal (node :: second) := by
  rw [Linked, Linked, Linked, List.append_assoc, List.cons_append, List.isChain_split]

theorem linked_cons_cons {node successor : Node} {rest : List Node} :
    Linked next terminal (node :: successor :: rest) ↔
      next node = successor ∧ Linked next terminal (successor :: rest) := by
  rw [Linked, Linked, List.cons_append, List.cons_append, List.isChain_cons_cons]

theorem linked_singleton {node : Node} : Linked next terminal [node] ↔ next node = terminal := by
  rw [Linked, List.singleton_append, List.isChain_pair]

theorem linked_cons {node : Node} {rest : List Node} :
    Linked next terminal (node :: rest) ↔
      next node = rest.headD terminal ∧ Linked next terminal rest := by
  cases rest with
  | nil =>
    rw [linked_singleton]
    exact (and_iff_left (List.isChain_singleton _)).symm
  | cons successor rest => exact linked_cons_cons

theorem Linked.next_eq {first second : List Node} {node : Node}
    (linked : Linked next terminal (first ++ node :: second)) :
    next node = second.headD terminal :=
  (linked_cons.mp (linked_append_cons.mp linked).2).1

/-- Insertion behind `node`. -/
theorem Linked.insert {other : Node → Node} {first second : List Node} {node new : Node}
    (linked : Linked next terminal (first ++ node :: second))
    (distinct : (first ++ node :: second).Nodup)
    (atNode : other node = new) (atNew : other new = next node)
    (same : ∀ old ∈ first ++ node :: second, old ≠ node → other old = next old) :
    Linked other terminal (first ++ node :: new :: second) := by
  rw [List.nodup_append, List.nodup_cons] at distinct
  have successor := linked.next_eq
  obtain ⟨before, behind⟩ := linked_append_cons.mp linked
  rw [linked_append_cons]
  refine ⟨before.congr fun old member => ?_, ?_⟩
  · exact same old (List.mem_append_left _ member)
      (distinct.2.2 old member node List.mem_cons_self)
  · rw [linked_cons_cons, linked_cons]
    refine ⟨atNode, atNew.trans successor, ((linked_cons.mp behind).2).congr fun old member => ?_⟩
    apply same old (List.mem_append_right _ (List.mem_cons_of_mem _ member))
    rintro rfl
    exact distinct.2.1.1 member

/-- Removal of the node behind `node`. -/
theorem Linked.remove {other : Node → Node} {first second : List Node} {node old : Node}
    (linked : Linked next terminal (first ++ node :: old :: second))
    (atNode : other node = next old)
    (same : ∀ kept ∈ first ++ second, other kept = next kept) :
    Linked other terminal (first ++ node :: second) := by
  obtain ⟨before, behind⟩ := linked_append_cons.mp linked
  obtain ⟨_, last⟩ := linked_cons_cons.mp behind
  rw [linked_append_cons]
  refine ⟨before.congr fun kept member => same kept (List.mem_append_left _ member), ?_⟩
  rw [linked_cons]
  exact ⟨atNode.trans (linked_cons.mp last).1,
    ((linked_cons.mp last).2).congr fun kept member => same kept (List.mem_append_right _ member)⟩

end HomeAutomation.Lib.Links
