import Mathlib.Order.Monotone.Basic
import ServiceTrace.Proofs.Graph.CallLog

/-!
# `ServiceTrace.Proofs.Graph.Renaming` — other numbers, and fewer nodes

Two operations on call graphs: to give the nodes other numbers in the same order, and to leave out the
functions *outside* the project, together with the calls of them. Nodes are kept in the order of their
numbers and edges by their ends, so both operations commute with what a draft does to its lists:

* `CallGraph.insertNode` — with a renaming that keeps the order (`map_rename_insertNode`), and with leaving
  nodes out, when the number is new (`filter_insertNode`);
* `addCall` — with a renaming that tells numbers apart (`map_rename_addCall`), and with leaving out the
  edges that stop at some numbers (`filter_addCall`).
-/

namespace ServiceTrace

/-- The node with another number. -/
def GraphNode.rename (f : Nat → Nat) (n : GraphNode) : GraphNode :=
  { n with id := f n.id }

theorem GraphNode.rename_eq_self {f : Nat → Nat} {n : GraphNode} (h : f n.id = n.id) : n.rename f = n := by
  unfold GraphNode.rename
  rw [h]

/-- Whether a node is that of a function outside the project. The node of a route that is in no catalog is an
    end point as well, but it is not one of these. -/
def GraphNode.isOutside (n : GraphNode) : Bool :=
  n.external && !n.isRoute

/-- The edge between the nodes with other numbers. -/
def CallEdge.rename (f : Nat → Nat) (e : CallEdge) : CallEdge :=
  { e with start := f e.start, stop := f e.stop }

namespace CallGraph

/-- The graph with other numbers for its nodes. -/
def rename (f : Nat → Nat) (g : CallGraph) : CallGraph where
  nodes := g.nodes.map (·.rename f)
  edges := g.edges.map (·.rename f)
  dotted := g.dotted.map (Prod.map f f)

/-- Whether a number has the node of a function outside the project. -/
def outsideAt (g : CallGraph) (i : Nat) : Bool :=
  (g.node? i).any (·.isOutside)

/-- The graph without the functions outside the project and the edges into them. -/
def withoutOutside (g : CallGraph) : CallGraph where
  nodes := g.nodes.filter (!·.isOutside)
  edges := g.edges.filter (!g.outsideAt ·.stop)
  dotted := g.dotted

/-! ## One more node -/

theorem insertNode_of_lt {node : GraphNode} {nodes : List GraphNode}
    (h : ∀ n ∈ nodes, node.id < n.id) : insertNode node nodes = node :: nodes := by
  cases nodes with
  | nil => rfl
  | cons n ns =>
    have hlt := h n List.mem_cons_self
    rw [insertNode, if_neg (Nat.ne_of_lt hlt), if_pos hlt]

/-- Leaving out nodes before or after a node with a new number is inserted comes to the same. -/
theorem filter_insertNode (p : GraphNode → Bool) {node : GraphNode} {nodes : List GraphNode}
    (hsorted : (nodes.map (·.id)).Pairwise (· < ·)) (hnew : node.id ∉ nodes.map (·.id)) :
    (insertNode node nodes).filter p =
      if p node then insertNode node (nodes.filter p) else nodes.filter p := by
  induction nodes with
  | nil => by_cases hp : p node = true <;> simp [insertNode, hp]
  | cons n ns ih =>
    obtain ⟨hn, hns⟩ := List.pairwise_cons.mp hsorted
    have hne : node.id ≠ n.id := fun heq => hnew (heq ▸ List.mem_cons_self)
    have hrest : node.id ∉ ns.map (·.id) := fun hmem => hnew (List.mem_cons_of_mem _ hmem)
    by_cases hlt : node.id < n.id
    · -- the node comes first, also among the nodes that are left
      have hfirst : ∀ m ∈ (n :: ns).filter p, node.id < m.id := by
        intro m hm
        rcases List.mem_cons.mp (List.mem_filter.mp hm).1 with rfl | hm
        · exact hlt
        · exact Nat.lt_trans hlt (hn m.id (List.mem_map_of_mem hm))
      rw [insertNode, if_neg hne, if_pos hlt, insertNode_of_lt hfirst, List.filter_cons]
    · have hbehind : insertNode node (n :: ns) = n :: insertNode node ns := by
        rw [insertNode, if_neg hne, if_neg hlt]
      rw [hbehind, List.filter_cons, List.filter_cons, ih hns hrest]
      by_cases hp : p n = true
      · rw [if_pos hp, if_pos hp]
        split
        · rw [insertNode, if_neg hne, if_neg hlt]
        · rfl
      · rw [if_neg hp, if_neg hp]

/-- A node keeps its place among nodes that are renamed in order. -/
theorem map_rename_insertNode {f : Nat → Nat} (hf : StrictMono f) (node : GraphNode)
    (nodes : List GraphNode) :
    (insertNode node nodes).map (·.rename f) = insertNode (node.rename f) (nodes.map (·.rename f)) := by
  induction nodes with
  | nil => rfl
  | cons n ns ih =>
    rw [List.map_cons, insertNode, insertNode]
    by_cases heq : node.id = n.id
    · have heq' : (node.rename f).id = (n.rename f).id := congrArg f heq
      rw [if_pos heq, if_pos heq', List.map_cons]
    · have hne : (node.rename f).id ≠ (n.rename f).id := fun h => heq (hf.injective h)
      rw [if_neg heq, if_neg hne]
      by_cases hlt : node.id < n.id
      · have hlt' : (node.rename f).id < (n.rename f).id := hf hlt
        rw [if_pos hlt, if_pos hlt', List.map_cons, List.map_cons]
      · have hnot : ¬ (node.rename f).id < (n.rename f).id := fun h => hlt (hf.lt_iff_lt.mp h)
        rw [if_neg hlt, if_neg hnot, List.map_cons, ih]

end CallGraph

/-! ## One more call -/

/-- Leaving out the edges that stop at some numbers, before or after a call is added. -/
theorem filter_addCall (p : Nat → Bool) (start stop line : Nat) (edges : List CallEdge) :
    (addCall start stop line edges).filter (p ·.stop) =
      if p stop then addCall start stop line (edges.filter (p ·.stop))
      else edges.filter (p ·.stop) := by
  induction edges with
  | nil => by_cases hp : p stop = true <;> simp [addCall, hp]
  | cons e es ih =>
    by_cases he : e.start = start ∧ e.stop = stop
    · rw [addCall, if_pos he]
      obtain ⟨rfl, rfl⟩ := he
      by_cases hp : p e.stop = true <;> simp [hp, addCall]
    · have hbehind : addCall start stop line (e :: es) = e :: addCall start stop line es := by
        rw [addCall, if_neg he]
      rw [hbehind, List.filter_cons, List.filter_cons, ih]
      by_cases hp : p e.stop = true
      · rw [if_pos hp, if_pos hp]
        split
        · rw [addCall, if_neg he]
        · rfl
      · rw [if_neg hp, if_neg hp]

/-- A call goes into the same edge when the nodes have other numbers. -/
theorem map_rename_addCall {f : Nat → Nat} (hf : Function.Injective f) (start stop line : Nat)
    (edges : List CallEdge) :
    (addCall start stop line edges).map (·.rename f) =
      addCall (f start) (f stop) line (edges.map (·.rename f)) := by
  induction edges with
  | nil => rfl
  | cons e es ih =>
    rw [List.map_cons, addCall, addCall]
    have hends : (e.start = start ∧ e.stop = stop) ↔
        ((e.rename f).start = f start ∧ (e.rename f).stop = f stop) :=
      and_congr hf.eq_iff.symm hf.eq_iff.symm
    by_cases he : e.start = start ∧ e.stop = stop
    · rw [if_pos he, if_pos (hends.mp he)]
      rfl
    · rw [if_neg he, if_neg fun h => he (hends.mpr h), List.map_cons, ih]

end ServiceTrace
