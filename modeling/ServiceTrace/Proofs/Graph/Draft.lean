import ServiceTrace.Graph.Build
import ServiceTrace.Proofs.Graph.Coherence

/-!
# `ServiceTrace.Proofs.Graph.Draft` — what a call site does to the nodes of a draft

Recording a call site has two halves that do not meet. The site is first led to a node, which touches the
nodes and their tables and leaves every edge alone; the call is then written into the edge to that node,
which leaves every node alone. `Draft.reach` is the first half, and `Draft.record_eq` puts them together.

Numbers of nodes come from three sources: the units of the trace, the routes, and the functions outside
the project. `Draft.Tables` is what the nodes and their tables say of each other, and
`Draft.Tables.extends_reach` is the step: a draft that is led to a node keeps its tables true, has that
node and no other one that it had not before.
-/

namespace ServiceTrace

/-! ## Nodes in order -/

namespace CallGraph

theorem mem_ids_insertNode (node : GraphNode) (i : Nat) (nodes : List GraphNode) :
    i ∈ (insertNode node nodes).map (·.id) ↔ i = node.id ∨ i ∈ nodes.map (·.id) := by
  induction nodes with
  | nil => simp [insertNode]
  | cons n ns ih =>
    unfold insertNode
    by_cases heq : node.id = n.id
    · rw [if_pos heq]
      simp [heq]
    · rw [if_neg heq]
      by_cases hlt : node.id < n.id
      · rw [if_pos hlt]
        simp
      · rw [if_neg hlt, List.map_cons, List.mem_cons, ih, List.map_cons, List.mem_cons]
        exact or_left_comm

/-- The new node is found under its number, and every other number keeps its node. -/
theorem find?_insertNode (node : GraphNode) (i : Nat) (nodes : List GraphNode) :
    (insertNode node nodes).find? (·.id = i) =
      if node.id = i then some node else nodes.find? (·.id = i) := by
  induction nodes with
  | nil => by_cases hi : node.id = i <;> simp [insertNode, hi]
  | cons n ns ih =>
    unfold insertNode
    by_cases heq : node.id = n.id
    · rw [if_pos heq]
      by_cases hi : node.id = i
      · simp [hi]
      · simp [hi, heq ▸ hi]
    · rw [if_neg heq]
      by_cases hlt : node.id < n.id
      · rw [if_pos hlt]
        by_cases hi : node.id = i <;> simp [hi]
      · rw [if_neg hlt, List.find?_cons, List.find?_cons, ih]
        by_cases hn : n.id = i
        · have hi : node.id ≠ i := fun hi => heq (hi.trans hn.symm)
          simp [hn, hi]
        · simp [hn]

theorem pairwise_insertNode (node : GraphNode) {nodes : List GraphNode}
    (h : (nodes.map (·.id)).Pairwise (· < ·)) :
    ((insertNode node nodes).map (·.id)).Pairwise (· < ·) := by
  induction nodes with
  | nil => exact List.pairwise_singleton _ _
  | cons n ns ih =>
    obtain ⟨hn, hns⟩ := List.pairwise_cons.mp h
    unfold insertNode
    by_cases heq : node.id = n.id
    · rw [if_pos heq]
      refine List.pairwise_cons.mpr ⟨fun j hj => ?_, hns⟩
      show node.id < j
      rw [heq]
      exact hn j hj
    · rw [if_neg heq]
      by_cases hlt : node.id < n.id
      · rw [if_pos hlt]
        refine List.pairwise_cons.mpr ⟨fun j hj => ?_, h⟩
        rcases List.mem_cons.mp hj with rfl | hj
        · exact hlt
        · exact Nat.lt_trans hlt (hn j hj)
      · rw [if_neg hlt]
        refine List.pairwise_cons.mpr ⟨fun j hj => ?_, ih hns⟩
        rcases (mem_ids_insertNode node j ns).mp hj with rfl | hj
        · show n.id < node.id
          omega
        · exact hn j hj

end CallGraph

/-- A node is that of a unit: it shows where the unit is declared. Whether it is a route as well is left
    open. -/
structure GraphNode.Shows (n : GraphNode) (u : FunctionUnit) : Prop where
  module : n.module = u.module
  function : n.function = u.name
  file : n.file = u.file.text
  line : n.line = some u.line
  external : n.external = false

namespace Draft

variable {opts : GraphOptions} {t : Trace} {d d' : Draft}

/-- The node of a number. -/
def node? (d : Draft) (i : Nat) : Option GraphNode :=
  d.nodes.find? (·.id = i)

/-- A number has a node that is a route. -/
def IsRouteAt (d : Draft) (i : Nat) : Prop :=
  ∃ n, d.node? i = some n ∧ n.isRoute = true

theorem hasNode_iff {i : Nat} : d.hasNode i = true ↔ ∃ n, d.node? i = some n := by
  unfold hasNode node?
  rw [← Option.isSome_iff_exists, List.find?_isSome, List.any_eq_true]

theorem hasNode_iff_mem {i : Nat} : d.hasNode i = true ↔ i ∈ d.nodes.map (·.id) := by
  unfold hasNode
  simp [List.any_eq_true]

theorem IsRouteAt.hasNode {i : Nat} (h : d.IsRouteAt i) : d.hasNode i = true :=
  hasNode_iff.mpr (h.imp fun _ hn => hn.1)

theorem node?_addNode (d : Draft) (node : GraphNode) (i : Nat) :
    (d.addNode node).node? i = if node.id = i then some node else d.node? i :=
  CallGraph.find?_insertNode node i d.nodes

theorem hasNode_addNode (d : Draft) (node : GraphNode) (i : Nat) :
    (d.addNode node).hasNode i = true ↔ d.hasNode i = true ∨ i = node.id := by
  rw [hasNode_iff_mem, hasNode_iff_mem, or_comm]
  exact CallGraph.mem_ids_insertNode node i d.nodes

/-- Turning a node into a route leaves its number alone, so every number finds its node again. -/
theorem node?_setRoute (d : Draft) (id : Nat) (r : Route) (i : Nat) :
    (d.setRoute id r).node? i = (d.node? i).map fun n =>
      if n.id = id then { n with isRoute := true, route := some (routeInfo r) } else n := by
  unfold node? setRoute
  rw [List.find?_map]
  congr 2
  funext n
  by_cases hn : n.id = id <;> simp [hn]

theorem ids_setRoute (d : Draft) (id : Nat) (r : Route) :
    (d.setRoute id r).nodes.map (·.id) = d.nodes.map (·.id) := by
  unfold setRoute
  rw [List.map_map]
  refine List.map_congr_left fun n _ => ?_
  by_cases hn : n.id = id <;> simp [hn]

theorem id_of_node? {i : Nat} {n : GraphNode} (h : d.node? i = some n) : n.id = i := by
  unfold node? at h
  simpa using List.find?_some h

/-! ## The node that a site leads to -/

/-- What a matched routing call can do: turn the unit that serves the route into a route, share the node
    of the serving function, or add one. -/
theorem matchedTarget_cases (opts : GraphOptions) (t : Trace) (d : Draft) (r : Route) :
    (∃ owner, t.units.find? (serves opts r) = some owner ∧ d.hasNode owner.id = true ∧
      d.matchedTarget opts t r = (d.setRoute owner.id r, owner.id)) ∨
    ((∀ owner, t.units.find? (serves opts r) = some owner → d.hasNode owner.id = false) ∧
      ((∃ id, d.routeNodes.find? (·.1 = (r.module, r.function, routeFile r)) =
          some ((r.module, r.function, routeFile r), id) ∧ d.matchedTarget opts t r = (d, id)) ∨
        (d.routeNodes.find? (·.1 = (r.module, r.function, routeFile r)) = none ∧
          d.matchedTarget opts t r =
            ({ (d.addTarget (routeNode r)).1 with
              routeNodes := ((r.module, r.function, routeFile r), d.nextId) :: d.routeNodes },
              d.nextId)))) := by
  unfold matchedTarget
  cases howner : (t.units.find? (serves opts r)).filter (d.hasNode ·.id) with
  | some owner =>
    obtain ⟨hfind, hnode⟩ := Option.filter_eq_some_iff.mp howner
    exact Or.inl ⟨owner, hfind, hnode, rfl⟩
  | none =>
    refine Or.inr ⟨fun owner hfind => ?_, ?_⟩
    · simpa using Option.filter_eq_none_iff.mp howner owner hfind
    · cases hkey : d.routeNodes.find? (·.1 = (r.module, r.function, routeFile r)) with
      | some entry =>
        obtain ⟨key, id⟩ := entry
        obtain rfl : key = (r.module, r.function, routeFile r) := by
          simpa using List.find?_some hkey
        exact Or.inl ⟨id, rfl, by simp only [hkey]⟩
      | none => exact Or.inr ⟨rfl, by simp only [hkey]; rfl⟩

/-- What a call of a function outside the project can do: share the node of that function, or add one. -/
theorem externalTarget_cases (d : Draft) (hit : Qualified) :
    (∃ id, d.externalNodes.find? (·.1 = (hit.module, hit.name)) =
        some ((hit.module, hit.name), id) ∧ d.externalTarget hit = (d, id)) ∨
    (d.externalNodes.find? (·.1 = (hit.module, hit.name)) = none ∧
      d.externalTarget hit =
        ({ (d.addTarget (externalNode hit)).1 with
          externalNodes := ((hit.module, hit.name), d.nextId) :: d.externalNodes }, d.nextId)) := by
  unfold externalTarget
  cases hkey : d.externalNodes.find? (·.1 = (hit.module, hit.name)) with
  | some entry =>
    obtain ⟨key, id⟩ := entry
    obtain rfl : key = (hit.module, hit.name) := by simpa using List.find?_some hkey
    exact Or.inl ⟨id, rfl, by simp only [hkey]⟩
  | none => exact Or.inr ⟨rfl, by simp only [hkey]; rfl⟩

/-- The node that a site leads to: the draft that has it, and its number. -/
def reach (opts : GraphOptions) (t : Trace) (d : Draft) (site : CallSite) : Option (Draft × Nat) :=
  match site.target, site.call.route, t.callee? site with
  | .route, some routing, _ => some (d.routeTarget opts t routing)
  | .declared _, _, some callee | .imported _, _, some callee => some (d.addUnit t callee, callee)
  | .imported hit, _, none =>
    if opts.external && (t.module? hit.module).isNone then some (d.externalTarget hit) else none
  | _, _, _ => none

/-- **The two halves of recording a site**: it is led to a node, and the call is written into the edge to
    that node. -/
theorem record_eq (opts : GraphOptions) (t : Trace) (d : Draft) (site : CallSite) :
    d.record opts t site =
      match d.reach opts t site with
      | none => d
      | some (d', target) =>
        if site.target = .route then
          (d'.addEdge site.unit.id target site.call.line).addRouteStep target
        else d'.addEdge site.unit.id target site.call.line := by
  unfold record reach
  cases htarget : site.target with
  | route => cases site.call.route <;> simp
  | declared name => cases t.callee? site <;> simp
  | imported hit =>
    cases t.callee? site with
    | some callee => simp
    | none =>
      by_cases hexternal : (opts.external && (t.module? hit.module).isNone) = true
      · simp [hexternal]
      · simp [hexternal]
  | unknown => simp
  | unrecognized => simp

/-- A site that leads to a unit leads to the node of that unit. -/
theorem reach_eq_addUnit {site : CallSite} {i : Nat} (h : t.callee? site = some i) :
    d.reach opts t site = some (d.addUnit t i, i) := by
  have hcallee := h
  unfold Trace.callee? at h
  unfold reach
  rw [hcallee]
  cases htarget : site.target <;> simp_all

/-- The ways to be led to a node. -/
theorem reach_cases {site : CallSite} {i : Nat} (h : d.reach opts t site = some (d', i)) :
    (t.callee? site = some i ∧ d' = d.addUnit t i) ∨
    (∃ routing, site.target = .route ∧ site.call.route = some routing ∧
      d.routeTarget opts t routing = (d', i)) ∨
    (∃ hit, site.target = .imported hit ∧ t.callee? site = none ∧ opts.external = true ∧
      t.module? hit.module = none ∧ d.externalTarget hit = (d', i)) := by
  unfold reach at h
  split at h
  · rename_i routing htarget hroute
    exact Or.inr (Or.inl ⟨routing, htarget, hroute, Option.some.inj h⟩)
  · rename_i hcallee
    obtain ⟨rfl, rfl⟩ := Prod.mk.inj (Option.some.inj h)
    exact Or.inl ⟨hcallee, rfl⟩
  · rename_i hcallee
    obtain ⟨rfl, rfl⟩ := Prod.mk.inj (Option.some.inj h)
    exact Or.inl ⟨hcallee, rfl⟩
  · rename_i hit htarget hcallee
    split at h
    · rename_i hexternal
      rw [Bool.and_eq_true, Option.isNone_iff_eq_none] at hexternal
      exact Or.inr (Or.inr ⟨hit, htarget, hcallee, hexternal.1, hexternal.2, Option.some.inj h⟩)
    · exact absurd h (by simp)
  · exact absurd h (by simp)

/-! ## What the tables of nodes say of each other -/

/-- Nodes are in the order of their numbers. A number below the number of units is that of the unit there;
    the numbers from there on are handed out one after the other, and the tables of routes and of functions
    outside the project list numbers that have been. -/
structure Tables (t : Trace) (d : Draft) : Prop where
  sorted : (d.nodes.map (·.id)).Pairwise (· < ·)
  bounded : ∀ i, d.hasNode i = true → i < d.nextId
  room : t.units.length ≤ d.nextId
  filled : ∀ i, t.units.length ≤ i → i < d.nextId → d.hasNode i = true
  units : ∀ i u n, t.units[i]? = some u → d.node? i = some n → n.Shows u
  routeNodes : ∀ entry ∈ d.routeNodes, d.IsRouteAt entry.2
  externalNodes : ∀ entry ∈ d.externalNodes, d.hasNode entry.2 = true

/-- A node is found under its own number. -/
theorem Tables.node?_of_mem (h : d.Tables t) {n : GraphNode} (hn : n ∈ d.nodes) :
    d.node? n.id = some n := by
  have hnodup : (d.nodes.map (·.id)).Nodup := h.sorted.imp Nat.ne_of_lt
  exact find?_key_of_mem hnodup hn

/-- The next number is free. -/
theorem Tables.hasNode_nextId (h : d.Tables t) : d.hasNode d.nextId = false := by
  rw [Bool.eq_false_iff]
  exact fun hi => Nat.lt_irrefl _ (h.bounded _ hi)

/-- One draft has the nodes of another one and the node of a number; no node was lost and no route turned
    back. -/
structure Extends (t : Trace) (d d' : Draft) (i : Nat) : Prop where
  tables : d'.Tables t
  hasNode_iff : ∀ j, d'.hasNode j = true ↔ d.hasNode j = true ∨ j = i
  isRouteAt : ∀ j, d.IsRouteAt j → d'.IsRouteAt j

/-- A node that is there already is an extension by nothing. -/
theorem Tables.extends_self (h : d.Tables t) {i : Nat} (hi : d.hasNode i = true) :
    Extends t d d i :=
  ⟨h, fun _ => ⟨Or.inl, fun hj => hj.elim id (· ▸ hi)⟩, fun _ hj => hj⟩

theorem IsRouteAt.addNode {i : Nat} (h : d.IsRouteAt i) {node : GraphNode}
    (hnew : d.hasNode node.id = false) : (d.addNode node).IsRouteAt i := by
  obtain ⟨n, hn, hroute⟩ := h
  refine ⟨n, ?_, hroute⟩
  rw [node?_addNode, if_neg ?_]
  · exact hn
  · rintro rfl
    exact Bool.false_ne_true (hnew.symm.trans (Draft.hasNode_iff.mpr ⟨n, hn⟩))

/-- A node with a new number, when the numbers that are handed out go on behind it without a gap. -/
theorem Tables.extends_addNode (h : d.Tables t) {node : GraphNode} {next : Nat}
    (hnew : d.hasNode node.id = false) (hlt : node.id < next) (hle : d.nextId ≤ next)
    (hgap : ∀ i, d.nextId ≤ i → i < next → i = node.id)
    (hshows : ∀ u, t.units[node.id]? = some u → node.Shows u) :
    Extends t d { d.addNode node with nextId := next } node.id := by
  have hhas := hasNode_addNode d node
  have hkeep : ∀ i, d.hasNode i = true → (d.addNode node).hasNode i = true :=
    fun i hi => (hhas i).mpr (Or.inl hi)
  refine ⟨⟨CallGraph.pairwise_insertNode node h.sorted, ?_, Nat.le_trans h.room hle, ?_, ?_, ?_, ?_⟩,
    hhas, fun i hi => hi.addNode hnew⟩
  · intro i hi
    rcases (hhas i).mp hi with hi | rfl
    · exact Nat.lt_of_lt_of_le (h.bounded i hi) hle
    · exact hlt
  · intro i hi hnext
    by_cases hold : i < d.nextId
    · exact hkeep i (h.filled i hi hold)
    · exact (hhas i).mpr (Or.inr (hgap i (Nat.le_of_not_lt hold) hnext))
  · intro i u n hu hn
    have hn : (d.addNode node).node? i = some n := hn
    rw [node?_addNode] at hn
    by_cases hi : node.id = i
    · rw [if_pos hi] at hn
      obtain rfl := Option.some.inj hn
      exact hshows u (hi ▸ hu)
    · rw [if_neg hi] at hn
      exact h.units i u n hu hn
  · exact fun entry he => (h.routeNodes entry he).addNode hnew
  · exact fun entry he => hkeep _ (h.externalNodes entry he)

theorem addUnit_eq {i : Nat} {u : FunctionUnit} (hu : t.units[i]? = some u) :
    d.addUnit t i = if d.hasNode i then d else d.addNode u.node := by
  unfold addUnit
  rw [hu]

/-- The node of a unit has the number of the unit. -/
theorem Tables.extends_addUnit (h : d.Tables t) (ht : t.Coherent) {i : Nat} {u : FunctionUnit}
    (hu : t.units[i]? = some u) : Extends t d (d.addUnit t i) i := by
  rw [addUnit_eq hu]
  by_cases hi : d.hasNode i = true
  · rw [if_pos hi]
    exact h.extends_self hi
  · rw [if_neg hi]
    have hid : u.node.id = i := ht.numbered i u hu
    have hnew : d.hasNode u.node.id = false := by
      rw [hid]
      exact Bool.eq_false_iff.mpr hi
    have hlt : u.node.id < d.nextId := by
      have hroom := h.room
      have hlength := (List.getElem?_eq_some_iff.mp hu).1
      omega
    have hshows : ∀ v, t.units[u.node.id]? = some v → u.node.Shows v := by
      intro v hv
      rw [hid, hu] at hv
      obtain rfl := Option.some.inj hv
      exact ⟨rfl, rfl, rfl, rfl, rfl⟩
    have hext := h.extends_addNode hnew hlt (Nat.le_refl _) (by omega) hshows
    exact hid ▸ hext

/-- A node that is no unit takes the next number. -/
theorem Tables.extends_addTarget (h : d.Tables t) {node : Nat → GraphNode}
    (hnode : (node d.nextId).id = d.nextId) : Extends t d (d.addTarget node).1 d.nextId := by
  have hnew : d.hasNode (node d.nextId).id = false := by
    rw [hnode]
    exact h.hasNode_nextId
  have hlt : (node d.nextId).id < d.nextId + 1 := by omega
  have hshows : ∀ u, t.units[(node d.nextId).id]? = some u → (node d.nextId).Shows u := by
    intro u hu
    have hroom := h.room
    have hlength := (List.getElem?_eq_some_iff.mp hu).1
    omega
  have hext := h.extends_addNode hnew hlt (Nat.le_succ _) (by omega) hshows
  exact hnode ▸ hext

theorem isRouteAt_addTarget (d : Draft) {node : Nat → GraphNode}
    (hnode : (node d.nextId).id = d.nextId) (hroute : (node d.nextId).isRoute = true) :
    (d.addTarget node).1.IsRouteAt d.nextId := by
  refine ⟨node d.nextId, ?_, hroute⟩
  exact (node?_addNode d (node d.nextId) d.nextId).trans (if_pos hnode)

theorem Extends.routeNodes {i : Nat} (h : Extends t d d' i) (hi : d'.IsRouteAt i)
    (key : String × String × String) :
    Extends t d { d' with routeNodes := (key, i) :: d'.routeNodes } i := by
  refine ⟨{ h.tables with routeNodes := fun entry he => ?_ }, h.hasNode_iff, h.isRouteAt⟩
  rcases List.mem_cons.mp he with rfl | he
  · exact hi
  · exact h.tables.routeNodes entry he

theorem Extends.externalNodes {i : Nat} (h : Extends t d d' i) (key : String × String) :
    Extends t d { d' with externalNodes := (key, i) :: d'.externalNodes } i := by
  refine ⟨{ h.tables with externalNodes := fun entry he => ?_ }, h.hasNode_iff, h.isRouteAt⟩
  rcases List.mem_cons.mp he with rfl | he
  · exact (h.hasNode_iff i).mpr (Or.inr rfl)
  · exact h.tables.externalNodes entry he

/-- Turning the node of a unit into a route adds no node. -/
theorem Tables.extends_setRoute (h : d.Tables t) {i : Nat} (hi : d.hasNode i = true) (r : Route) :
    Extends t d (d.setRoute i r) i := by
  have hhas : ∀ j, (d.setRoute i r).hasNode j = true ↔ d.hasNode j = true := fun j => by
    rw [hasNode_iff_mem, ids_setRoute, ← hasNode_iff_mem]
  have hroute : ∀ j, d.IsRouteAt j → (d.setRoute i r).IsRouteAt j := by
    rintro j ⟨n, hn, hroute⟩
    refine ⟨_, by rw [node?_setRoute, hn]; rfl, ?_⟩
    by_cases hid : n.id = i <;> simp [hid, hroute]
  refine ⟨⟨?_, ?_, h.room, ?_, ?_, ?_, ?_⟩, fun j => ?_, hroute⟩
  · rw [ids_setRoute]
    exact h.sorted
  · exact fun j hj => h.bounded j ((hhas j).mp hj)
  · exact fun j hj hlt => (hhas j).mpr (h.filled j hj hlt)
  · intro j u n hu hn
    rw [node?_setRoute] at hn
    obtain ⟨n', hn', rfl⟩ := Option.map_eq_some_iff.mp hn
    have hshows := h.units j u n' hu hn'
    by_cases hid : n'.id = i
    · rw [if_pos hid]
      exact ⟨hshows.module, hshows.function, hshows.file, hshows.line, hshows.external⟩
    · rw [if_neg hid]
      exact hshows
  · exact fun entry he => hroute _ (h.routeNodes entry he)
  · exact fun entry he => (hhas _).mpr (h.externalNodes entry he)
  · rw [hhas]
    exact ⟨Or.inl, fun hj => hj.elim id (· ▸ hi)⟩

theorem isRouteAt_setRoute {i : Nat} (hi : d.hasNode i = true) (r : Route) :
    (d.setRoute i r).IsRouteAt i := by
  obtain ⟨n, hn⟩ := hasNode_iff.mp hi
  refine ⟨{ n with isRoute := true, route := some (routeInfo r) }, ?_, rfl⟩
  rw [node?_setRoute, hn, Option.map_some, if_pos (id_of_node? hn)]

/-- A routing call leads to a route. -/
theorem Tables.extends_routeTarget (h : d.Tables t) {routing : Routing} {i : Nat}
    (hr : d.routeTarget opts t routing = (d', i)) : Extends t d d' i ∧ d'.IsRouteAt i := by
  unfold routeTarget at hr
  split at hr
  · obtain ⟨rfl, rfl⟩ := Prod.mk.inj hr
    exact ⟨h.extends_addTarget rfl, isRouteAt_addTarget d rfl rfl⟩
  · rename_i r _
    rcases matchedTarget_cases opts t d r with ⟨owner, -, hi, heq⟩ | ⟨-, ⟨id, hkey, heq⟩ | ⟨-, heq⟩⟩
    · obtain ⟨rfl, rfl⟩ := Prod.mk.inj (heq.symm.trans hr)
      exact ⟨h.extends_setRoute hi r, isRouteAt_setRoute hi r⟩
    · obtain ⟨rfl, rfl⟩ := Prod.mk.inj (heq.symm.trans hr)
      have hroute := h.routeNodes _ (List.mem_of_find?_eq_some hkey)
      exact ⟨h.extends_self hroute.hasNode, hroute⟩
    · obtain ⟨rfl, rfl⟩ := Prod.mk.inj (heq.symm.trans hr)
      have hroute : (d.addTarget (routeNode r)).1.IsRouteAt d.nextId := isRouteAt_addTarget d rfl rfl
      exact ⟨(h.extends_addTarget rfl).routeNodes hroute _, hroute⟩

theorem Tables.extends_externalTarget (h : d.Tables t) {hit : Qualified} {i : Nat}
    (hr : d.externalTarget hit = (d', i)) : Extends t d d' i := by
  rcases externalTarget_cases d hit with ⟨id, hkey, heq⟩ | ⟨-, heq⟩
  · obtain ⟨rfl, rfl⟩ := Prod.mk.inj (heq.symm.trans hr)
    exact h.extends_self (h.externalNodes _ (List.mem_of_find?_eq_some hkey))
  · obtain ⟨rfl, rfl⟩ := Prod.mk.inj (heq.symm.trans hr)
    exact (h.extends_addTarget rfl).externalNodes _

/-- **A site that is led to a node adds at most that node**, and a routing call is led to a route. -/
theorem Tables.extends_reach (h : d.Tables t) (ht : t.Coherent) {site : CallSite} {i : Nat}
    (hr : d.reach opts t site = some (d', i)) :
    Extends t d d' i ∧ (site.target = .route → d'.IsRouteAt i) := by
  rcases reach_cases hr with ⟨hcallee, rfl⟩ | ⟨routing, -, -, hr⟩ | ⟨hit, htarget, -, -, -, hr⟩
  · have hlt := ht.callee?_lt hcallee
    refine ⟨h.extends_addUnit ht (List.getElem?_eq_getElem hlt), fun htarget => ?_⟩
    unfold Trace.callee? at hcallee
    simp [htarget] at hcallee
  · exact (h.extends_routeTarget hr).imp_right fun hroute _ => hroute
  · exact ⟨h.extends_externalTarget hr, fun hroute => absurd (htarget.symm.trans hroute) (by simp)⟩

/-- Being led to a node leaves edges alone. -/
theorem edges_reach {site : CallSite} {i : Nat} (hr : d.reach opts t site = some (d', i)) :
    d'.edges = d.edges ∧ d'.dotted = d.dotted ∧ d'.lastRoute = d.lastRoute := by
  rcases reach_cases hr with ⟨-, rfl⟩ | ⟨routing, -, -, hr⟩ | ⟨hit, -, -, -, -, hr⟩
  · unfold addUnit
    split
    · split <;> exact ⟨rfl, rfl, rfl⟩
    · exact ⟨rfl, rfl, rfl⟩
  · unfold routeTarget at hr
    split at hr
    · obtain ⟨rfl, rfl⟩ := Prod.mk.inj hr
      exact ⟨rfl, rfl, rfl⟩
    · rename_i r _
      rcases matchedTarget_cases opts t d r with ⟨_, -, -, heq⟩ | ⟨-, ⟨_, -, heq⟩ | ⟨-, heq⟩⟩ <;>
        obtain ⟨rfl, rfl⟩ := Prod.mk.inj (heq.symm.trans hr) <;> exact ⟨rfl, rfl, rfl⟩
  · rcases externalTarget_cases d hit with ⟨_, -, heq⟩ | ⟨-, heq⟩ <;>
      obtain ⟨rfl, rfl⟩ := Prod.mk.inj (heq.symm.trans hr) <;> exact ⟨rfl, rfl, rfl⟩

end Draft

end ServiceTrace
