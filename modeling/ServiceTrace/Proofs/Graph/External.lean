import ServiceTrace.Proofs.Graph.Allotment
import ServiceTrace.Proofs.Graph.Renaming

/-!
# `ServiceTrace.Proofs.Graph.External` — drawing the functions outside the project

Whether the functions outside the project are drawn is a setting. Their nodes take numbers from the same
counter as those of the routes, so a graph with them has other numbers, and other nodes and edges in between.
Apart from that it is the same graph.

The two graphs are drawn side by side, one call site after the other. `SameNodes` and `SameCalls` say that one
draft is the other one under a renaming of the numbers, when the functions outside the project are left out.
The renaming maps the numbers that are still to be handed out as well, the next one of one draft to the next
one of the other. So a site that both drafts lead to a node keeps it (`SameStep`), and only a new function
outside the project changes it, for numbers that are not in use (`SameNodes.addOutside`).

* `CallGraph.ExtendsBy` — a graph is another one, with functions outside the project added.
* **`Tracer.graph_external`** — the graph with the functions outside the project extends the one without.
-/

namespace ServiceTrace

/-- `outer` is the graph `inner` with functions outside the project added: when these are left out, the numbers
    of `inner` in the same order, those of the units unchanged, give the same nodes, the same edges with the
    same calls, and the same dotted edges. -/
structure CallGraph.ExtendsBy (t : Trace) (f : Nat → Nat) (outer inner : CallGraph) : Prop where
  ordered : StrictMono f
  units : ∀ i < t.units.length, f i = i
  same : outer.withoutOutside = inner.rename f

/-- Without the functions outside the project, the calls of these ask for nothing, and any other call asks for
    what it asks for. -/
theorem Trace.errand_inside (policy : Policy) (samePath : Path → Path → Bool) (t : Trace)
    (site : CallSite) :
    t.errand ⟨policy, false, samePath⟩ site =
      match t.errand ⟨policy, true, samePath⟩ site with
      | .outside _ => .nothing
      | errand => errand := by
  unfold errand
  cases site.target with
  | route =>
    cases site.call.route with
    | none => rfl
    | some routing => cases hmatched : routing.matched <;> simp [hmatched]
  | declared name => cases t.callee? site <;> rfl
  | imported hit =>
    cases t.callee? site with
    | some callee => rfl
    | none => cases hread : t.module? hit.module <;> simp [hread]
  | unknown => rfl
  | unrecognized => rfl

/-- A call of a function outside the project is no routing call. -/
theorem Trace.target_of_errand_outside {opts : GraphOptions} {t : Trace} {site : CallSite}
    {hit : Qualified} (h : t.errand opts site = .outside hit) : site.target = .imported hit := by
  unfold errand at h
  split at h
  · split at h <;> exact absurd h (by simp)
  · exact absurd h (by simp)
  · exact absurd h (by simp)
  · rename_i hit' htarget _
    split at h
    · obtain rfl := Errand.outside.inj h
      exact htarget
    · exact absurd h (by simp)
  · exact absurd h (by simp)

/-- The node of a unit is not outside the project. -/
theorem GraphNode.Shows.isOutside {n : GraphNode} {u : FunctionUnit} (h : n.Shows u) :
    n.isOutside = false := by
  simp [GraphNode.isOutside, h.external]

namespace Draft

variable {policy : Policy} {samePath : Path → Path → Bool} {t : Trace} {f : Nat → Nat}
  {d d' d₀ d₁ d₀' d₁' : Draft}

/-! ## Numbers outside the project -/

/-- Whether a number has the node of a function outside the project. -/
def outsideAt (d : Draft) (i : Nat) : Bool :=
  (d.node? i).any (·.isOutside)

theorem outsideAt_eq_false {i : Nat} {n : GraphNode} (hn : d.node? i = some n)
    (hinside : n.isOutside = false) : d.outsideAt i = false := by
  unfold outsideAt
  rw [hn]
  exact hinside

/-- A route is not outside the project. -/
theorem IsRouteAt.outsideAt {i : Nat} (h : d.IsRouteAt i) : d.outsideAt i = false := by
  obtain ⟨n, hn, hroute⟩ := h
  exact outsideAt_eq_false hn (by simp [GraphNode.isOutside, hroute])

/-- A draft keeps the numbers of another one inside or outside the project. -/
def Keeps (d d' : Draft) : Prop :=
  ∀ i, d.hasNode i = true → d'.outsideAt i = d.outsideAt i

theorem not_mem_ids {i : Nat} (h : d.hasNode i = false) : i ∉ d.nodes.map (·.id) := by
  rw [← hasNode_iff_mem]
  exact Bool.eq_false_iff.mp h

theorem keeps_addNode {node : GraphNode} (hnew : d.hasNode node.id = false) :
    Keeps d (d.addNode node) := by
  intro i hi
  unfold outsideAt
  rw [node?_addNode, if_neg ?_]
  rintro rfl
  exact Bool.false_ne_true (hnew.symm.trans hi)

/-! ## The same nodes -/

/-- When the functions outside the project are left out, `d₁` has the nodes of `d₀` under other numbers. The
    numbers that `d₀` has not handed out yet stand for those that `d₁` has not handed out. -/
structure SameNodes (t : Trace) (f : Nat → Nat) (d₀ d₁ : Draft) : Prop where
  ordered : StrictMono f
  units : ∀ i < t.units.length, f i = i
  next : ∀ i, f (d₀.nextId + i) = d₁.nextId + i
  nodes : d₁.nodes.filter (!·.isOutside) = d₀.nodes.map (·.rename f)
  routeNodes : d₁.routeNodes = d₀.routeNodes.map fun entry => (entry.1, f entry.2)
  outside : ∀ entry ∈ d₁.externalNodes, d₁.outsideAt entry.2 = true

theorem SameNodes.next_eq (h : SameNodes t f d₀ d₁) : f d₀.nextId = d₁.nextId :=
  h.next 0

/-- A unit has its node in both drafts or in none. -/
theorem SameNodes.hasNode_iff (h : SameNodes t f d₀ d₁) (h₁ : d₁.Tables t) {i : Nat}
    (hi : i < t.units.length) : d₁.hasNode i = d₀.hasNode i := by
  rw [Bool.eq_iff_iff, hasNode_iff_mem, hasNode_iff_mem, List.mem_map, List.mem_map]
  constructor
  · rintro ⟨n, hn, rfl⟩
    have hshows := h₁.units n.id _ n (List.getElem?_eq_getElem hi) (h₁.node?_of_mem hn)
    have hinside : n ∈ d₁.nodes.filter (!·.isOutside) :=
      List.mem_filter.mpr ⟨hn, by simp [hshows.isOutside]⟩
    rw [h.nodes] at hinside
    obtain ⟨m, hm, rfl⟩ := List.mem_map.mp hinside
    refine ⟨m, hm, ?_⟩
    exact h.ordered.injective ((h.units _ hi).symm)
  · rintro ⟨n, hn, rfl⟩
    have hmem : n.rename f ∈ d₁.nodes.filter (!·.isOutside) := by
      rw [h.nodes]
      exact List.mem_map_of_mem hn
    exact ⟨n.rename f, (List.mem_filter.mp hmem).1, h.units _ hi⟩

/-- The functions outside the project stay where they are when nothing is added to their table. -/
theorem Tables.outside_keeps (h₁ : d₁.Tables t)
    (h : ∀ entry ∈ d₁.externalNodes, d₁.outsideAt entry.2 = true) (hkeeps : Keeps d₁ d₁')
    (htable : d₁'.externalNodes = d₁.externalNodes) :
    ∀ entry ∈ d₁'.externalNodes, d₁'.outsideAt entry.2 = true := by
  intro entry hentry
  rw [htable] at hentry
  rw [hkeeps _ (h₁.externalNodes entry hentry)]
  exact h entry hentry

/-- The nodes of two drafts after a node with a new number that is not outside the project. -/
theorem SameNodes.nodes_addNode (h : SameNodes t f d₀ d₁) (h₁ : d₁.Tables t) (node : GraphNode)
    (hnew : d₁.hasNode (f node.id) = false) (hinside : node.isOutside = false) :
    (d₁.addNode (node.rename f)).nodes.filter (!·.isOutside) =
      (d₀.addNode node).nodes.map (·.rename f) := by
  have hfresh : (node.rename f).id ∉ d₁.nodes.map (·.id) := not_mem_ids hnew
  have hkept : (!(node.rename f).isOutside) = true := by
    rw [Bool.not_eq_true']
    exact hinside
  show (CallGraph.insertNode (node.rename f) d₁.nodes).filter _ = (CallGraph.insertNode node d₀.nodes).map _
  rw [CallGraph.filter_insertNode _ h₁.sorted hfresh, if_pos hkept, h.nodes,
    CallGraph.map_rename_insertNode h.ordered]

/-- What two drafts come to that have been led to the same node: they still have the same nodes, the number is
    that of the same node, which is not outside the project, and no other node has moved in or out. -/
structure SameStep (t : Trace) (f : Nat → Nat) (d₁ : Draft) (r₀ r₁ : Draft × Nat) : Prop where
  nodes : SameNodes t f r₀.1 r₁.1
  target : r₁.2 = f r₀.2
  inside : r₁.1.outsideAt r₁.2 = false
  keeps : Keeps d₁ r₁.1

/-- The node of a unit. -/
theorem SameNodes.addUnit (h : SameNodes t f d₀ d₁) (ht : t.Coherent) (h₁ : d₁.Tables t) {i : Nat}
    (hi : i < t.units.length) : SameStep t f d₁ (d₀.addUnit t i, i) (d₁.addUnit t i, i) := by
  obtain ⟨u, hu⟩ : ∃ u, t.units[i]? = some u := ⟨_, List.getElem?_eq_getElem hi⟩
  have hid : u.node.id = i := ht.numbered i u hu
  have hext := h₁.extends_addUnit ht hu
  have hinside : (d₁.addUnit t i).outsideAt i = false := by
    obtain ⟨n, hn⟩ := Draft.hasNode_iff.mp ((hext.hasNode_iff i).mpr (.inr rfl))
    exact outsideAt_eq_false hn (hext.tables.units i u n hu hn).isOutside
  by_cases hnode : d₀.hasNode i = true
  · have hnode₁ : d₁.hasNode i = true := by rw [h.hasNode_iff h₁ hi, hnode]
    rw [addUnit_eq hu, if_pos hnode₁] at hinside
    rw [addUnit_eq hu, addUnit_eq hu, if_pos hnode, if_pos hnode₁]
    exact ⟨h, (h.units i hi).symm, hinside, fun _ _ => rfl⟩
  · have hnode₁ : ¬ d₁.hasNode i = true := by rwa [h.hasNode_iff h₁ hi]
    rw [addUnit_eq hu, if_neg hnode₁] at hinside
    rw [addUnit_eq hu, addUnit_eq hu, if_neg hnode, if_neg hnode₁]
    have hfixed : f u.node.id = u.node.id := by rw [hid, h.units i hi]
    have hnew : d₁.hasNode (f u.node.id) = false := by
      rw [hfixed, hid]
      exact Bool.eq_false_iff.mpr hnode₁
    have hnodes := h.nodes_addNode h₁ u.node hnew rfl
    rw [GraphNode.rename_eq_self hfixed] at hnodes
    have hkeeps : Keeps d₁ (d₁.addNode u.node) := keeps_addNode (hfixed ▸ hnew)
    refine ⟨⟨h.ordered, h.units, h.next, hnodes, h.routeNodes, ?_⟩, (h.units i hi).symm, hinside, hkeeps⟩
    exact h₁.outside_keeps h.outside hkeeps rfl

/-- The node of a route that no unit serves. -/
theorem SameNodes.addTarget (h : SameNodes t f d₀ d₁) (h₁ : d₁.Tables t) (node : Nat → GraphNode)
    (hid : ∀ i, (node i).id = i) (hrename : ∀ i, (node i).rename f = node (f i))
    (hinside : ∀ i, (node i).isOutside = false) :
    SameStep t f d₁ (d₀.addTarget node) (d₁.addTarget node) := by
  have hnew : d₁.hasNode (node d₁.nextId).id = false := by
    rw [hid]
    exact h₁.hasNode_nextId
  have hnew' : d₁.hasNode (f (node d₀.nextId).id) = false := by
    rw [hid, h.next_eq]
    exact h₁.hasNode_nextId
  have hkeeps : Keeps d₁ (d₁.addNode (node d₁.nextId)) := keeps_addNode hnew
  have hnodes := h.nodes_addNode h₁ (node d₀.nextId) hnew' (hinside _)
  rw [hrename, h.next_eq] at hnodes
  have htarget : (d₁.addTarget node).1.outsideAt d₁.nextId = false :=
    outsideAt_eq_false ((node?_addNode d₁ _ _).trans (if_pos (hid _))) (hinside _)
  refine ⟨⟨h.ordered, h.units, ?_, hnodes, h.routeNodes, ?_⟩, h.next_eq.symm, htarget, hkeeps⟩
  · intro i
    show f (d₀.nextId + 1 + i) = d₁.nextId + 1 + i
    rw [Nat.add_assoc, h.next, Nat.add_assoc]
  · exact h₁.outside_keeps h.outside hkeeps rfl

/-- A node as it is after the one of a number has been turned into a route. -/
def routeAt (i : Nat) (r : Route) (n : GraphNode) : GraphNode :=
  if n.id = i then { n with isRoute := true, route := some (routeInfo r) } else n

/-- A node that is inside the project stays there when it turns into a route. -/
theorem isOutside_routeAt {i : Nat} {n : GraphNode} (r : Route) (h : n.id = i → n.isOutside = false) :
    (routeAt i r n).isOutside = n.isOutside := by
  unfold routeAt
  by_cases hid : n.id = i
  · rw [if_pos hid, h hid]
    simp [GraphNode.isOutside]
  · rw [if_neg hid]

theorem routeAt_rename (hf : Function.Injective f) {i : Nat} (hi : f i = i) (r : Route) (n : GraphNode) :
    routeAt i r (n.rename f) = (routeAt i r n).rename f := by
  have hid : (n.rename f).id = i ↔ n.id = i := by
    show f n.id = i ↔ n.id = i
    rw [← hi, hf.eq_iff, hi]
  unfold routeAt
  by_cases hn : n.id = i
  · rw [if_pos hn, if_pos (hid.mpr hn)]
    rfl
  · rw [if_neg hn, if_neg fun hn' => hn (hid.mp hn')]

/-- No unit is outside the project, also when it becomes a route. -/
theorem Tables.keeps_setRoute (h : d.Tables t) {i : Nat} (hi : i < t.units.length) (r : Route) :
    Keeps d (d.setRoute i r) := by
  intro j _
  unfold outsideAt
  rw [node?_setRoute]
  cases hn : d.node? j with
  | none => rfl
  | some n =>
    apply isOutside_routeAt
    intro hid
    obtain rfl : j = i := (id_of_node? hn).symm.trans hid
    exact (h.units j _ n (List.getElem?_eq_getElem hi) hn).isOutside

/-- The node of a unit that turns into a route. -/
theorem SameNodes.setRoute (h : SameNodes t f d₀ d₁) (h₁ : d₁.Tables t) {i : Nat}
    (hi : i < t.units.length) (hnode : d₁.hasNode i = true) (r : Route) :
    SameStep t f d₁ (d₀.setRoute i r, i) (d₁.setRoute i r, i) := by
  have hkeeps := h₁.keeps_setRoute hi r
  have hleft : ∀ n ∈ d₁.nodes, (!(routeAt i r n).isOutside) = !n.isOutside := by
    intro n hn
    congr 1
    apply isOutside_routeAt
    intro hid
    exact (h₁.units i _ n (List.getElem?_eq_getElem hi) (hid ▸ h₁.node?_of_mem hn)).isOutside
  refine ⟨⟨h.ordered, h.units, h.next, ?_, h.routeNodes, ?_⟩, (h.units i hi).symm,
    (isRouteAt_setRoute hnode r).outsideAt, hkeeps⟩
  · show (d₁.nodes.map (routeAt i r)).filter _ = (d₀.nodes.map (routeAt i r)).map _
    rw [List.filter_map]
    show (d₁.nodes.filter fun n => !(routeAt i r n).isOutside).map _ = _
    rw [List.filter_congr hleft, h.nodes, List.map_map, List.map_map]
    apply List.map_congr_left
    intro n _
    exact routeAt_rename h.ordered.injective (h.units i hi) r n
  · exact h₁.outside_keeps h.outside hkeeps rfl

/-- The node of a route of the catalog. -/
theorem SameNodes.matchedTarget (h : SameNodes t f d₀ d₁) (ht : t.Coherent) (h₁ : d₁.Tables t)
    (r : Route) :
    SameStep t f d₁ (d₀.matchedTarget ⟨policy, false, samePath⟩ t r)
      (d₁.matchedTarget ⟨policy, true, samePath⟩ t r) := by
  have hserves : serves ⟨policy, false, samePath⟩ r = serves ⟨policy, true, samePath⟩ r := rfl
  have hfound : d₁.routeNodes.find? (·.1 = (r.module, r.function, routeFile r)) =
      (d₀.routeNodes.find? (·.1 = (r.module, r.function, routeFile r))).map
        fun entry => (entry.1, f entry.2) := by
    rw [h.routeNodes, List.find?_map]
    rfl
  have howner : ∀ u, t.units.find? (serves ⟨policy, true, samePath⟩ r) = some u →
      u.id < t.units.length := by
    intro u hu
    exact ht.id_lt (List.mem_of_find?_eq_some hu)
  rcases matchedTarget_cases ⟨policy, false, samePath⟩ t d₀ r with
    ⟨u, hu, hnode, heq⟩ | ⟨hnone, hrest⟩
  · rw [hserves] at hu
    have hi := howner u hu
    rw [← h.hasNode_iff h₁ hi] at hnode
    rcases matchedTarget_cases ⟨policy, true, samePath⟩ t d₁ r with
      ⟨u', hu', -, heq'⟩ | ⟨hnone', -⟩
    · obtain rfl : u = u' := Option.some.inj (hu.symm.trans hu')
      rw [heq, heq']
      exact h.setRoute h₁ hi hnode r
    · exact absurd ((hnone' u hu).symm.trans hnode) (by simp)
  · rcases matchedTarget_cases ⟨policy, true, samePath⟩ t d₁ r with
      ⟨u, hu, hnode, -⟩ | ⟨-, hrest'⟩
    · rw [h.hasNode_iff h₁ (howner u hu)] at hnode
      exact absurd ((hnone u hu).symm.trans hnode) (by simp)
    · rcases hrest with ⟨i, hkey, heq⟩ | ⟨hkey, heq⟩
      · rw [hkey] at hfound
        rcases hrest' with ⟨i', hkey', heq'⟩ | ⟨hkey', -⟩
        · obtain rfl : f i = i' := by simpa using hfound.symm.trans hkey'
          rw [heq, heq']
          have hroute := h₁.routeNodes _ (List.mem_of_find?_eq_some hkey')
          exact ⟨h, rfl, hroute.outsideAt, fun _ _ => rfl⟩
        · exact absurd (hkey'.symm.trans hfound) (by simp)
      · rw [hkey] at hfound
        rcases hrest' with ⟨i', hkey', -⟩ | ⟨-, heq'⟩
        · exact absurd (hkey'.symm.trans hfound) (by simp)
        · rw [heq, heq']
          have hstep := h.addTarget h₁ (routeNode r) (fun _ => rfl) (fun _ => rfl) fun _ => rfl
          have hnodes := hstep.nodes
          refine ⟨⟨hnodes.ordered, hnodes.units, hnodes.next, hnodes.nodes, ?_, hnodes.outside⟩,
            hstep.target, hstep.inside, hstep.keeps⟩
          show _ :: d₁.routeNodes = List.map _ (_ :: d₀.routeNodes)
          rw [List.map_cons, h.routeNodes, h.next_eq]

/-! ### A new function outside the project -/

/-- A renaming with all numbers from `next` on moved up by one. -/
def skip (f : Nat → Nat) (next i : Nat) : Nat :=
  if i < next then f i else f i + 1

theorem skip_of_lt {next i : Nat} (h : i < next) : skip f next i = f i :=
  if_pos h

theorem strictMono_skip (hf : StrictMono f) (next : Nat) : StrictMono (skip f next) := by
  intro i j hij
  have hlt : f i < f j := hf hij
  unfold skip
  split <;> split <;> omega

/-- A new function outside the project takes a number in one draft only. The numbers in use keep their names,
    and those still to be handed out move up. -/
theorem SameNodes.addOutside (h : SameNodes t f d₀ d₁) (h₀ : d₀.Tables t) (h₁ : d₁.Tables t)
    (node : Nat → GraphNode) (hid : ∀ i, (node i).id = i) (houtside : ∀ i, (node i).isOutside = true)
    (key : String × String) :
    SameNodes t (skip f d₀.nextId) d₀
        { (d₁.addTarget node).1 with externalNodes := (key, d₁.nextId) :: d₁.externalNodes } ∧
      Keeps d₁ (d₁.addTarget node).1 ∧ (d₁.addTarget node).1.outsideAt d₁.nextId = true := by
  have hnew : d₁.hasNode (node d₁.nextId).id = false := by
    rw [hid]
    exact h₁.hasNode_nextId
  have hkeeps : Keeps d₁ (d₁.addNode (node d₁.nextId)) := keeps_addNode hnew
  have hthere : (d₁.addNode (node d₁.nextId)).outsideAt d₁.nextId = true := by
    unfold outsideAt
    rw [node?_addNode, if_pos (hid _)]
    exact houtside _
  refine ⟨⟨strictMono_skip h.ordered _, ?_, ?_, ?_, ?_, ?_⟩, hkeeps, hthere⟩
  · intro i hi
    rw [skip_of_lt (Nat.lt_of_lt_of_le hi h₀.room)]
    exact h.units i hi
  · intro i
    have hnext := h.next i
    show skip f d₀.nextId (d₀.nextId + i) = d₁.nextId + 1 + i
    unfold skip
    rw [if_neg (by omega)]
    omega
  · show (CallGraph.insertNode (node d₁.nextId) d₁.nodes).filter _ = _
    rw [CallGraph.filter_insertNode _ h₁.sorted (not_mem_ids hnew), if_neg (by simp [houtside]), h.nodes]
    apply List.map_congr_left
    intro n hn
    unfold GraphNode.rename
    rw [skip_of_lt (h₀.bounded _ (hasNode_iff_mem.mpr (List.mem_map_of_mem hn)))]
  · show d₁.routeNodes = _
    rw [h.routeNodes]
    apply List.map_congr_left
    intro entry hentry
    rw [skip_of_lt (h₀.bounded _ (h₀.routeNodes entry hentry).hasNode)]
  · intro entry hentry
    rcases List.mem_cons.mp hentry with rfl | hentry
    · exact hthere
    · exact h₁.outside_keeps h.outside hkeeps rfl entry hentry

/-! ## The same calls -/

/-- When the calls of functions outside the project are left out, `d₁` has the calls of `d₀` between the nodes
    with other numbers. -/
structure SameCalls (f : Nat → Nat) (d₀ d₁ : Draft) : Prop where
  edges : d₁.edges.filter (!d₁.outsideAt ·.stop) = d₀.edges.map (·.rename f)
  dotted : d₁.dotted = d₀.dotted.map (Prod.map f f)
  lastRoute : d₁.lastRoute = d₀.lastRoute.map f

/-- Both ends of an edge have nodes. -/
theorem Drawn.hasNode_ends {met : List CallSite} (h : Drawn t met d) {e : CallEdge} (he : e ∈ d.edges) :
    d.hasNode e.start = true ∧ d.hasNode e.stop = true := by
  have hjoined : Joined d.edges e.start e.stop := List.mem_map_of_mem (f := CallEdge.ends) he
  exact ⟨(h.starts _ _ hjoined).2, h.stops _ _ hjoined⟩

/-- Being led to a node leaves the calls alone. -/
theorem SameCalls.keeps (h : SameCalls f d₀ d₁) (hkeeps : Keeps d₁ d₁') {met : List CallSite}
    (hdrawn : Drawn t met d₁)
    (h₀ : d₀'.edges = d₀.edges ∧ d₀'.dotted = d₀.dotted ∧ d₀'.lastRoute = d₀.lastRoute)
    (h₁ : d₁'.edges = d₁.edges ∧ d₁'.dotted = d₁.dotted ∧ d₁'.lastRoute = d₁.lastRoute) :
    SameCalls f d₀' d₁' := by
  obtain ⟨hedges₀, hdotted₀, hlast₀⟩ := h₀
  obtain ⟨hedges₁, hdotted₁, hlast₁⟩ := h₁
  constructor
  · have hsame : ∀ e ∈ d₁.edges, (!d₁'.outsideAt e.stop) = !d₁.outsideAt e.stop := by
      intro e he
      rw [hkeeps _ (hdrawn.hasNode_ends he).2]
    rw [hedges₀, hedges₁, List.filter_congr hsame]
    exact h.edges
  · rw [hdotted₀, hdotted₁]
    exact h.dotted
  · rw [hlast₀, hlast₁]
    exact h.lastRoute

/-- Only the numbers in use count. -/
theorem SameCalls.congr (h : SameCalls f d₀ d₁) {met : List CallSite} (h₀ : Drawn t met d₀)
    {g : Nat → Nat} (hg : ∀ i, d₀.hasNode i = true → g i = f i) : SameCalls g d₀ d₁ := by
  constructor
  · rw [h.edges]
    apply List.map_congr_left
    intro e he
    obtain ⟨hstart, hstop⟩ := h₀.hasNode_ends he
    unfold CallEdge.rename
    rw [hg _ hstart, hg _ hstop]
  · rw [h.dotted]
    apply List.map_congr_left
    intro p hp
    obtain ⟨hstart, hstop⟩ := h₀.dotted p hp
    exact Prod.ext (hg _ hstart.hasNode).symm (hg _ hstop.hasNode).symm
  · rw [h.lastRoute]
    cases hlast : d₀.lastRoute with
    | none => rfl
    | some i => exact congrArg some (hg i (h₀.lastRoute i hlast).hasNode).symm

/-- One more call, of the same node. -/
theorem SameCalls.addEdge (h : SameCalls f d₀ d₁) (hf : Function.Injective f) {caller target : Nat}
    (hcaller : f caller = caller) (hinside : d₁.outsideAt (f target) = false) (line : Nat) :
    SameCalls f (d₀.addEdge caller target line) (d₁.addEdge caller (f target) line) := by
  refine ⟨?_, h.dotted, h.lastRoute⟩
  show (addCall caller (f target) line d₁.edges).filter (!d₁.outsideAt ·.stop) =
    (addCall caller target line d₀.edges).map _
  rw [filter_addCall fun i => !d₁.outsideAt i, if_pos (by simp [hinside]), h.edges,
    map_rename_addCall hf, hcaller]

/-- One more call, of a function outside the project. -/
theorem SameCalls.addEdge_outside (h : SameCalls f d₀ d₁) {target : Nat}
    (houtside : d₁.outsideAt target = true) (caller line : Nat) :
    SameCalls f d₀ (d₁.addEdge caller target line) := by
  refine ⟨?_, h.dotted, h.lastRoute⟩
  show (addCall caller target line d₁.edges).filter (!d₁.outsideAt ·.stop) = _
  rw [filter_addCall fun i => !d₁.outsideAt i, if_neg (by simp [houtside]), h.edges]

/-- The dotted edge to the same route. -/
theorem SameCalls.addRouteStep (h : SameCalls f d₀ d₁) (i : Nat) :
    SameCalls f (d₀.addRouteStep i) (d₁.addRouteStep (f i)) := by
  refine ⟨h.edges, ?_, rfl⟩
  show d₁.dotted ++ _ = (d₀.dotted ++ _).map _
  rw [List.map_append, h.dotted, h.lastRoute]
  cases d₀.lastRoute <;> rfl

/-! ## The same drafts -/

/-- Two drafts are the same under some renaming, functions outside the project apart. -/
def SameDrafts (t : Trace) (d₀ d₁ : Draft) : Prop :=
  ∃ f, SameNodes t f d₀ d₁ ∧ SameCalls f d₀ d₁

/-- Both drafts are led to the same node. -/
theorem SameStep.record {opts₀ opts₁ : GraphOptions} {met : List CallSite} {site : CallSite}
    {r₀ r₁ : Draft × Nat} (h : SameStep t f d₁ r₀ r₁) (hcalls : SameCalls f d₀ d₁)
    (h₁ : Drawn t met d₁) (hcaller : site.unit.id < t.units.length)
    (hr₀ : d₀.reach opts₀ t site = some r₀) (hr₁ : d₁.reach opts₁ t site = some r₁) :
    SameDrafts t (d₀.record opts₀ t site) (d₁.record opts₁ t site) := by
  obtain ⟨d₀', target⟩ := r₀
  obtain ⟨d₁', target'⟩ := r₁
  obtain rfl : target' = f target := h.target
  have hkept : SameCalls f d₀' d₁' := hcalls.keeps h.keeps h₁ (edges_reach hr₀) (edges_reach hr₁)
  have hedge := hkept.addEdge h.nodes.ordered.injective (h.nodes.units _ hcaller) h.inside site.call.line
  have hnodes := h.nodes
  rw [record_eq, record_eq, hr₀, hr₁]
  dsimp only
  split
  · exact ⟨f, { hnodes with }, hedge.addRouteStep target⟩
  · exact ⟨f, { hnodes with }, hedge⟩

/-- A call of a function outside the project is drawn by one draft only. -/
theorem SameDrafts.externalTarget (hnodes : SameNodes t f d₀ d₁) (hcalls : SameCalls f d₀ d₁)
    {met : List CallSite} (h₀ : Drawn t met d₀) (h₁ : Drawn t met d₁) (hit : Qualified)
    (caller line : Nat) :
    SameDrafts t d₀
      ((d₁.externalTarget hit).1.addEdge caller (d₁.externalTarget hit).2 line) := by
  rcases externalTarget_cases d₁ hit with ⟨i, hkey, heq⟩ | ⟨-, heq⟩
  · rw [heq]
    have houtside := hnodes.outside _ (List.mem_of_find?_eq_some hkey)
    exact ⟨f, { hnodes with }, hcalls.addEdge_outside houtside _ _⟩
  · rw [heq]
    obtain ⟨hnodes', hkeeps, houtside⟩ := hnodes.addOutside h₀.tables h₁.tables (externalNode hit)
      (fun _ => rfl) (fun _ => rfl) (hit.module, hit.name)
    have hskip : ∀ i, d₀.hasNode i = true → skip f d₀.nextId i = f i := by
      intro i hi
      exact skip_of_lt (h₀.tables.bounded i hi)
    have hkept : SameCalls (skip f d₀.nextId) d₀ (d₁.addTarget (externalNode hit)).1 :=
      (hcalls.congr h₀ hskip).keeps hkeeps h₁ ⟨rfl, rfl, rfl⟩ ⟨rfl, rfl, rfl⟩
    have hedge := hkept.addEdge_outside houtside caller line
    exact ⟨skip f d₀.nextId, { hnodes' with }, hedge.edges, hedge.dotted, hedge.lastRoute⟩

/-- **One more site**, whose caller is a unit. -/
theorem SameDrafts.record (h : SameDrafts t d₀ d₁) (ht : t.Coherent) {met : List CallSite}
    (h₀ : Drawn t met d₀) (h₁ : Drawn t met d₁) {site : CallSite}
    (hcaller : site.unit.id < t.units.length) :
    SameDrafts t (d₀.record ⟨policy, false, samePath⟩ t site)
      (d₁.record ⟨policy, true, samePath⟩ t site) := by
  obtain ⟨f, hnodes, hcalls⟩ := h
  have hreach₀ := reach_eq ⟨policy, false, samePath⟩ t d₀ site
  have hreach₁ := reach_eq ⟨policy, true, samePath⟩ t d₁ site
  rw [Trace.errand_inside] at hreach₀
  cases herrand : t.errand ⟨policy, true, samePath⟩ site with
  | unit i =>
    rw [herrand] at hreach₀ hreach₁
    have hi := ht.callee?_lt (Trace.errand_eq_unit_iff.mp herrand)
    exact (hnodes.addUnit ht h₁.tables hi).record hcalls h₁ hcaller hreach₀ hreach₁
  | matched r =>
    rw [herrand] at hreach₀ hreach₁
    exact (hnodes.matchedTarget ht h₁.tables r).record hcalls h₁ hcaller hreach₀ hreach₁
  | unmatched routing =>
    rw [herrand] at hreach₀ hreach₁
    have hstep := hnodes.addTarget h₁.tables (unmatchedNode routing) (fun _ => rfl) (fun _ => rfl)
      fun _ => rfl
    exact hstep.record hcalls h₁ hcaller hreach₀ hreach₁
  | nothing =>
    rw [herrand] at hreach₀ hreach₁
    rw [record_eq, record_eq, hreach₀, hreach₁]
    exact ⟨f, hnodes, hcalls⟩
  | outside hit =>
    rw [herrand] at hreach₀ hreach₁
    have htarget : site.target ≠ .route := by
      rw [Trace.target_of_errand_outside herrand]
      simp
    rw [record_eq, record_eq, hreach₀, hreach₁]
    dsimp only
    rw [if_neg htarget]
    exact SameDrafts.externalTarget hnodes hcalls h₀ h₁ hit site.unit.id site.call.line

/-- Both drafts start with the node of the entry. -/
theorem sameDrafts_start (ht : t.Coherent) : SameDrafts t (start t) (start t) := by
  obtain ⟨u, -, hstart⟩ := start_eq ht
  rw [hstart]
  refine ⟨id, ⟨strictMono_id, fun _ _ => rfl, fun _ => rfl, rfl, rfl, ?_⟩, ⟨rfl, rfl, rfl⟩⟩
  intro entry hentry
  exact absurd hentry List.not_mem_nil

/-- **At every point of the walk** the two drafts are the same. -/
theorem sameDrafts_of_prefix (policy : Policy) (samePath : Path → Path → Bool) (ht : t.Coherent)
    {before after : List CallSite} (h : t.sites = before ++ after) :
    SameDrafts t (before.foldl (Draft.record ⟨policy, false, samePath⟩ t) (start t))
      (before.foldl (Draft.record ⟨policy, true, samePath⟩ t) (start t)) := by
  refine foldl_prefix (P := fun met d => SameDrafts t
    (met.foldl (Draft.record ⟨policy, false, samePath⟩ t) (start t)) d) (sameDrafts_start ht) ?_ h
  intro before site after hsites hsame
  have hsite : site ∈ t.sites := by
    rw [hsites]
    exact List.mem_append_right _ List.mem_cons_self
  have hdrawn : ∀ external, Drawn t before
      (before.foldl (Draft.record ⟨policy, external, samePath⟩ t) (start t)) :=
    fun _ => Drawn.of_prefix ht hsites
  rw [List.foldl_append]
  exact hsame.record ht (hdrawn false) (hdrawn true) (ht.unit_lt_of_mem_sites hsite)

end Draft

/-! ## The two graphs -/

/-- **Drawing the functions outside the project is conservative.** Whatever the policy, the graph of a trace fails
    with them where it fails without them, and otherwise it is an extension: without these functions and the
    edges into them it is the other graph, up to the numbers behind the units. -/
theorem Tracer.graph_external {tracer : Tracer} {fuel : Nat} {module function : String} {t : Trace}
    (h : tracer.trace? fuel module function = some (.ok t)) (policy : Policy)
    (samePath : Path → Path → Bool) :
    (∃ e, t.graph ⟨policy, true, samePath⟩ = .error e ∧
      t.graph ⟨policy, false, samePath⟩ = .error e) ∨
    ∃ outer inner f, t.graph ⟨policy, true, samePath⟩ = .ok outer ∧
      t.graph ⟨policy, false, samePath⟩ = .ok inner ∧ outer.ExtendsBy t f inner := by
  have ht := tracer.trace?_coherent h
  unfold Trace.graph
  cases t.sites.find? fun site => policy = .error ∧ site.target = .unrecognized with
  | some site => exact .inl ⟨site.unrecognized, rfl, rfl⟩
  | none =>
    obtain ⟨f, hnodes, hcalls⟩ :=
      Draft.sameDrafts_of_prefix policy samePath ht (List.append_nil t.sites).symm
    refine .inr ⟨_, _, f, rfl, rfl, hnodes.ordered, hnodes.units, ?_⟩
    unfold CallGraph.withoutOutside CallGraph.rename
    rw [CallGraph.mk.injEq]
    exact ⟨hnodes.nodes, hcalls.edges, hcalls.dotted⟩

/-- With the function `order` of the stock the shop has one more node, and the route behind it moves up. -/
theorem shop_external : ∃ t outer inner f, shopTracer.trace? 3 "shop" "main" = some (.ok t) ∧
    t.graph ⟨.error, true, shopOptions.samePath⟩ = .ok outer ∧
    t.graph ⟨.error, false, shopOptions.samePath⟩ = .ok inner ∧
    outer.ExtendsBy t f inner ∧
    outer.nodes.length = 6 ∧ inner.nodes.length = 5 := by
  obtain ⟨t, outer, inner, h, houter, hinner, hlengths⟩ : ∃ t outer inner,
      shopTracer.trace? 3 "shop" "main" = some (.ok t) ∧
      t.graph ⟨.error, true, shopOptions.samePath⟩ = .ok outer ∧
      t.graph ⟨.error, false, shopOptions.samePath⟩ = .ok inner ∧
      outer.nodes.length = 6 ∧ inner.nodes.length = 5 := ⟨_, _, _, rfl, rfl, rfl, rfl, rfl⟩
  rcases Tracer.graph_external h .error shopOptions.samePath with
    ⟨e, he, -⟩ | ⟨outer', inner', f, houter', hinner', hextends⟩
  · exact absurd (houter.symm.trans he) (by simp)
  · obtain rfl := Except.ok.inj (houter.symm.trans houter')
    obtain rfl := Except.ok.inj (hinner.symm.trans hinner')
    exact ⟨t, outer, inner, f, h, houter, hinner, hextends, hlengths⟩

end ServiceTrace
