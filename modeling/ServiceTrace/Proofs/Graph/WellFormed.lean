import Mathlib.Data.List.Induction
import ServiceTrace.Proofs.Graph.CallLog
import ServiceTrace.Proofs.Graph.DepthFirst

/-!
# `ServiceTrace.Proofs.Graph.WellFormed` — the graph of a trace is well formed

The walk meets a site only after the entry, or after a site that leads to its unit. So the caller of a
site has a node when the site is recorded, and the edge that is drawn then starts at a node that is there
and ends at the one that the site is led to. `Draft.Drawn` is what holds of a draft after some sites, with
the nodes that these sites lead to; `Drawn.record` is one site, and `Drawn.of_prefix` any point of the
walk, by the induction that every such property goes through (`Draft.foldl_prefix`).

* **`Tracer.graph_wellFormed`** — whatever is drawn from a trace is well formed.
-/

namespace ServiceTrace

/-- Some edge joins two nodes. -/
def Joined (edges : List CallEdge) (i j : Nat) : Prop :=
  (i, j) ∈ edges.map CallEdge.ends

/-- The draft after all sites of a trace. -/
def Trace.drawn (opts : GraphOptions) (t : Trace) : Draft :=
  t.sites.foldl (Draft.record opts t) (Draft.start t)

/-- The sites of a trace in the order of the walk, with the nodes that drawing leads them to. -/
def Trace.trail (opts : GraphOptions) (t : Trace) : List (CallSite × Option Nat) :=
  (Draft.start t).trail opts t t.sites

namespace Draft

variable {opts : GraphOptions} {t : Trace} {d d' : Draft} {met : List CallSite}

/-- What holds of a draft after some sites. -/
structure Drawn (t : Trace) (met : List CallSite) (d : Draft) : Prop where
  tables : d.Tables t
  entry : d.hasNode t.entry = true
  /-- A unit that a site leads to has its node. -/
  led : ∀ site ∈ met, ∀ i, t.callee? site = some i → d.hasNode i = true
  starts : ∀ i j, Joined d.edges i j → i < t.units.length ∧ d.hasNode i = true
  stops : ∀ i j, Joined d.edges i j → d.hasNode j = true
  dotted : ∀ p ∈ d.dotted, d.IsRouteAt p.1 ∧ d.IsRouteAt p.2
  lastRoute : ∀ i, d.lastRoute = some i → d.IsRouteAt i
  reached : ∀ i, d.hasNode i = true → Relation.ReflTransGen (Joined d.edges) t.entry i

/-- A draft starts without edges. -/
theorem edges_start (ht : t.Coherent) :
    (start t).edges = [] ∧ (start t).dotted = [] ∧ (start t).lastRoute = none := by
  unfold start
  rw [addUnit_eq (List.getElem?_eq_getElem ht.entry_lt)]
  split <;> exact ⟨rfl, rfl, rfl⟩

theorem drawn_start (ht : t.Coherent) : Drawn t [] (start t) := by
  let d : Draft := ⟨[], [], [], none, [], [], t.units.length⟩
  have hnone : ∀ i, ¬ d.hasNode i = true := fun i => Bool.false_ne_true
  have hd : d.Tables t := by
    refine ⟨List.Pairwise.nil, fun i hi => absurd hi (hnone i), Nat.le_refl _, fun i hi hlt => ?_,
      fun i u n _ hn => ?_, fun _ he => absurd he List.not_mem_nil,
      fun _ he => absurd he List.not_mem_nil⟩
    · exact absurd hi (Nat.not_le_of_lt hlt)
    · exact absurd (hasNode_iff.mpr ⟨n, hn⟩) (hnone i)
  have hext : Extends t d (start t) t.entry :=
    hd.extends_addUnit ht (List.getElem?_eq_getElem ht.entry_lt)
  obtain ⟨hedges, hdotted, hlast⟩ := edges_start ht
  have hjoined : ∀ i j, ¬ Joined (start t).edges i j := by
    intro i j hj
    rw [hedges] at hj
    exact absurd hj List.not_mem_nil
  refine ⟨hext.tables, (hext.hasNode_iff _).mpr (Or.inr rfl), fun _ hs => absurd hs List.not_mem_nil,
    fun i j hj => absurd hj (hjoined i j), fun i j hj => absurd hj (hjoined i j), fun p hp => ?_,
    fun i hi => ?_, fun i hi => ?_⟩
  · rw [hdotted] at hp
    exact absurd hp List.not_mem_nil
  · rw [hlast] at hi
    exact absurd hi (by simp)
  · rcases (hext.hasNode_iff i).mp hi with hi | rfl
    · exact absurd hi (hnone i)
    · exact .refl

/-- A call from a node that is there to the node that a site is led to. -/
theorem Drawn.addEdge (h : Drawn t met d) {i : Nat} (hext : Extends t d d' i)
    (hedges : d'.edges = d.edges) (hdotted : d'.dotted = d.dotted)
    (hlast : d'.lastRoute = d.lastRoute) {caller : Nat} (hlt : caller < t.units.length)
    (hcaller : d.hasNode caller = true) (line : Nat) :
    Drawn t met (d'.addEdge caller i line) := by
  have hkeep : ∀ j, d.hasNode j = true → d'.hasNode j = true :=
    fun j hj => (hext.hasNode_iff j).mpr (Or.inl hj)
  have hjoined : ∀ j k, Joined (d'.addEdge caller i line).edges j k ↔
      (j, k) = (caller, i) ∨ Joined d.edges j k := by
    intro j k
    rw [← hedges]
    exact mem_ends_addCall
  have hreach : ∀ j, d.hasNode j = true →
      Relation.ReflTransGen (Joined (d'.addEdge caller i line).edges) t.entry j :=
    fun j hj => Relation.ReflTransGen.mono (fun k l hkl => (hjoined k l).mpr (Or.inr hkl))
      _ _ (h.reached j hj)
  refine ⟨{ hext.tables with }, hkeep _ h.entry, fun s hs j hj => hkeep j (h.led s hs j hj),
    fun j k hjk => ?_, fun j k hjk => ?_, fun p hp => ?_, fun j hj => ?_, fun j hj => ?_⟩
  · rcases (hjoined j k).mp hjk with heq | hjk
    · obtain ⟨rfl, rfl⟩ := Prod.mk.inj heq
      exact ⟨hlt, hkeep _ hcaller⟩
    · exact ⟨(h.starts j k hjk).1, hkeep j (h.starts j k hjk).2⟩
  · rcases (hjoined j k).mp hjk with heq | hjk
    · obtain ⟨rfl, rfl⟩ := Prod.mk.inj heq
      exact (hext.hasNode_iff k).mpr (Or.inr rfl)
    · exact hkeep k (h.stops j k hjk)
  · obtain ⟨hstart, hstop⟩ := h.dotted p (hdotted ▸ hp)
    exact ⟨hext.isRouteAt _ hstart, hext.isRouteAt _ hstop⟩
  · exact hext.isRouteAt j (h.lastRoute j (hlast ▸ hj))
  · rcases (hext.hasNode_iff j).mp hj with hj | rfl
    · exact hreach j hj
    · exact (hreach caller hcaller).tail ((hjoined caller j).mpr (Or.inl rfl))

/-- The dotted edge from one route to the next. -/
theorem Drawn.addRouteStep (h : Drawn t met d) {i : Nat} (hi : d.IsRouteAt i) :
    Drawn t met (d.addRouteStep i) := by
  refine ⟨{ h.tables with }, h.entry, h.led, h.starts, h.stops, fun p hp => ?_, fun j hj => ?_,
    h.reached⟩
  · rcases List.mem_append.mp hp with hp | hp
    · exact h.dotted p hp
    · obtain ⟨j, hj, rfl⟩ := Option.map_eq_some_iff.mp (Option.mem_toList.mp hp)
      exact ⟨h.lastRoute j hj, hi⟩
  · obtain rfl := Option.some.inj hj
    exact hi

/-- **One more site**, whose caller has its node. -/
theorem Drawn.record (h : Drawn t met d) (ht : t.Coherent) {site : CallSite}
    (hlt : site.unit.id < t.units.length) (hcaller : d.hasNode site.unit.id = true) :
    Drawn t (met ++ [site]) (d.record opts t site) := by
  -- what is left to say of the sites is that the new one has led to its unit
  have hled : ∀ d' : Draft, Drawn t met d' → (∀ i, t.callee? site = some i → d'.hasNode i = true) →
      Drawn t (met ++ [site]) d' := by
    refine fun d' hd' hsite => { hd' with led := fun s hs i hi => ?_ }
    rcases List.mem_append.mp hs with hs | hs
    · exact hd'.led s hs i hi
    · obtain rfl := List.mem_singleton.mp hs
      exact hsite i hi
  rw [record_eq]
  cases hreach : d.reach opts t site with
  | none =>
    refine hled d h fun i hi => ?_
    rw [reach_eq_addUnit hi] at hreach
    exact absurd hreach (by simp)
  | some reached =>
    obtain ⟨d', target⟩ := reached
    obtain ⟨hext, hroute⟩ := h.tables.extends_reach ht hreach
    obtain ⟨hedges, hdotted, hlast⟩ := edges_reach hreach
    have hdrawn := h.addEdge hext hedges hdotted hlast hlt hcaller site.call.line
    have hsite : ∀ i, t.callee? site = some i → d'.hasNode i = true := by
      intro i hi
      rw [reach_eq_addUnit hi] at hreach
      obtain ⟨-, rfl⟩ := Prod.mk.inj (Option.some.inj hreach)
      exact (hext.hasNode_iff i).mpr (Or.inr rfl)
    by_cases htarget : site.target = .route
    · simp only [if_pos htarget]
      exact hled _ (hdrawn.addRouteStep (hroute htarget)) hsite
    · simp only [if_neg htarget]
      exact hled _ hdrawn hsite

/-- **What every site keeps, the walk keeps**: a property of a draft and of the sites met so far holds at
    every point of the walk when the next site keeps it. -/
theorem foldl_prefix {P : List CallSite → Draft → Prop} (hstart : P [] (start t))
    (hstep : ∀ before site after, t.sites = before ++ site :: after →
      P before (before.foldl (Draft.record opts t) (start t)) →
      P (before ++ [site]) ((before.foldl (Draft.record opts t) (start t)).record opts t site))
    {before after : List CallSite} (h : t.sites = before ++ after) :
    P before (before.foldl (Draft.record opts t) (start t)) := by
  induction before using List.reverseRecOn generalizing after with
  | nil => exact hstart
  | append_singleton before site ih =>
    rw [List.append_assoc] at h
    rw [List.foldl_append]
    exact hstep before site after h (ih h)

/-- The walk draws every call from a node that is there. -/
theorem Drawn.of_prefix (ht : t.Coherent) {before after : List CallSite}
    (h : t.sites = before ++ after) :
    Drawn t before (before.foldl (Draft.record opts t) (start t)) := by
  refine foldl_prefix (drawn_start ht) (fun before site after h hdrawn => ?_) h
  rcases ht.sites_led h with hentry | ⟨s, hs, hcallee⟩
  · exact hdrawn.record ht (hentry ▸ ht.entry_lt) (hentry ▸ hdrawn.entry)
  · exact hdrawn.record ht (ht.callee?_lt hcallee) (hdrawn.led s hs _ hcallee)

theorem Drawn.drawn (opts : GraphOptions) (ht : t.Coherent) : Drawn t t.sites (t.drawn opts) :=
  Drawn.of_prefix ht (List.append_nil _).symm

theorem records_drawn (opts : GraphOptions) (ht : t.Coherent) :
    Records (logOf ((start t).trail opts t t.sites)) (t.drawn opts).edges := by
  have hstart : Records (logOf []) (start t).edges := by
    rw [(edges_start ht).1]
    exact records_nil
  exact foldl_trail (P := fun trail d => Records (logOf trail) d.edges)
    (fun _ _ site h => h.record site) hstart t.sites

end Draft

/-! ## The graph of a trace -/

namespace CallGraph

/-- A number has a node. -/
def HasNode (g : CallGraph) (i : Nat) : Prop :=
  ∃ n, g.node? i = some n

/-- A number has a node that is a route. -/
def IsRouteAt (g : CallGraph) (i : Nat) : Prop :=
  ∃ n, g.node? i = some n ∧ n.isRoute = true

/-- What a graph that is drawn from a trace promises its readers. -/
structure WellFormed (t : Trace) (g : CallGraph) : Prop where
  /-- Every node is found under its own number. -/
  stored : ∀ n ∈ g.nodes, g.node? n.id = some n
  entry : g.HasNode t.entry
  ends : ∀ e ∈ g.edges, g.HasNode e.start ∧ g.HasNode e.stop
  single : (g.edges.map CallEdge.ends).Nodup
  called : ∀ e ∈ g.edges, e.lines ≠ []
  /-- Only units call. -/
  starts : ∀ e ∈ g.edges, ∃ u n, t.units[e.start]? = some u ∧ g.node? e.start = some n ∧ n.Shows u
  /-- A node that is not the node of a unit, or one of an end point, calls nothing. -/
  leaves : ∀ n ∈ g.nodes, t.units.length ≤ n.id ∨ n.external = true → ∀ e ∈ g.edges, e.start ≠ n.id
  dotted : ∀ p ∈ g.dotted, g.IsRouteAt p.1 ∧ g.IsRouteAt p.2
  reached : ∀ n ∈ g.nodes, Relation.ReflTransGen (Joined g.edges) t.entry n.id

end CallGraph

/-- What is drawn of a trace is the draft after all sites, unless there is a failure. -/
theorem Trace.eq_drawn {opts : GraphOptions} {t : Trace} {g : CallGraph}
    (h : t.graph opts = .ok g) : g = (t.drawn opts).graph := by
  unfold graph at h
  split at h
  · exact absurd h (by simp)
  · exact (Except.ok.inj h).symm

/-- **The graph of a trace is well formed**, whatever it is drawn with. -/
theorem Tracer.graph_wellFormed {tracer : Tracer} {fuel : Nat} {module function : String} {t : Trace}
    (h : tracer.trace? fuel module function = some (.ok t)) {opts : GraphOptions} {g : CallGraph}
    (hg : t.graph opts = .ok g) : g.WellFormed t := by
  have ht := tracer.trace?_coherent h
  have hdrawn := Draft.Drawn.drawn opts ht
  have hrecords := Draft.records_drawn opts ht
  obtain rfl := Trace.eq_drawn hg
  have hjoined : ∀ e ∈ (t.drawn opts).edges, Joined (t.drawn opts).edges e.start e.stop :=
    fun e he => List.mem_map_of_mem (f := CallEdge.ends) he
  have hstarts : ∀ e ∈ (t.drawn opts).edges, ∃ u n, t.units[e.start]? = some u ∧
      (t.drawn opts).node? e.start = some n ∧ n.Shows u := by
    intro e he
    obtain ⟨hlt, hnode⟩ := hdrawn.starts _ _ (hjoined e he)
    obtain ⟨n, hn⟩ := Draft.hasNode_iff.mp hnode
    have hu := List.getElem?_eq_getElem hlt
    exact ⟨_, n, hu, hn, hdrawn.tables.units _ _ n hu hn⟩
  have hstored : ∀ n ∈ (t.drawn opts).nodes, (t.drawn opts).node? n.id = some n :=
    fun n hn => hdrawn.tables.node?_of_mem hn
  refine ⟨hstored, Draft.hasNode_iff.mp hdrawn.entry, fun e he => ⟨?_, ?_⟩, hrecords.single,
    hrecords.called, hstarts, fun n hn hleaf e he heq => ?_, hdrawn.dotted, fun n hn => ?_⟩
  · exact Draft.hasNode_iff.mp (hdrawn.starts _ _ (hjoined e he)).2
  · exact Draft.hasNode_iff.mp (hdrawn.stops _ _ (hjoined e he))
  · obtain ⟨u, m, hu, hm, hshows⟩ := hstarts e he
    rw [heq] at hu hm
    obtain rfl : m = n := Option.some.inj (hm.symm.trans (hstored n hn))
    rcases hleaf with hle | hexternal
    · exact Nat.not_lt_of_le hle (List.getElem?_eq_some_iff.mp hu).1
    · exact Bool.false_ne_true (hshows.external.symm.trans hexternal)
  · exact hdrawn.reached n.id (Draft.hasNode_iff.mpr ⟨n, hstored n hn⟩)

/-- What the shop is drawn with: callees of no known shape are passed over, and the functions outside the
    project are shown. -/
def shopOptions : GraphOptions where
  policy := .ignore
  external := true
  samePath p q := p = q

/-- Both calls of `cart.add` go into one edge. The route that the cart serves has a node of its own, since
    nothing calls the function that serves it. -/
theorem shop_drawn : ∃ t g, shopTracer.trace? 3 "shop" "main" = some (.ok t) ∧
    t.graph shopOptions = .ok g ∧
    g.edges = [⟨0, 1, [4, 7]⟩, ⟨1, 3, [2]⟩, ⟨0, 2, [5]⟩, ⟨2, 4, [11]⟩, ⟨2, 0, [12]⟩, ⟨0, 5, [6]⟩] ∧
    g.dotted = [(3, 5)] :=
  ⟨_, _, rfl, rfl, rfl, rfl⟩

/-- The graph of the shop is well formed. -/
theorem shop_wellFormed : ∃ t g, shopTracer.trace? 3 "shop" "main" = some (.ok t) ∧
    t.graph shopOptions = .ok g ∧ g.WellFormed t := by
  obtain ⟨t, g, ht, hg, -⟩ := shop_drawn
  exact ⟨t, g, ht, hg, Tracer.graph_wellFormed ht hg⟩

end ServiceTrace
