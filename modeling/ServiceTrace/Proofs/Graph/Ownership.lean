import Mathlib.Data.Set.Card
import ServiceTrace.Proofs.Graph.Allotment
import ServiceTrace.Proofs.Graph.Coverage

/-!
# `ServiceTrace.Proofs.Graph.Ownership` — the nodes of routes that units own

A routing call goes to the unit that owns its route only when the walk has reached that unit before. An
earlier call gets a node apart, which stands for the place of the route from then on and stays when the unit
is drawn as well. So the order of calls decides how many nodes there are, and how exactly is said by
`CallGraph.OwnsRoutes`:

* a call goes to the owner or to the node apart, depending on the sites before it and nothing else;
* there is a node apart for a place exactly when a route of that place was called early, and no second one;
* all other nodes are units, functions outside the project, and calls of routes in no catalog.

**`Tracer.graph_ownsRoutes`** is the result, and `home_divided` the case where one function has two nodes.
-/

namespace ServiceTrace

namespace Draft

variable {opts : GraphOptions} {t : Trace} {d : Draft} {met : List CallSite} {site : CallSite}

/-! ## Where a routing call leads -/

/-- A place on the trail of a draft: the sites before it are the first ones, and the site there is led to a
    node by the draft after these. -/
theorem trail_prefix {before : List (CallSite × Option Nat)} {x : CallSite × Option Nat}
    {sites : List CallSite} (h : before ++ [x] <+: d.trail opts t sites) :
    before.map (·.1) ++ [x.1] <+: sites ∧
      x.2 = (((before.map (·.1)).foldl (Draft.record opts t) d).reach opts t x.1).map (·.2) := by
  induction before generalizing d sites with
  | nil =>
    cases sites with
    | nil => exact absurd h (by simp [trail])
    | cons site rest =>
      obtain ⟨rfl, -⟩ := List.cons_prefix_cons.mp h
      exact ⟨List.cons_prefix_cons.mpr ⟨rfl, List.nil_prefix⟩, rfl⟩
  | cons first before ih =>
    cases sites with
    | nil => exact absurd h (by simp [trail])
    | cons site rest =>
      obtain ⟨rfl, hrest⟩ := List.cons_prefix_cons.mp h
      obtain ⟨hcut, htarget⟩ := ih hrest
      exact ⟨List.cons_prefix_cons.mpr ⟨rfl, hcut⟩, htarget⟩

/-- A route whose owner has been reached leads to the owner. -/
theorem Allotted.reach_owner (h : Allotted opts t met d) (ht : t.Coherent) {r : Route}
    (he : t.errand opts site = .matched r) {u : FunctionUnit} (hu : t.owner? opts r = some u)
    (hreached : t.ReachedBy met u.id) : (d.reach opts t site).map (·.2) = some u.id := by
  have hnode := (h.units u.id (ht.id_lt (List.mem_of_find?_eq_some hu))).mpr hreached
  rw [reach_eq, he]
  rcases matchedTarget_cases opts t d r with ⟨owner, howner, -, heq⟩ | ⟨hlate, -⟩
  · obtain rfl : u = owner := Option.some.inj (hu.symm.trans howner)
    show some (d.matchedTarget opts t r).2 = _
    rw [heq]
  · exact absurd ((hlate u hu).symm.trans hnode) Bool.false_ne_true

/-- An early route leads to the node that the table has for its place afterwards. -/
theorem Allotted.reach_early (h : Allotted opts t met d) (ht : t.Coherent) {r : Route}
    (he : t.errand opts site = .matched r) (hearly : t.Early opts met r) :
    ∃ d' i, d.reach opts t site = some (d', i) ∧ (r.place, i) ∈ d'.routeNodes := by
  rw [reach_eq, he]
  rcases matchedTarget_cases opts t d r with
    ⟨owner, howner, hnode, -⟩ | ⟨-, ⟨id, hkey, heq⟩ | ⟨-, heq⟩⟩
  · have hfalse := (h.early_iff ht).mp hearly owner howner
    exact absurd (hfalse.symm.trans hnode) Bool.false_ne_true
  · exact ⟨d, id, congrArg some heq, List.mem_of_find?_eq_some hkey⟩
  · exact ⟨_, _, congrArg some heq, List.mem_cons_self⟩

/-! ## The table of places only grows -/

theorem routeNodes_addUnit (t : Trace) (d : Draft) (i : Nat) :
    (d.addUnit t i).routeNodes = d.routeNodes := by
  unfold addUnit
  split
  · split <;> rfl
  · rfl

theorem routeNodes_externalTarget (d : Draft) (hit : Qualified) :
    (d.externalTarget hit).1.routeNodes = d.routeNodes := by
  rcases externalTarget_cases d hit with ⟨_, -, heq⟩ | ⟨-, heq⟩
  · rw [heq]
  · rw [heq]
    rfl

theorem routeNodes_subset_matchedTarget (d : Draft) (r : Route) :
    d.routeNodes ⊆ (d.matchedTarget opts t r).1.routeNodes := by
  rcases matchedTarget_cases opts t d r with ⟨_, -, -, heq⟩ | ⟨-, ⟨_, -, heq⟩ | ⟨-, heq⟩⟩
  · rw [heq]
    exact List.Subset.refl _
  · rw [heq]
    exact List.Subset.refl _
  · rw [heq]
    exact List.subset_cons_self _ _

theorem routeNodes_subset_reach {d' : Draft} {i : Nat} (hr : d.reach opts t site = some (d', i)) :
    d.routeNodes ⊆ d'.routeNodes := by
  rw [reach_eq] at hr
  cases he : t.errand opts site with
  | unit j =>
    rw [he] at hr
    have hd' : d.addUnit t j = d' := congrArg Prod.fst (Option.some.inj hr)
    rw [← hd', routeNodes_addUnit]
    exact List.Subset.refl _
  | matched r =>
    rw [he] at hr
    have hd' : (d.matchedTarget opts t r).1 = d' := congrArg Prod.fst (Option.some.inj hr)
    rw [← hd']
    exact routeNodes_subset_matchedTarget d r
  | unmatched routing =>
    rw [he] at hr
    have hd' : (d.addTarget (unmatchedNode routing)).1 = d' :=
      congrArg Prod.fst (Option.some.inj hr)
    rw [← hd']
    exact List.Subset.refl _
  | outside hit =>
    rw [he] at hr
    have hd' : (d.externalTarget hit).1 = d' := congrArg Prod.fst (Option.some.inj hr)
    rw [← hd', routeNodes_externalTarget]
    exact List.Subset.refl _
  | nothing =>
    rw [he] at hr
    exact absurd hr (by simp)

theorem routeNodes_record_of_reach {d' : Draft} {i : Nat}
    (hr : d.reach opts t site = some (d', i)) : (d.record opts t site).routeNodes = d'.routeNodes := by
  rw [record_eq, hr]
  show (if site.target = .route then _ else _ : Draft).routeNodes = _
  split <;> rfl

theorem routeNodes_subset_record (d : Draft) (site : CallSite) :
    d.routeNodes ⊆ (d.record opts t site).routeNodes := by
  cases hr : d.reach opts t site with
  | none =>
    rw [record_eq, hr]
    exact List.Subset.refl _
  | some reached =>
    rw [routeNodes_record_of_reach hr]
    exact routeNodes_subset_reach hr

theorem routeNodes_subset_foldl (d : Draft) (sites : List CallSite) :
    d.routeNodes ⊆ (sites.foldl (Draft.record opts t) d).routeNodes := by
  induction sites generalizing d with
  | nil => exact List.Subset.refl _
  | cons site rest ih => exact List.Subset.trans (routeNodes_subset_record d site) (ih _)

end Draft

/-! ## Ownership in a graph -/

/-- How a graph divides routes between their owners and nodes apart. -/
structure CallGraph.OwnsRoutes (opts : GraphOptions) (t : Trace) (g : CallGraph) : Prop where
  /-- The sites before a call are those that a depth-first walk meets before it. -/
  order : t.DepthFirstOrder ((t.trail opts).map (·.1))
  /-- The nodes of the trail are those that the edges of the graph end at. -/
  edges : Records (Draft.logOf (t.trail opts)) g.edges
  /-- Once the owner of a route has been reached, a call of the route leads to the owner. -/
  owned : ∀ before site target r u, before ++ [(site, target)] <+: t.trail opts →
    t.errand opts site = .matched r → t.owner? opts r = some u →
    t.ReachedBy (before.map (·.1)) u.id → target = some u.id
  /-- A call of a route before that leads to the node that stands for the place of the route. -/
  early : ∀ before site target r, before ++ [(site, target)] <+: t.trail opts →
    t.errand opts site = .matched r → t.Early opts (before.map (·.1)) r →
    ∃ n ∈ g.nodes, target = some n.id ∧ n.StandsFor t r.place
  /-- There is a node apart exactly for the places that were called early. -/
  divided : ∀ p, (∃ n ∈ g.nodes, n.StandsFor t p) ↔ t.CalledEarly opts t.sites p
  single : ∀ p, ∀ n ∈ g.nodes, ∀ m ∈ g.nodes, n.StandsFor t p → m.StandsFor t p → n = m
  count : g.nodes.length = t.units.length + t.countUnmatched opts t.sites +
    {p | t.CalledEarly opts t.sites p}.ncard + {f | t.CalledOutside opts t.sites f}.ncard

/-- A list without repetitions is as long as the set that it lists. -/
theorem ncard_eq_length {α : Type} [DecidableEq α] {l : List α} (hl : l.Nodup) {P : α → Prop}
    (h : ∀ a, a ∈ l ↔ P a) : {a | P a}.ncard = l.length := by
  have hset : {a | P a} = (l.toFinset : Set α) := by
    ext a
    simp [h]
  rw [hset, Set.ncard_coe_finset, List.toFinset_card_of_nodup hl]

namespace Draft

variable {opts : GraphOptions} {t : Trace} {d : Draft} {met : List CallSite}

theorem Allotted.exists_standsFor_iff (h : Allotted opts t met d) (hd : d.Tables t) (p : Place) :
    (∃ n ∈ d.nodes, n.StandsFor t p) ↔ t.CalledEarly opts met p := by
  rw [← h.early p, List.mem_map]
  constructor
  · rintro ⟨n, hn, hstands⟩
    have hlisted := (h.listed p n.id).mpr ⟨n, hd.node?_of_mem hn, hstands⟩
    exact ⟨_, hlisted, rfl⟩
  · rintro ⟨⟨_, i⟩, hmem, rfl⟩
    obtain ⟨n, hn, hstands⟩ := (h.listed _ i).mp hmem
    exact ⟨n, List.mem_of_find?_eq_some hn, hstands⟩

/-- A place has one node apart, since the table lists it once. -/
theorem Allotted.eq_of_standsFor (h : Allotted opts t met d) (hd : d.Tables t) {p : Place}
    {n m : GraphNode} (hn : n ∈ d.nodes) (hm : m ∈ d.nodes) (hnp : n.StandsFor t p)
    (hmp : m.StandsFor t p) : n = m := by
  have hn := hd.node?_of_mem hn
  have hm := hd.node?_of_mem hm
  have hni := (h.listed p n.id).mpr ⟨n, hn, hnp⟩
  have hmi := (h.listed p m.id).mpr ⟨m, hm, hmp⟩
  have hid : n.id = m.id := (Prod.mk.inj (List.inj_on_of_nodup_map h.places hni hmi rfl)).2
  rw [hid, hm] at hn
  exact (Option.some.inj hn).symm

theorem Allotted.nextId_eq (h : Allotted opts t met d) : d.nextId = t.units.length +
    t.countUnmatched opts met + {p | t.CalledEarly opts met p}.ncard +
      {f | t.CalledOutside opts met f}.ncard := by
  rw [ncard_eq_length h.places h.early, ncard_eq_length h.functions h.outside, List.length_map,
    List.length_map]
  exact h.count

end Draft

variable {opts : GraphOptions} {t : Trace}

/-- A place on the trail of a trace, and the draft that leads the site there to its node. -/
theorem Trace.exists_cut_of_prefix {before : List (CallSite × Option Nat)} {site : CallSite}
    {target : Option Nat} (h : before ++ [(site, target)] <+: t.trail opts) :
    ∃ after, t.sites = before.map (·.1) ++ site :: after ∧ target =
      (((before.map (·.1)).foldl (Draft.record opts t) (Draft.start t)).reach opts t site).map
        (·.2) := by
  obtain ⟨⟨after, hsites⟩, htarget⟩ := Draft.trail_prefix h
  rw [List.append_assoc] at hsites
  exact ⟨after, hsites.symm, htarget⟩

/-- What an early call leads to is there when everything has been drawn. -/
theorem Trace.Coherent.mem_routeNodes_drawn (ht : t.Coherent) {before after : List CallSite}
    {site : CallSite} (hsites : t.sites = before ++ site :: after) {r : Route}
    (he : t.errand opts site = .matched r) (hearly : t.Early opts before r) :
    ∃ i, ((before.foldl (Draft.record opts t) (Draft.start t)).reach opts t site).map (·.2) = some i ∧
      (r.place, i) ∈ (t.drawn opts).routeNodes := by
  obtain ⟨d', i, hreach, hmem⟩ :=
    (Draft.Allotted.of_prefix opts ht hsites).reach_early ht he hearly
  refine ⟨i, congrArg (Option.map Prod.snd) hreach, ?_⟩
  unfold Trace.drawn
  rw [hsites, List.foldl_append, List.foldl_cons]
  refine Draft.routeNodes_subset_foldl _ _ ?_
  rw [Draft.routeNodes_record_of_reach hreach]
  exact hmem

/-- **Owners and nodes apart**: in the graph of a trace a function that serves a route has a node apart
    from its unit exactly when one of its routes is called before the walk has reached that unit. -/
theorem Tracer.graph_ownsRoutes {tracer : Tracer} {fuel : Nat} {module function : String}
    (h : tracer.trace? fuel module function = some (.ok t)) {g : CallGraph}
    (hg : t.graph opts = .ok g) : g.OwnsRoutes opts t := by
  have ht := tracer.trace?_coherent h
  have hdrawn := Draft.Drawn.drawn opts ht
  have hallotted : Draft.Allotted opts t t.sites (t.drawn opts) :=
    Draft.Allotted.of_prefix opts ht (List.append_nil _).symm
  obtain rfl := Trace.eq_drawn hg
  have hsites : (t.trail opts).map (·.1) = t.sites := Draft.trail_sites opts t _ _
  refine ⟨hsites ▸ ht.sites_depthFirst, Draft.records_drawn opts ht, ?_, ?_,
    hallotted.exists_standsFor_iff hdrawn.tables, ?_, ?_⟩
  · intro before site target r u hcut he hu hreached
    obtain ⟨after, hsites, rfl⟩ := Trace.exists_cut_of_prefix hcut
    exact (Draft.Allotted.of_prefix opts ht hsites).reach_owner ht he hu hreached
  · intro before site target r hcut he hearly
    obtain ⟨after, hsites, rfl⟩ := Trace.exists_cut_of_prefix hcut
    obtain ⟨i, htarget, hmem⟩ := ht.mem_routeNodes_drawn hsites he hearly
    obtain ⟨n, hn, hstands⟩ := (hallotted.listed _ i).mp hmem
    have hid := Draft.id_of_node? hn
    exact ⟨n, List.mem_of_find?_eq_some hn, hid ▸ htarget, hstands⟩
  · intro p n hn m hm
    exact hallotted.eq_of_standsFor hdrawn.tables hn hm
  · show (t.drawn opts).nodes.length = _
    rw [hdrawn.length_nodes ht]
    exact hallotted.nextId_eq

/-! ## A function with two nodes -/

/-- The home page of an application. -/
def homeRoute : Route :=
  ⟨"/home/", ["GET"], "c", "app", "home", some ⟨"app.py"⟩, none, none⟩

/-- A call of the function that serves the home page. -/
def callHome (line : Nat) : Stmt :=
  .expr (.call ⟨.name "home", [], [], line, none⟩) line

/-- A request for the home page. -/
def requestHome (line : Nat) : Stmt :=
  .expr (.call ⟨.attribute (.name "requests") "get", [.str "/home"], [], line, none⟩) line

/-- The application, with the given statements in its main function. -/
def homeProgram (main : List Stmt) : Program where
  modules := [
    { ref := ⟨"app", ⟨"app.py"⟩, true⟩
      body := some [
        .imports [⟨"requests", none⟩] 1,
        .function ⟨"home", [], [], [], false, 3⟩,
        .function ⟨"main", [], [], main, false, 6⟩] }]

def homeTracer (main : List Stmt) : Tracer where
  resolve := (homeProgram main).resolve
  parse := (homeProgram main).parse
  clients := .ofNames ⟨[homeRoute]⟩ ["requests"]

theorem home_drawn : ∃ t g,
    (homeTracer [requestHome 7, callHome 8]).trace? 2 "app" "main" = some (.ok t) ∧
    t.graph shopOptions = .ok g ∧ g.edges = [⟨0, 2, [7]⟩, ⟨0, 1, [8]⟩] :=
  ⟨_, _, rfl, rfl, rfl⟩

/-- The application asks for its home page before it calls the function behind it, which is reached by the
    second call only. -/
theorem home_ownsRoutes : ∃ t g,
    (homeTracer [requestHome 7, callHome 8]).trace? 2 "app" "main" = some (.ok t) ∧
    t.graph shopOptions = .ok g ∧ g.OwnsRoutes shopOptions t := by
  obtain ⟨t, g, ht, hg, -⟩ := home_drawn
  exact ⟨t, g, ht, hg, Tracer.graph_ownsRoutes ht hg⟩

/-- **One function, two nodes**: when the request comes first, the function that serves it is drawn twice,
    as the unit and as the node of the route. The other order of the two calls has one node less. -/
theorem home_divided :
    (∃ t g u n, (homeTracer [requestHome 7, callHome 8]).trace? 2 "app" "main" = some (.ok t) ∧
      t.graph shopOptions = .ok g ∧ t.owner? shopOptions homeRoute = some u ∧ g.HasNode u.id ∧
      n ∈ g.nodes ∧ n.StandsFor t homeRoute.place ∧ g.nodes.length = 3) ∧
    ∃ t g, (homeTracer [callHome 7, requestHome 8]).trace? 2 "app" "main" = some (.ok t) ∧
      t.graph shopOptions = .ok g ∧ g.nodes.length = 2 := by
  constructor
  · refine ⟨_, _, _, Draft.routeNode homeRoute 2, rfl, rfl, rfl, ⟨_, rfl⟩,
      List.mem_of_getElem? (i := 2) rfl, ⟨Nat.le_refl 2, rfl, rfl, rfl⟩, rfl⟩
  · exact ⟨_, _, rfl, rfl, rfl⟩

end ServiceTrace
