import ServiceTrace.Proofs.Graph.Ownership
import ServiceTrace.Proofs.Graph.RouteChain

/-!
# `ServiceTrace.Proofs.Graph.ShownRoute` — the routes that nodes show

A node stands for a function and has room for one route. Where a function serves several routes, calls of
different routes lead to one node, and that shows one of them. Which one it is depends on the kind of the
node: the node of a unit is turned into that of every route that comes to it, so it shows the last one, and a
node apart keeps the route that it was made for, so it shows the first one (`Trace.shownRoute`).

`Draft.Shown` says so of a draft and the trail behind it. Only a call of a route of the catalog changes what
is shown, and it changes one node: `Shown.setRoute`, `Shown.share` and `Shown.add` are its three cases, and
`Shown.keep` is every other site.

* **`Tracer.graph_showsRoutes`** — a routing call leads to a route node of the function that serves its route,
  and the node shows that route when no call of another one leads there.
* `home_hidden` — a function with two routes, one of which is not shown anywhere.
-/

namespace ServiceTrace

/-- The route of the catalog that a call site reaches. -/
def CallSite.route? (site : CallSite) : Option Route :=
  site.call.route.bind (·.matched)

/-- The route that a node shows, when calls of the given routes lead to it in this order. -/
def Trace.shownRoute (t : Trace) (i : Nat) (routes : List Route) : Option Route :=
  if i < t.units.length then routes.getLast? else routes.head?

/-- Where calls of routes lead to a node, it shows one of these routes. -/
theorem Trace.exists_shownRoute (t : Trace) (i : Nat) {routes : List Route} (h : routes ≠ []) :
    ∃ r ∈ routes, t.shownRoute i routes = some r := by
  unfold shownRoute
  split
  · exact ⟨_, List.getLast_mem h, List.getLast?_eq_some_getLast h⟩
  · exact ⟨_, List.head_mem h, List.head?_eq_some_head h⟩

/-- A node shows one of the routes that lead to it, and all of them are served by its function. -/
structure GraphNode.ShowsOneOf (t : Trace) (n : GraphNode) (routes : List Route) : Prop where
  isRoute : n.isRoute = true
  function : ∀ r ∈ routes, n.function = r.function
  route : n.route = (t.shownRoute n.id routes).map Draft.routeInfo

namespace Trace

variable {opts : GraphOptions} {t : Trace} {site : CallSite}

theorem Coherent.errand_matched_iff (ht : t.Coherent) (hs : site ∈ t.sites) {r : Route} :
    t.errand opts site = .matched r ↔ site.route? = some r := by
  have hroute := ht.route_iff_of_mem_sites hs
  cases hrouting : site.call.route with
  | some routing =>
    have htarget : site.target = .route := hroute.mpr (Option.isSome_of_eq_some hrouting)
    unfold errand CallSite.route?
    rw [htarget, hrouting]
    cases hmatched : routing.matched <;> simp [hmatched]
  | none =>
    have htarget : site.target ≠ .route := by
      intro htarget
      simpa [hrouting] using hroute.mp htarget
    have hnone : site.route? = none := by
      unfold CallSite.route?
      rw [hrouting]
      rfl
    rw [hnone]
    refine iff_of_false ?_ nofun
    unfold errand
    split
    · contradiction
    · simp
    · simp
    · split <;> simp
    · simp

end Trace

namespace Draft

variable {opts : GraphOptions} {t : Trace} {d d' : Draft} {met : List CallSite} {site : CallSite}
  {trail : List (CallSite × Option Nat)} {r : Route} {i : Nat}

/-! ## The routes that lead to a node -/

/-- The routes whose calls lead to a node, in the order of the trail. -/
def routesTo (trail : List (CallSite × Option Nat)) (i : Nat) : List Route :=
  trail.filterMap fun x => if x.2 = some i then x.1.route? else none

theorem mem_routesTo : r ∈ routesTo trail i ↔ ∃ site, (site, some i) ∈ trail ∧ site.route? = some r := by
  unfold routesTo
  rw [List.mem_filterMap]
  constructor
  · rintro ⟨⟨site, target⟩, hmem, hroute⟩
    by_cases htarget : target = some i
    · rw [if_pos htarget] at hroute
      exact ⟨site, htarget ▸ hmem, hroute⟩
    · rw [if_neg htarget] at hroute
      exact nomatch hroute
  · rintro ⟨site, hmem, hroute⟩
    exact ⟨_, hmem, by rw [if_pos rfl]; exact hroute⟩

theorem routesTo_append (trail more : List (CallSite × Option Nat)) (i : Nat) :
    routesTo (trail ++ more) i = routesTo trail i ++ routesTo more i :=
  List.filterMap_append

/-- A call of a route is the last one that leads to its node. -/
theorem routesTo_concat_self (hr : site.route? = some r) :
    routesTo (trail ++ [(site, some i)]) i = routesTo trail i ++ [r] := by
  rw [routesTo_append]
  simp [routesTo, hr]

/-- A site says nothing about a node that it does not lead to, and about none without a route. -/
theorem routesTo_concat_other {target : Option Nat} (h : target = some i → site.route? = none) :
    routesTo (trail ++ [(site, target)]) i = routesTo trail i := by
  rw [routesTo_append]
  by_cases htarget : target = some i
  · simp [routesTo, htarget, h htarget]
  · simp [routesTo, htarget]

theorem routesTo_concat_ne_nil (h : routesTo trail i ≠ []) (x : CallSite × Option Nat) :
    routesTo (trail ++ [x]) i ≠ [] := by
  rw [routesTo_append]
  exact List.append_ne_nil_of_left_ne_nil h _

/-! ## What a draft shows -/

/-- What the nodes of a draft show after a trail. -/
structure Shown (t : Trace) (trail : List (CallSite × Option Nat)) (d : Draft) : Prop where
  node : ∀ i, routesTo trail i ≠ [] →
    ∃ n, d.node? i = some n ∧ n.ShowsOneOf t (routesTo trail i)
  /-- A node apart is made for a route that is called. -/
  listed : ∀ entry ∈ d.routeNodes, routesTo trail entry.2 ≠ []

/-- A new number leaves the nodes that are there alone. -/
theorem node?_addNode_of_some {n node : GraphNode} (hn : d.node? i = some n)
    (hnew : d.hasNode node.id = false) : (d.addNode node).node? i = some n := by
  rw [node?_addNode, if_neg ?_]
  · exact hn
  · rintro rfl
    exact Bool.false_ne_true (hnew.symm.trans (hasNode_iff.mpr ⟨n, hn⟩))

/-- A node with another number is not turned into a route. -/
theorem node?_setRoute_of_ne {n : GraphNode} {j : Nat} (hn : d.node? i = some n) (hne : j ≠ i)
    (r : Route) : (d.setRoute j r).node? i = some n := by
  rw [node?_setRoute, hn, Option.map_some, if_neg]
  rw [id_of_node? hn]
  exact Ne.symm hne

/-- A site that calls no route of the catalog leaves all nodes as they are, and the table of routes. -/
theorem Tables.keeps_of_reach (hd : d.Tables t) (ht : t.Coherent)
    (hne : ∀ r, t.errand opts site ≠ .matched r) (hr : d.reach opts t site = some (d', i)) :
    (∀ j n, d.node? j = some n → d'.node? j = some n) ∧ d'.routeNodes = d.routeNodes := by
  rw [reach_eq] at hr
  cases he : t.errand opts site with
  | unit k =>
    rw [he] at hr
    obtain rfl : d.addUnit t k = d' := congrArg Prod.fst (Option.some.inj hr)
    refine ⟨fun j n hn => ?_, routeNodes_addUnit t d k⟩
    have hlt : k < t.units.length := ht.callee?_lt (Trace.errand_eq_unit_iff.mp he)
    have hu := List.getElem?_eq_getElem hlt
    rw [addUnit_eq hu]
    split
    · exact hn
    · rename_i hfree
      have hid : t.units[k].id = k := ht.numbered k _ hu
      exact node?_addNode_of_some hn (by rw [FunctionUnit.node, hid]; simpa using hfree)
  | matched r => exact absurd he (hne r)
  | unmatched routing =>
    rw [he] at hr
    obtain rfl : (d.addTarget (unmatchedNode routing)).1 = d' := congrArg Prod.fst (Option.some.inj hr)
    exact ⟨fun j n hn => node?_addNode_of_some hn hd.hasNode_nextId, rfl⟩
  | outside hit =>
    rw [he] at hr
    obtain rfl : (d.externalTarget hit).1 = d' := congrArg Prod.fst (Option.some.inj hr)
    refine ⟨fun j n hn => ?_, routeNodes_externalTarget d hit⟩
    rcases externalTarget_cases d hit with ⟨_, -, heq⟩ | ⟨-, heq⟩
    · rw [heq]
      exact hn
    · rw [heq]
      exact node?_addNode_of_some hn hd.hasNode_nextId
  | nothing =>
    rw [he] at hr
    exact absurd hr (by simp)

/-! ## One more site -/

/-- A site that calls no route of the catalog. -/
theorem Shown.keep (h : Shown t trail d) (hroute : site.route? = none) (target : Option Nat)
    (hnodes : ∀ j n, d.node? j = some n → d'.node? j = some n) (hlisted : d'.routeNodes = d.routeNodes) :
    Shown t (trail ++ [(site, target)]) d' := by
  have hsame : ∀ i, routesTo (trail ++ [(site, target)]) i = routesTo trail i :=
    fun i => routesTo_concat_other fun _ => hroute
  constructor
  · intro i hi
    rw [hsame] at hi ⊢
    obtain ⟨n, hn, hshows⟩ := h.node i hi
    exact ⟨n, hnodes i n hn, hshows⟩
  · intro entry he
    rw [hsame]
    exact h.listed entry (hlisted ▸ he)

/-- A call of a route shows in one node, and the other nodes keep what they show. -/
theorem Shown.change (h : Shown t trail d) (hroute : site.route? = some r)
    (hnodes : ∀ j n, j ≠ i → d.node? j = some n → d'.node? j = some n)
    (hnode : ∃ n, d'.node? i = some n ∧ n.ShowsOneOf t (routesTo trail i ++ [r]))
    (hlisted : ∀ entry ∈ d'.routeNodes, entry.2 = i ∨ entry ∈ d.routeNodes) :
    Shown t (trail ++ [(site, some i)]) d' := by
  have hself : routesTo (trail ++ [(site, some i)]) i = routesTo trail i ++ [r] :=
    routesTo_concat_self hroute
  constructor
  · intro j hj
    by_cases hij : j = i
    · rw [hij, hself]
      exact hnode
    · have hother : routesTo (trail ++ [(site, some i)]) j = routesTo trail j :=
        routesTo_concat_other fun htarget => absurd (Option.some.inj htarget).symm hij
      rw [hother] at hj ⊢
      obtain ⟨n, hn, hshows⟩ := h.node j hj
      exact ⟨n, hnodes j n hij hn, hshows⟩
  · intro entry he
    rcases hlisted entry he with rfl | hold
    · rw [hself]
      exact List.append_ne_nil_of_right_ne_nil _ (List.cons_ne_nil _ _)
    · exact routesTo_concat_ne_nil (h.listed entry hold) _

/-- The functions of the routes that led to a node before, and that of one more. -/
theorem Shown.function_concat (h : Shown t trail d) {n : GraphNode} (hn : d.node? i = some n)
    (hfunction : n.function = r.function) : ∀ r' ∈ routesTo trail i ++ [r], n.function = r'.function := by
  intro r' hr'
  rcases List.mem_append.mp hr' with hold | hnew
  · obtain ⟨n', hn', hshows⟩ := h.node i (List.ne_nil_of_mem hold)
    obtain rfl : n = n' := Option.some.inj (hn.symm.trans hn')
    exact hshows.function r' hold
  · rw [List.mem_singleton.mp hnew]
    exact hfunction

/-- The node of a unit shows the route that came to it last. -/
theorem Shown.setRoute (h : Shown t trail d) (hd : d.Tables t) (ht : t.Coherent)
    (hroute : site.route? = some r) {u : FunctionUnit} (hu : t.owner? opts r = some u)
    (hnode : d.hasNode u.id = true) : Shown t (trail ++ [(site, some u.id)]) (d.setRoute u.id r) := by
  have hmem : u ∈ t.units := List.mem_of_find?_eq_some hu
  have hlt : u.id < t.units.length := ht.id_lt hmem
  have hat : t.units[u.id]? = some u := by
    obtain ⟨j, hj⟩ := List.mem_iff_getElem?.mp hmem
    rw [ht.numbered j u hj]
    exact hj
  obtain ⟨n, hn⟩ := hasNode_iff.mp hnode
  have hserves : serves opts r u = true := List.find?_some hu
  have hname : u.name = r.function := by
    unfold serves at hserves
    exact of_decide_eq_true (Bool.and_eq_true_iff.mp hserves).1
  have hfunction : n.function = r.function := (hd.units _ u n hat hn).function.trans hname
  refine h.change hroute (fun j m hj hm => node?_setRoute_of_ne hm (Ne.symm hj) r) ?_
    fun entry he => .inr he
  refine ⟨{ n with isRoute := true, route := some (routeInfo r) }, ?_, rfl, ?_, ?_⟩
  · rw [node?_setRoute, hn, Option.map_some, if_pos (id_of_node? hn)]
  · show ∀ r' ∈ routesTo trail u.id ++ [r], n.function = r'.function
    exact h.function_concat hn hfunction
  · show some (routeInfo r) = (t.shownRoute n.id (routesTo trail u.id ++ [r])).map routeInfo
    rw [Trace.shownRoute, id_of_node? hn, if_pos hlt, List.getLast?_concat, Option.map_some]

/-- A node apart keeps the route that it was made for. -/
theorem Shown.share (h : Shown t trail d) (ha : Allotted opts t met d) (hroute : site.route? = some r)
    (hmem : (r.place, i) ∈ d.routeNodes) : Shown t (trail ++ [(site, some i)]) d := by
  obtain ⟨n, hn, hstands⟩ := (ha.listed r.place i).mp hmem
  have hfunction : n.function = r.function := congrArg (·.2.1) hstands.place
  have hold : routesTo trail i ≠ [] := h.listed _ hmem
  obtain ⟨n', hn', hshows⟩ := h.node i hold
  obtain rfl : n = n' := Option.some.inj (hn.symm.trans hn')
  refine h.change hroute (fun j m _ hm => hm) ⟨n, hn, hshows.isRoute, h.function_concat hn hfunction, ?_⟩
    fun entry he => .inr he
  have hapart : ¬ n.id < t.units.length := Nat.not_lt_of_le hstands.apart
  have hroute := hshows.route
  rw [Trace.shownRoute, if_neg hapart] at hroute ⊢
  rw [hroute, List.head?_append_of_ne_nil _ hold]

/-- A node apart is made for the first route that comes to it. -/
theorem Shown.add (h : Shown t trail d) (hd : d.Tables t) (hroute : site.route? = some r) :
    Shown t (trail ++ [(site, some d.nextId)])
      { (d.addTarget (routeNode r)).1 with routeNodes := (r.place, d.nextId) :: d.routeNodes } := by
  -- the number is new, so no call has led there
  have hnone : routesTo trail d.nextId = [] := by
    by_contra hne
    obtain ⟨n, hn, -⟩ := h.node d.nextId hne
    exact Bool.false_ne_true (hd.hasNode_nextId.symm.trans (hasNode_iff.mpr ⟨n, hn⟩))
  have hself : (d.addNode (routeNode r d.nextId)).node? d.nextId = some (routeNode r d.nextId) := by
    rw [node?_addNode]
    exact if_pos rfl
  refine h.change hroute (fun j m _ hm => node?_addNode_of_some hm hd.hasNode_nextId)
    ⟨_, hself, rfl, ?_, ?_⟩ fun entry he => ?_
  · rw [hnone]
    intro r' hr'
    rw [List.mem_singleton.mp hr']
    rfl
  · have hapart : ¬ (routeNode r d.nextId).id < t.units.length := Nat.not_lt_of_le hd.room
    rw [hnone, Trace.shownRoute, if_neg hapart]
    rfl
  · rcases List.mem_cons.mp he with rfl | he
    · exact .inl rfl
    · exact .inr he

theorem Shown.matched (h : Shown t trail d) (ha : Allotted opts t met d) (hd : d.Tables t)
    (ht : t.Coherent) (hroute : site.route? = some r) :
    Shown t (trail ++ [(site, some (d.matchedTarget opts t r).2)]) (d.matchedTarget opts t r).1 := by
  rcases matchedTarget_cases opts t d r with
    ⟨owner, howner, hnode, heq⟩ | ⟨-, ⟨id, hkey, heq⟩ | ⟨-, heq⟩⟩
  · rw [heq]
    exact h.setRoute hd ht hroute howner hnode
  · rw [heq]
    exact h.share ha hroute (List.mem_of_find?_eq_some hkey)
  · rw [heq]
    exact h.add hd hroute

/-- **One more site.** -/
theorem Shown.record (h : Shown t trail d) (ha : Allotted opts t met d) (hd : d.Tables t)
    (ht : t.Coherent) (hs : site ∈ t.sites) :
    Shown t (trail ++ [(site, (d.reach opts t site).map (·.2))]) (d.record opts t site) := by
  -- edges say nothing of what is shown
  have hrecord : ∀ d' i, d.reach opts t site = some (d', i) →
      Shown t (trail ++ [(site, some i)]) d' → Shown t (trail ++ [(site, some i)]) (d.record opts t site) := by
    intro d' i hreach hshown
    rw [record_eq, hreach]
    show Shown t _ (if site.target = .route then _ else _)
    split
    · exact ⟨hshown.node, hshown.listed⟩
    · exact ⟨hshown.node, hshown.listed⟩
  cases hroute : site.route? with
  | some r =>
    have hreach : d.reach opts t site = some (d.matchedTarget opts t r) := by
      rw [reach_eq, (ht.errand_matched_iff hs).mpr hroute]
    rw [hreach]
    exact hrecord _ _ hreach (h.matched ha hd ht hroute)
  | none =>
    have hne : ∀ r, t.errand opts site ≠ .matched r := by
      intro r he
      rw [ht.errand_matched_iff hs, hroute] at he
      exact nomatch he
    cases hreach : d.reach opts t site with
    | none =>
      rw [record_eq, hreach]
      exact h.keep hroute none (fun _ _ hn => hn) rfl
    | some reached =>
      obtain ⟨d', i⟩ := reached
      obtain ⟨hnodes, hlisted⟩ := hd.keeps_of_reach ht hne hreach
      exact hrecord d' i hreach (h.keep hroute (some i) hnodes hlisted)

theorem shown_drawn (opts : GraphOptions) (ht : t.Coherent) : Shown t (t.trail opts) (t.drawn opts) := by
  have hstart : Shown t [] (start t) := by
    obtain ⟨u, -, hstart⟩ := start_eq ht
    rw [hstart]
    exact ⟨fun i hi => absurd rfl hi, fun entry he => absurd he List.not_mem_nil⟩
  refine foldl_prefix (P := fun met d => Shown t ((start t).trail opts t met) d) hstart
    (fun before site after h hshown => ?_) (List.append_nil _).symm
  have hs : site ∈ t.sites := h ▸ List.mem_append_right _ List.mem_cons_self
  rw [trail_concat]
  exact hshown.record (Allotted.of_prefix opts ht h) (Drawn.of_prefix ht h).tables ht hs

end Draft

/-! ## The graph of a trace -/

/-- How a graph shows the routes of routing calls. -/
structure CallGraph.ShowsRoutes (opts : GraphOptions) (t : Trace) (g : CallGraph) : Prop where
  /-- The trail has the calls of all units, in the order of a depth-first walk. -/
  calls : ((t.trail opts).map (·.1)).Perm (t.units.flatMap (sitesOf t.modules))
  order : t.DepthFirstOrder ((t.trail opts).map (·.1))
  /-- A call of a route of the catalog leads to a node that shows one of the routes called there. -/
  led : ∀ site target r, (site, target) ∈ t.trail opts → site.route? = some r →
    ∃ n ∈ g.nodes, target = some n.id ∧ n.function = r.function ∧
      n.ShowsOneOf t (Draft.routesTo (t.trail opts) n.id) ∧
      ∃ e ∈ g.edges, e.start = site.unit.id ∧ e.stop = n.id ∧ site.call.line ∈ e.lines
  /-- It is the route of the call, when no call with another one leads there. -/
  own : ∀ site r, ∀ n ∈ g.nodes, (site, some n.id) ∈ t.trail opts → site.route? = some r →
    (∀ r' ∈ Draft.routesTo (t.trail opts) n.id, Draft.routeInfo r' = Draft.routeInfo r) →
    n.route = some (Draft.routeInfo r)

/-- **A routing call leads to a node of the function that serves its route**, and what the node shows is the
    last or the first one of the routes that are called there. -/
theorem Tracer.graph_showsRoutes {tracer : Tracer} {fuel : Nat} {module function : String} {t : Trace}
    (h : tracer.trace? fuel module function = some (.ok t)) {opts : GraphOptions} {g : CallGraph}
    (hg : t.graph opts = .ok g) : g.ShowsRoutes opts t := by
  have ht := tracer.trace?_coherent h
  have hdrawn := Draft.Drawn.drawn opts ht
  have hrecords := Draft.records_drawn opts ht
  have hshown := Draft.shown_drawn opts ht
  obtain rfl := Trace.eq_drawn hg
  have hsites : (t.trail opts).map (·.1) = t.sites := Draft.trail_sites opts t _ _
  refine ⟨hsites ▸ ht.sites_perm, hsites ▸ ht.sites_depthFirst, ?_, ?_⟩
  · intro site target r htrail hroute
    have hsite : site ∈ t.sites := hsites ▸ List.mem_map_of_mem (f := Prod.fst) htrail
    have htarget : site.target = .route := by
      refine (ht.route_iff_of_mem_sites hsite).mpr (Option.isSome_iff_exists.mpr ?_)
      obtain ⟨routing, hrouting, -⟩ := Option.bind_eq_some_iff.mp hroute
      exact ⟨routing, hrouting⟩
    obtain ⟨i, rfl⟩ := Option.isSome_iff_exists.mp (ht.isSome_of_mem_trail htrail htarget)
    have hcalled : r ∈ Draft.routesTo (t.trail opts) i := Draft.mem_routesTo.mpr ⟨site, htrail, hroute⟩
    obtain ⟨n, hn, hshows⟩ := hshown.node i (List.ne_nil_of_mem hcalled)
    obtain rfl := Draft.id_of_node? hn
    have hlogged : (⟨site.unit.id, n.id, site.call.line⟩ : RecordedCall) ∈ Draft.logOf (t.trail opts) :=
      List.mem_filterMap.mpr ⟨_, htrail, rfl⟩
    exact ⟨n, List.mem_of_find?_eq_some hn, rfl, hshows.function r hcalled, hshows,
      hrecords.exists_edge hlogged⟩
  · intro site r n hn htrail hroute hsame
    have hcalled : r ∈ Draft.routesTo (t.trail opts) n.id := Draft.mem_routesTo.mpr ⟨site, htrail, hroute⟩
    obtain ⟨m, hm, hshows⟩ := hshown.node n.id (List.ne_nil_of_mem hcalled)
    obtain rfl : n = m := Option.some.inj ((hdrawn.tables.node?_of_mem hn).symm.trans hm)
    obtain ⟨r', hr', hshown'⟩ := t.exists_shownRoute n.id (List.ne_nil_of_mem hcalled)
    rw [hshows.route, hshown', Option.map_some, hsame r' hr']

/-! ## A function with two routes -/

/-- A second page, served by the function of the home page. -/
def startRoute : Route :=
  ⟨"/start/", ["GET"], "c", "app", "home", some ⟨"app.py"⟩, none, none⟩

/-- A request for the second page. -/
def requestStart (line : Nat) : Stmt :=
  .expr (.call ⟨.attribute (.name "requests") "get", [.str "/start"], [], line, none⟩) line

/-- The application with both pages in the catalog. -/
def startTracer (main : List Stmt) : Tracer :=
  { homeTracer main with clients := .ofNames ⟨[homeRoute, startRoute]⟩ ["requests"] }

/-- Routing calls of the two pages lead to a node, and it shows `r`. -/
def CallGraph.ShowsOfBoth (t : Trace) (g : CallGraph) (r : Route) : Prop :=
  ∃ n ∈ g.nodes, Draft.routesTo (t.trail shopOptions) n.id = [homeRoute, startRoute] ∧
    n.route = some (Draft.routeInfo r)

/-- Both pages are requested. The node apart that this leads to shows the first one, and the node of a function
    that has been called before shows the last one. -/
theorem home_showsRoutes :
    (∃ t g, (startTracer [requestHome 7, requestStart 8]).trace? 2 "app" "main" = some (.ok t) ∧
      t.graph shopOptions = .ok g ∧ g.ShowsRoutes shopOptions t ∧ g.ShowsOfBoth t homeRoute) ∧
    ∃ t g, (startTracer [callHome 7, requestHome 8, requestStart 9]).trace? 2 "app" "main" = some (.ok t) ∧
      t.graph shopOptions = .ok g ∧ g.ShowsRoutes shopOptions t ∧ g.ShowsOfBoth t startRoute := by
  have hfirst : ∃ t g, (startTracer [requestHome 7, requestStart 8]).trace? 2 "app" "main" = some (.ok t) ∧
      t.graph shopOptions = .ok g ∧ g.ShowsOfBoth t homeRoute :=
    ⟨_, _, rfl, rfl, _, List.mem_of_getElem? (i := 1) rfl, rfl, rfl⟩
  have hlast : ∃ t g, (startTracer [callHome 7, requestHome 8, requestStart 9]).trace? 2 "app" "main" =
      some (.ok t) ∧ t.graph shopOptions = .ok g ∧ g.ShowsOfBoth t startRoute :=
    ⟨_, _, rfl, rfl, _, List.mem_of_getElem? (i := 1) rfl, rfl, rfl⟩
  obtain ⟨t, g, ht, hg, hshown⟩ := hfirst
  obtain ⟨t', g', ht', hg', hshown'⟩ := hlast
  exact ⟨⟨t, g, ht, hg, Tracer.graph_showsRoutes ht hg, hshown⟩,
    ⟨t', g', ht', hg', Tracer.graph_showsRoutes ht' hg', hshown'⟩⟩

/-- A route is called in a trace, and no node of the graph shows it. -/
def CallGraph.Hides (t : Trace) (g : CallGraph) (r : Route) : Prop :=
  (∃ u ∈ t.units, ∃ site ∈ sitesOf t.modules u, site.route? = some r) ∧
    ∀ n ∈ g.nodes, n.route ≠ some (Draft.routeInfo r)

/-- **A route that is called and not shown**: both pages are requested, and they lead to one node. It shows
    the first page, or the second one when the function behind them has been called before. -/
theorem home_hidden :
    (∃ t g, (startTracer [requestHome 7, requestStart 8]).trace? 2 "app" "main" = some (.ok t) ∧
      t.graph shopOptions = .ok g ∧ g.Hides t startRoute) ∧
    ∃ t g, (startTracer [callHome 7, requestHome 8, requestStart 9]).trace? 2 "app" "main" = some (.ok t) ∧
      t.graph shopOptions = .ok g ∧ g.Hides t homeRoute := by
  constructor
  · refine ⟨_, _, rfl, rfl, ⟨_, List.mem_of_getElem? (i := 0) rfl, _, List.mem_of_getElem? (i := 1) rfl, rfl⟩,
      ?_⟩
    decide
  · refine ⟨_, _, rfl, rfl, ⟨_, List.mem_of_getElem? (i := 0) rfl, _, List.mem_of_getElem? (i := 1) rfl, rfl⟩,
      ?_⟩
    decide

end ServiceTrace
