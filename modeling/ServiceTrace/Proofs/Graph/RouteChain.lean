import ServiceTrace.Proofs.Graph.Recorded

/-!
# `ServiceTrace.Proofs.Graph.RouteChain` — dotted edges chain the routing calls

A draft knows one routing call, the last one, and the walk carries it into every body that it enters and
out again. So the order of a dotted edge is that of the walk, not that of a body: `Draft.Chained` says of a
draft that its dotted edges join the neighbours among the routing calls met so far, wherever these lie.

* `consecutive` — the neighbours in a list.
* `Draft.routesOf` — the nodes that the routing calls of a trail lead to.
* `Chained.record` — one site; `Draft.chained_drawn` — the whole walk.
* **`Tracer.graph_chainsRoutes`** — the dotted edges of the graph of a trace.

Every routing call leads to a node, so the chain leaves none out (`Coherent.isSome_of_mem_trail`), and its
length is read off the bodies of the units.
-/

namespace ServiceTrace

/-! ## Neighbours in a list -/

section Consecutive

variable {α : Type}

/-- The neighbours in a list: the first two elements, the second and the third, and so on. -/
def consecutive (l : List α) : List (α × α) :=
  l.zip l.tail

theorem consecutive_cons_cons (a b : α) (l : List α) :
    consecutive (a :: b :: l) = (a, b) :: consecutive (b :: l) :=
  rfl

theorem length_consecutive (l : List α) : (consecutive l).length = l.length - 1 := by
  unfold consecutive
  rw [List.length_zip, List.length_tail]
  omega

/-- One more element is a neighbour of the last one before it. -/
theorem consecutive_append_singleton (l : List α) (a : α) :
    consecutive (l ++ [a]) = consecutive l ++ (l.getLast?.map (·, a)).toList := by
  induction l with
  | nil => rfl
  | cons b l ih =>
    cases l with
    | nil => rfl
    | cons c l =>
      show consecutive (b :: c :: (l ++ [a])) = _
      rw [consecutive_cons_cons, consecutive_cons_cons, List.getLast?_cons_cons]
      exact congrArg ((b, c) :: ·) ih

/-- Each pair begins where the one before it ends. -/
theorem isChain_consecutive (l : List α) : (consecutive l).IsChain fun p q => p.2 = q.1 := by
  induction l with
  | nil => exact .nil
  | cons a l ih =>
    match l with
    | [] => exact .nil
    | [b] => exact .singleton (a, b)
    | b :: c :: l =>
      rw [consecutive_cons_cons, consecutive_cons_cons]
      rw [consecutive_cons_cons] at ih
      exact List.isChain_cons_cons.mpr ⟨rfl, ih⟩

end Consecutive

/-! ## The chain of a draft -/

namespace Draft

variable {opts : GraphOptions} {t : Trace} {d : Draft} {routes : List Nat}

/-- The nodes that the routing calls of a trail lead to. -/
def routesOf (trail : List (CallSite × Option Nat)) : List Nat :=
  trail.filterMap fun (site, target) => if site.target = .route then target else none

/-- The dotted edges of a draft join neighbours among the given nodes, and its last route is the last of
    them. -/
structure Chained (routes : List Nat) (d : Draft) : Prop where
  dotted : d.dotted = consecutive routes
  lastRoute : d.lastRoute = routes.getLast?

theorem chained_start (ht : t.Coherent) : Chained (routesOf []) (start t) := by
  obtain ⟨-, hdotted, hlast⟩ := edges_start ht
  exact ⟨hdotted, hlast⟩

/-- A routing call goes to the end of the chain. -/
theorem Chained.addRouteStep (h : Chained routes d) (i : Nat) :
    Chained (routes ++ [i]) (d.addRouteStep i) := by
  constructor
  · show d.dotted ++ (d.lastRoute.map (·, i)).toList = _
    rw [consecutive_append_singleton, h.dotted, h.lastRoute]
  · rw [List.getLast?_concat]
    rfl

theorem routesOf_append (trail more : List (CallSite × Option Nat)) :
    routesOf (trail ++ more) = routesOf trail ++ routesOf more :=
  List.filterMap_append

/-- **One more site**: a routing call is chained to the one before it, and every other site leaves the
    chain as it is. -/
theorem Chained.record {trail : List (CallSite × Option Nat)} (h : Chained (routesOf trail) d)
    (site : CallSite) :
    Chained (routesOf (trail ++ [(site, (d.reach opts t site).map (·.2))]))
      (d.record opts t site) := by
  rw [routesOf_append, record_eq]
  cases hreach : d.reach opts t site with
  | none =>
    have hroutes : routesOf [(site, none)] = [] := by simp [routesOf]
    show Chained (routesOf trail ++ routesOf [(site, none)]) d
    rw [hroutes, List.append_nil]
    exact h
  | some reached =>
    obtain ⟨d', i⟩ := reached
    obtain ⟨-, hdotted, hlast⟩ := edges_reach hreach
    have hedge : Chained (routesOf trail) (d'.addEdge site.unit.id i site.call.line) :=
      ⟨hdotted.trans h.dotted, hlast.trans h.lastRoute⟩
    show Chained (routesOf trail ++ routesOf [(site, some i)]) _
    by_cases htarget : site.target = .route
    · have hroutes : routesOf [(site, some i)] = [i] := by simp [routesOf, htarget]
      simp only [if_pos htarget]
      rw [hroutes]
      exact hedge.addRouteStep i
    · have hroutes : routesOf [(site, some i)] = [] := by simp [routesOf, htarget]
      simp only [if_neg htarget]
      rw [hroutes, List.append_nil]
      exact hedge

/-- **The dotted edges that are drawn join the neighbours on the trail.** -/
theorem chained_drawn (opts : GraphOptions) (ht : t.Coherent) :
    Chained (routesOf (t.trail opts)) (t.drawn opts) :=
  foldl_trail (P := fun trail d => Chained (routesOf trail) d) (fun _ _ site h => h.record site)
    (chained_start ht) t.sites

/-- When every routing call leads to a node, there are as many nodes as routing calls. -/
theorem length_routesOf {trail : List (CallSite × Option Nat)}
    (h : ∀ x ∈ trail, x.1.target = .route → x.2.isSome = true) :
    (routesOf trail).length = (trail.map (·.1)).countP (·.target = .route) := by
  induction trail with
  | nil => rfl
  | cons first rest ih =>
    obtain ⟨site, target⟩ := first
    have ih := ih fun x hx => h x (List.mem_cons_of_mem _ hx)
    unfold routesOf at ih ⊢
    by_cases htarget : site.target = .route
    · obtain ⟨i, rfl⟩ := Option.isSome_iff_exists.mp (h _ List.mem_cons_self htarget)
      simp [htarget, ih]
    · simp [htarget, ih]

end Draft

/-! ## The chain of a graph -/

/-- The dotted edges of a graph chain the routing calls of a trace. -/
structure CallGraph.ChainsRoutes (opts : GraphOptions) (t : Trace) (g : CallGraph) : Prop where
  /-- The trail has every call in the order in which a depth-first walk meets it. -/
  order : t.DepthFirstOrder ((t.trail opts).map (·.1))
  /-- The nodes of the trail are those that the edges of the graph end at. -/
  edges : Records (Draft.logOf (t.trail opts)) g.edges
  /-- Every routing call leads to a node, whether the catalog has its route or not. -/
  led : ∀ x ∈ t.trail opts, x.1.target = .route → x.2.isSome = true
  dotted : g.dotted = consecutive (Draft.routesOf (t.trail opts))
  linked : g.dotted.IsChain fun p q => p.2 = q.1
  count : g.dotted.length =
    (t.units.flatMap (sitesOf t.modules)).countP (·.target = .route) - 1

variable {opts : GraphOptions} {t : Trace}

/-- The routing calls among the sites of a trace are the annotated ones. -/
theorem Trace.Coherent.route_iff_of_mem_sites (ht : t.Coherent) {site : CallSite}
    (hs : site ∈ t.sites) : site.target = .route ↔ site.call.route.isSome = true := by
  obtain ⟨u, -, hu⟩ := List.mem_flatMap.mp (ht.sites_perm.mem_iff.mp hs)
  exact route_iff_of_mem_sitesOf hu

/-- A routing call of a trace leads to a node. -/
theorem Trace.Coherent.isSome_of_mem_trail (ht : t.Coherent) {x : CallSite × Option Nat}
    (hx : x ∈ t.trail opts) (htarget : x.1.target = .route) : x.2.isSome = true := by
  have hsite : x.1 ∈ t.sites := by
    rw [← Draft.trail_sites opts t (Draft.start t) t.sites]
    exact List.mem_map_of_mem (f := Prod.fst) hx
  obtain ⟨d, hreach⟩ := Draft.exists_reach_of_mem_trail hx
  rw [hreach, Option.isSome_map]
  exact (Draft.reach_isSome_iff (ht.route_iff_of_mem_sites hsite).mp).mpr (Or.inl htarget)

/-- **Dotted edges chain the routing calls**: the dotted edges of the graph of a trace join each routing
    call to the next one of the depth-first walk, and there are no others. -/
theorem Tracer.graph_chainsRoutes {tracer : Tracer} {fuel : Nat} {module function : String}
    (h : tracer.trace? fuel module function = some (.ok t)) {g : CallGraph}
    (hg : t.graph opts = .ok g) : g.ChainsRoutes opts t := by
  have ht := tracer.trace?_coherent h
  have hsites : (t.trail opts).map (·.1) = t.sites := Draft.trail_sites opts t _ _
  have hled : ∀ x ∈ t.trail opts, x.1.target = .route → x.2.isSome = true :=
    fun x hx htarget => ht.isSome_of_mem_trail hx htarget
  have hdotted := (Draft.chained_drawn opts ht).dotted
  obtain rfl := Trace.eq_drawn hg
  refine ⟨hsites ▸ ht.sites_depthFirst, Draft.records_drawn opts ht, hled, hdotted, ?_, ?_⟩
  · show (t.drawn opts).dotted.IsChain _
    rw [hdotted]
    exact isChain_consecutive _
  · show (t.drawn opts).dotted.length = _
    rw [hdotted, length_consecutive, Draft.length_routesOf hled, hsites, ht.sites_perm.countP_eq]

/-- The shop has two routing calls in different functions, and they are chained. -/
theorem shop_chainsRoutes : ∃ t g, shopTracer.trace? 3 "shop" "main" = some (.ok t) ∧
    t.graph shopOptions = .ok g ∧ g.ChainsRoutes shopOptions t := by
  obtain ⟨t, g, ht, hg, -⟩ := shop_drawn
  exact ⟨t, g, ht, hg, Tracer.graph_chainsRoutes ht hg⟩

end ServiceTrace
