import ServiceTrace.Proofs.Graph.WellFormed

/-!
# `ServiceTrace.Proofs.Graph.Recorded` — every call is recorded once

The walk comes back to a body as often as other bodies lead there, and it leaves a body in the middle to
follow a call. None of that shows in the edges: the calls of a unit can be assigned targets one by one, in
the order of its body, so that its edges are these calls sorted by target.

* `Trace.Draws` — the calls that are drawn.
* `Trace.Assigned` — targets for the calls of a unit; `CallGraph.RecordsCalls` — the edges that they make.
* **`Tracer.graph_recordsCalls`** — the graph of a trace records its calls.

The targets are those of the trail of the draft (`Draft.targetsOf`). Since the walk enters every unit once,
they belong to the calls of its body.
-/

namespace ServiceTrace

/-- A call that is drawn: a routing call, one that refers to a unit, or, when functions outside the project
    are drawn, one that is imported from a module which the trace has not read. -/
def Trace.Draws (opts : GraphOptions) (t : Trace) (module : String) (target : CallTarget) : Prop :=
  target = .route ∨
  (∃ f i, target.function? module = some f ∧ t.unitId? f.1 f.2 = some i) ∨
  (opts.external = true ∧ ∃ hit, target = .imported hit ∧ t.module? hit.module = none)

/-- Targets for the calls of a unit. -/
structure Trace.Assigned (opts : GraphOptions) (t : Trace) (u : FunctionUnit) (m : TracedModule)
    (assigned : List (Call × Option Nat)) : Prop where
  /-- Every call of the body is there once, in the order of the body. -/
  calls : assigned.map (·.1) = Stmt.callsIn u.body
  /-- Exactly the calls that are drawn have targets. -/
  defined : ∀ x ∈ assigned,
    (x.2.isSome = true ↔ t.Draws opts u.module ((m.scope u.localImports).classify x.1))
  /-- A call of a unit has that unit for its target. -/
  callee : ∀ x ∈ assigned, ∀ f i, ((m.scope u.localImports).classify x.1).function? u.module = some f →
    t.unitId? f.1 f.2 = some i → x.2 = some i

/-- The edges of a graph are the calls of the units, sorted by targets. -/
structure CallGraph.RecordsCalls (opts : GraphOptions) (t : Trace) (g : CallGraph)
    (assigned : Nat → List (Call × Option Nat)) : Prop where
  units : ∀ (i : Nat) (u : FunctionUnit), t.units[i]? = some u →
    ∃ m, t.module? u.module = some m ∧ t.Assigned opts u m (assigned i)
  /-- Nothing else calls. -/
  others : ∀ i, t.units.length ≤ i → assigned i = []
  single : (g.edges.map CallEdge.ends).Nodup
  joined : ∀ start stop, Joined g.edges start stop ↔ ∃ x ∈ assigned start, x.2 = some stop
  lines : ∀ e ∈ g.edges,
    e.lines = ((assigned e.start).filter (·.2 = some e.stop)).map (·.1.line)

/-! ## Which calls are drawn -/

namespace Draft

variable {opts : GraphOptions} {t : Trace} {d : Draft}

/-- A site is led to a node exactly when its call is drawn. -/
theorem reach_isSome_iff {site : CallSite}
    (hroute : site.target = .route → site.call.route.isSome = true) :
    (d.reach opts t site).isSome = true ↔ t.Draws opts site.unit.module site.target := by
  rw [Option.isSome_iff_exists]
  constructor
  · rintro ⟨⟨d', i⟩, hreach⟩
    rcases reach_cases hreach with ⟨hcallee, -⟩ | ⟨-, htarget, -, -⟩ | ⟨hit, htarget, -, hext, hm, -⟩
    · rw [Trace.callee?_eq] at hcallee
      obtain ⟨f, hf, hi⟩ := Option.bind_eq_some_iff.mp hcallee
      exact Or.inr (Or.inl ⟨f, i, hf, hi⟩)
    · exact Or.inl htarget
    · exact Or.inr (Or.inr ⟨hext, hit, htarget, hm⟩)
  · rintro (htarget | ⟨f, i, hf, hi⟩ | ⟨hext, hit, htarget, hm⟩)
    · obtain ⟨routing, hrouting⟩ := Option.isSome_iff_exists.mp (hroute htarget)
      unfold reach
      rw [htarget, hrouting]
      exact ⟨_, rfl⟩
    · refine ⟨_, reach_eq_addUnit (i := i) ?_⟩
      rw [Trace.callee?_eq, hf]
      exact hi
    · cases hcallee : t.callee? site with
      | some i => exact ⟨_, reach_eq_addUnit hcallee⟩
      | none =>
        unfold reach
        rw [htarget, hcallee]
        simp [hext, hm]

/-! ## The targets of a unit -/

/-- The calls of the unit at a position that a trail comes to, with their targets. -/
def targetsOf (trail : List (CallSite × Option Nat)) (i : Nat) : List (Call × Option Nat) :=
  (trail.filter (·.1.unit.id = i)).map fun (site, target) => (site.call, target)

theorem targetsOf_calls (trail : List (CallSite × Option Nat)) (i : Nat) :
    (targetsOf trail i).map (·.1) = ((trail.map (·.1)).filter (·.unit.id = i)).map (·.call) := by
  unfold targetsOf
  rw [List.filter_map, List.map_map, List.map_map]
  rfl

/-- The lines of the log are those of the calls with the target. -/
theorem linesBetween_logOf (trail : List (CallSite × Option Nat)) (start stop : Nat) :
    linesBetween (logOf trail) start stop =
      ((targetsOf trail start).filter (·.2 = some stop)).map (·.1.line) := by
  induction trail with
  | nil => rfl
  | cons first rest ih =>
    obtain ⟨site, target⟩ := first
    have hlog : logOf ((site, target) :: rest) =
        (target.map fun stop => (⟨site.unit.id, stop, site.call.line⟩ : RecordedCall)).toList ++
          logOf rest := by
      unfold logOf
      cases target <;> rfl
    rw [hlog, linesBetween_append, ih]
    unfold targetsOf
    by_cases hstart : site.unit.id = start
    · cases target with
      | none => simp [hstart, linesBetween]
      | some other => by_cases hstop : other = stop <;> simp [hstart, hstop, linesBetween]
    · cases target with
      | none => simp [hstart, linesBetween]
      | some other => simp [hstart, linesBetween]

/-- Every target comes from leading some draft to the node of a site. -/
theorem exists_site_of_mem_targetsOf {sites : List CallSite} {i : Nat} {x : Call × Option Nat}
    (h : x ∈ targetsOf (d.trail opts t sites) i) :
    ∃ site ∈ sites, site.unit.id = i ∧ x.1 = site.call ∧
      ∃ d' : Draft, x.2 = (d'.reach opts t site).map (·.2) := by
  obtain ⟨⟨site, target⟩, hmem, rfl⟩ := List.mem_map.mp h
  obtain ⟨htrail, hid⟩ := List.mem_filter.mp hmem
  refine ⟨site, ?_, of_decide_eq_true hid, rfl, exists_reach_of_mem_trail htrail⟩
  rw [← trail_sites opts t d sites]
  exact List.mem_map_of_mem (f := Prod.fst) htrail

end Draft

variable {opts : GraphOptions} {t : Trace}

/-- The calls of a unit, with the targets that the walk leads them to. -/
theorem Trace.Coherent.assigned (ht : t.Coherent) (opts : GraphOptions) {i : Nat} {u : FunctionUnit}
    (hu : t.units[i]? = some u) : ∃ m, t.module? u.module = some m ∧
      t.Assigned opts u m (Draft.targetsOf ((Draft.start t).trail opts t t.sites) i) := by
  obtain ⟨m, hm, hsites⟩ := ht.sitesAt_eq hu
  have hfilter := ht.sites_filter (List.getElem?_eq_some_iff.mp hu).1
  -- a call with a target comes from a site of the unit
  have hsite : ∀ x ∈ Draft.targetsOf ((Draft.start t).trail opts t t.sites) i, ∃ site : CallSite,
      site.unit = u ∧ site.target = (m.scope u.localImports).classify x.1 ∧ site.call = x.1 ∧
        ∃ d : Draft, x.2 = (d.reach opts t site).map (·.2) := by
    intro x hx
    obtain ⟨site, hmem, hid, hcall, hreach⟩ := Draft.exists_site_of_mem_targetsOf hx
    have hat : site ∈ t.sitesAt i := hfilter ▸ List.mem_filter.mpr ⟨hmem, decide_eq_true hid⟩
    rw [hsites] at hat
    obtain ⟨c, -, rfl⟩ := List.mem_map.mp hat
    exact ⟨_, rfl, by rw [hcall], hcall.symm, hreach⟩
  refine ⟨m, hm, ?_, fun x hx => ?_, fun x hx f j hf hj => ?_⟩
  · rw [Draft.targetsOf_calls, Draft.trail_sites, hfilter, hsites, List.map_map]
    exact List.map_id _
  · obtain ⟨site, hunit, htarget, hcall, d, hreach⟩ := hsite x hx
    rw [hreach, Option.isSome_map, ← htarget, ← hunit]
    refine Draft.reach_isSome_iff fun hroute => ?_
    rw [hcall]
    exact Scope.classify_eq_route_iff.mp (htarget.symm.trans hroute)
  · obtain ⟨site, hunit, htarget, -, d, hreach⟩ := hsite x hx
    have hcallee : t.callee? site = some j := by
      rw [Trace.callee?_eq, hunit, htarget, hf]
      exact hj
    rw [hreach, Draft.reach_eq_addUnit hcallee]
    rfl

/-- A number behind the units has no calls. -/
theorem Trace.Coherent.targetsOf_eq_nil (ht : t.Coherent) (d : Draft) {i : Nat}
    (hi : t.units.length ≤ i) : Draft.targetsOf (d.trail opts t t.sites) i = [] := by
  rw [List.eq_nil_iff_forall_not_mem]
  intro x hx
  obtain ⟨site, hsite, hid, -⟩ := Draft.exists_site_of_mem_targetsOf hx
  obtain ⟨j, hj⟩ := ht.mem_sites.mp hsite
  obtain ⟨hu, hj⟩ := ht.unit_of_mem_sitesAt hj
  obtain ⟨hlt, -⟩ := List.getElem?_eq_some_iff.mp hu
  omega

/-- **Visit once, record always**: the edges of the graph of a trace are the calls of its units, each
    recorded once and in the order of its body. -/
theorem Tracer.graph_recordsCalls {tracer : Tracer} {fuel : Nat} {module function : String}
    (h : tracer.trace? fuel module function = some (.ok t)) {g : CallGraph}
    (hg : t.graph opts = .ok g) : ∃ assigned, g.RecordsCalls opts t assigned := by
  have ht := tracer.trace?_coherent h
  have hrecords := Draft.records_drawn opts ht
  obtain rfl := Trace.eq_drawn hg
  refine ⟨Draft.targetsOf ((Draft.start t).trail opts t t.sites), fun i u hu => ht.assigned opts hu,
    fun i hi => ht.targetsOf_eq_nil _ hi, hrecords.single, fun start stop => ?_, fun e he => ?_⟩
  · show (start, stop) ∈ (t.drawn opts).edges.map CallEdge.ends ↔ _
    rw [hrecords.mem_ends, ← linesBetween_ne_nil, Draft.linesBetween_logOf, ne_eq,
      List.map_eq_nil_iff, List.filter_eq_nil_iff]
    simp
  · rw [hrecords.lines e he, Draft.linesBetween_logOf]

/-- The shop records its calls: both calls of `cart.add`, and every call of the recursion. -/
theorem shop_recordsCalls : ∃ t g, shopTracer.trace? 3 "shop" "main" = some (.ok t) ∧
    t.graph shopOptions = .ok g ∧ ∃ assigned, g.RecordsCalls shopOptions t assigned := by
  obtain ⟨t, g, ht, hg, -⟩ := shop_drawn
  exact ⟨t, g, ht, hg, Tracer.graph_recordsCalls ht hg⟩

end ServiceTrace
