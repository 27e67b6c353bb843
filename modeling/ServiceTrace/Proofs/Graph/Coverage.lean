import ServiceTrace.Proofs.Graph.WellFormed

/-!
# `ServiceTrace.Proofs.Graph.Coverage` — the graph covers the trace

The units of a trace were found by one traversal, breadth first and while modules were still being read;
the graph is drawn by another one, depth first and from the trace alone. They meet the same calls and
understand them alike: every unit is drawn, and strictness sees every call of every unit.

* `CallGraph.Covers` — the units are the first nodes, and nodes are numbered without gaps.
* **`Tracer.policies_agree`** — drawing fails only under the strict policy, exactly when a unit has a
  callee of no known shape and at the first one in depth-first order; apart from that the policies draw
  the same graph.
-/

namespace ServiceTrace

/-- Every unit is the node of its number, and the numbers of nodes have no gap behind those. -/
structure CallGraph.Covers (t : Trace) (g : CallGraph) : Prop where
  units : ∀ (i : Nat) (u : FunctionUnit), t.units[i]? = some u → ∃ n, g.node? i = some n ∧ n.Shows u
  numbered : g.nodes.map (·.id) = List.range g.nodes.length
  room : t.units.length ≤ g.nodes.length

namespace Trace

variable {t : Trace}

/-- Some unit has a call whose callee is neither a name nor an attribute. -/
def HasUnrecognized (t : Trace) : Prop :=
  ∃ u ∈ t.units, ∃ m, t.module? u.module = some m ∧
    ∃ c ∈ Stmt.callsIn u.body, (m.scope u.localImports).classify c = .unrecognized

/-- The two policies draw a trace alike. -/
structure PoliciesAgree (t : Trace) (external : Bool) (samePath : Path → Path → Bool)
    (g : CallGraph) : Prop where
  lenient : t.graph ⟨.ignore, external, samePath⟩ = .ok g
  covers : g.Covers t
  fails_iff : (∃ e, t.graph ⟨.error, external, samePath⟩ = .error e) ↔ t.HasUnrecognized
  ordered : ∃! order, t.DepthFirstOrder order
  strict : ∀ order, t.DepthFirstOrder order →
    t.graph ⟨.error, external, samePath⟩ =
      match order.find? fun site => site.target = .unrecognized with
      | some site => .error site.unrecognized
      | none => .ok g

/-! ## Both policies -/

theorem graph_ignore (t : Trace) (external : Bool) (samePath : Path → Path → Bool) :
    t.graph ⟨.ignore, external, samePath⟩ = .ok (t.drawn ⟨.ignore, external, samePath⟩).graph := by
  have hnone : t.sites.find? (fun site => Policy.ignore = .error ∧ site.target = .unrecognized) =
      none := List.find?_eq_none.mpr fun _ _ => by simp
  unfold graph
  simp only [hnone]
  rfl

/-- Recording a site does not look at the policy. -/
theorem record_policy (p q : Policy) (external : Bool) (samePath : Path → Path → Bool) (t : Trace)
    (d : Draft) (site : CallSite) :
    d.record ⟨p, external, samePath⟩ t site = d.record ⟨q, external, samePath⟩ t site := by
  have hserves : Draft.serves ⟨p, external, samePath⟩ = Draft.serves ⟨q, external, samePath⟩ := rfl
  have hroute : ∀ routing, d.routeTarget ⟨p, external, samePath⟩ t routing =
      d.routeTarget ⟨q, external, samePath⟩ t routing := by
    intro routing
    unfold Draft.routeTarget Draft.matchedTarget
    rw [hserves]
  unfold Draft.record
  simp only [hroute]

/-- Apart from where it fails, drawing does not look at the policy. -/
theorem graph_error (t : Trace) (external : Bool) (samePath : Path → Path → Bool) :
    t.graph ⟨.error, external, samePath⟩ =
      match t.sites.find? fun site => site.target = .unrecognized with
      | some site => .error site.unrecognized
      | none => .ok (t.drawn ⟨.ignore, external, samePath⟩).graph := by
  have hrecord : Draft.record ⟨.error, external, samePath⟩ t =
      Draft.record ⟨.ignore, external, samePath⟩ t :=
    funext fun d => funext fun site => record_policy _ _ external samePath t d site
  have hfind : t.sites.find? (fun site => Policy.error = .error ∧ site.target = .unrecognized) =
      t.sites.find? (fun site => site.target = .unrecognized) := by
    congr
    funext site
    simp
  unfold graph
  dsimp only
  rw [hrecord, hfind]
  rfl

/-- Strictness sees the calls of all units. -/
theorem Coherent.find?_unrecognized_iff (ht : t.Coherent) :
    (∃ site, t.sites.find? (fun site => site.target = .unrecognized) = some site) ↔
      t.HasUnrecognized := by
  rw [← Option.isSome_iff_exists, List.find?_isSome]
  constructor
  · rintro ⟨site, hsite, htarget⟩
    obtain ⟨i, hi⟩ := ht.mem_sites.mp hsite
    obtain ⟨hu, -⟩ := ht.unit_of_mem_sitesAt hi
    obtain ⟨m, hm, heq⟩ := ht.sitesAt_eq hu
    rw [heq] at hi
    obtain ⟨c, hc, hsite⟩ := List.mem_map.mp hi
    refine ⟨site.unit, List.mem_of_getElem? hu, m, hm, c, hc, ?_⟩
    rw [← hsite] at htarget
    exact of_decide_eq_true htarget
  · rintro ⟨u, hu, m, hm, c, hc, htarget⟩
    obtain ⟨i, hi⟩ := List.mem_iff_getElem?.mp hu
    obtain ⟨m', hm', heq⟩ := ht.sitesAt_eq hi
    obtain rfl : m' = m := Option.some.inj (hm'.symm.trans hm)
    refine ⟨⟨u, c, (m'.scope u.localImports).classify c⟩, ?_, decide_eq_true htarget⟩
    exact ht.mem_sites.mpr ⟨i, heq ▸ List.mem_map_of_mem hc⟩

end Trace

/-! ## Every unit is drawn -/

namespace Draft

variable {t : Trace} {d : Draft}

/-- A unit that is reached has its node, since a site leads to it that has been met. -/
theorem Drawn.hasNode_unit (h : Drawn t t.sites d) (ht : t.Coherent) {i : Nat}
    (hi : i < t.units.length) : d.hasNode i = true := by
  have hreach := ht.reached i hi
  clear hi
  induction hreach with
  | refl => exact h.entry
  | tail _ hcall _ =>
    obtain ⟨site, hsite, hcallee⟩ := hcall
    exact h.led site (ht.mem_sites.mpr ⟨_, hsite⟩) _ hcallee

/-- Nodes in order with all numbers below a bound are numbered without gaps. -/
theorem Tables.ids_eq_range (h : d.Tables t) (hunits : ∀ i < t.units.length, d.hasNode i = true) :
    d.nodes.map (·.id) = List.range d.nextId := by
  have hmem : ∀ i, i ∈ d.nodes.map (·.id) ↔ i ∈ List.range d.nextId := by
    intro i
    rw [← hasNode_iff_mem, List.mem_range]
    refine ⟨h.bounded i, fun hlt => ?_⟩
    by_cases hi : i < t.units.length
    · exact hunits i hi
    · exact h.filled i (Nat.le_of_not_lt hi) hlt
  have hnodup : (d.nodes.map (·.id)).Nodup := h.sorted.imp Nat.ne_of_lt
  have hperm := (List.perm_ext_iff_of_nodup hnodup List.nodup_range).mpr hmem
  refine hperm.eq_of_pairwise ?_ h.sorted List.pairwise_lt_range
  exact fun i j _ _ hij hji => absurd hij (Nat.lt_asymm hji)

/-- The numbers of nodes have no gap, so the next number says how many nodes there are. -/
theorem Drawn.length_nodes (h : Drawn t t.sites d) (ht : t.Coherent) :
    d.nodes.length = d.nextId := by
  have hids := h.tables.ids_eq_range fun i hi => h.hasNode_unit ht hi
  rw [← List.length_map (·.id), hids, List.length_range]

theorem Drawn.covers (h : Drawn t t.sites d) (ht : t.Coherent) : d.graph.Covers t := by
  have hids := h.tables.ids_eq_range fun i hi => h.hasNode_unit ht hi
  have hlength := h.length_nodes ht
  refine ⟨fun i u hu => ?_, ?_, ?_⟩
  · obtain ⟨n, hn⟩ := hasNode_iff.mp (h.hasNode_unit ht (List.getElem?_eq_some_iff.mp hu).1)
    exact ⟨n, hn, h.tables.units i u n hu hn⟩
  · show d.nodes.map (·.id) = List.range d.nodes.length
    rw [hids, hlength]
  · show t.units.length ≤ d.nodes.length
    rw [hlength]
    exact h.tables.room

end Draft

/-- **The tracer and the graph agree**, whatever the trace: every unit is drawn, and drawing fails only
    under the strict policy, at the first callee of no known shape. -/
theorem Tracer.policies_agree {tracer : Tracer} {fuel : Nat} {module function : String} {t : Trace}
    (h : tracer.trace? fuel module function = some (.ok t)) (external : Bool)
    (samePath : Path → Path → Bool) : ∃ g, t.PoliciesAgree external samePath g := by
  have ht := tracer.trace?_coherent h
  have hdrawn := Draft.Drawn.drawn ⟨.ignore, external, samePath⟩ ht
  refine ⟨(t.drawn ⟨.ignore, external, samePath⟩).graph, t.graph_ignore external samePath,
    hdrawn.covers ht, ?_, ⟨t.sites, ht.sites_depthFirst, fun order horder => ht.eq_sites horder⟩,
    fun order horder => ?_⟩
  · rw [t.graph_error, ← ht.find?_unrecognized_iff]
    cases t.sites.find? fun site => site.target = .unrecognized with
    | none => simp
    | some site => exact ⟨fun _ => ⟨site, rfl⟩, fun _ => ⟨site.unrecognized, rfl⟩⟩
  · rw [ht.eq_sites horder]
    exact t.graph_error external samePath

/-- The shop is drawn the same way under both policies. -/
theorem shop_policies_agree : ∃ t g, shopTracer.trace? 3 "shop" "main" = some (.ok t) ∧
    t.PoliciesAgree shopOptions.external shopOptions.samePath g := by
  obtain ⟨t, h, -⟩ := shop_traced
  obtain ⟨g, hg⟩ := Tracer.policies_agree h shopOptions.external shopOptions.samePath
  exact ⟨t, g, h, hg⟩

end ServiceTrace
