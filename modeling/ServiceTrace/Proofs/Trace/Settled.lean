import ServiceTrace.Proofs.Trace.Termination

/-!
# `ServiceTrace.Proofs.Trace.Settled` — modules that are missing from a trace

A trace lists the modules that it has read. A module that it does not list may have no source, or nothing may
have asked for it: modules are read when a call first leads there, and a trace does not say which were asked
for. Readers of a trace still take "not listed" for "not to be read".

For the modules that calls of the trace refer to they are right. Following a call through an import asks for
its module, which is *settled* from then on, read or given up for good (`Exploration.Settled`). In the end
every unit has been visited, so whatever its calls refer to is settled.

* `Tracer.isSome_module?_iff` — a module that a call of a finished trace refers to is listed exactly when it
  has a source.
-/

namespace ServiceTrace

namespace Exploration

variable {tracer : Tracer} {entry module : String} {s : Exploration} {name : String} {hit : Qualified}

/-- A module has been asked for: it was read, or it was given up. -/
def Settled (s : Exploration) (name : String) : Prop :=
  (moduleIn? s.modules name).isSome = true ∨ name ∈ s.unavailable

/-! ## What is settled stays settled -/

theorem Settled.load (h : s.Settled name) (other : String) : (s.load tracer other).Settled name := by
  have hgiveUp : ∀ requested, ({ s.giveUp other with requested := requested } : Exploration).Settled name :=
    fun _ => h.imp_right (List.mem_cons_of_mem other)
  unfold Exploration.load
  split
  · exact h
  · split
    · exact hgiveUp s.requested
    · split
      · exact hgiveUp s.requested
      · split
        · exact hgiveUp _
        · refine h.imp_left fun hknown => ?_
          rw [moduleIn?_append, Option.isSome_or, hknown, Bool.true_or]

theorem Settled.update (h : s.Settled name) (other : String) {change : TracedModule → TracedModule}
    (hname : ∀ m, (change m).name = m.name) : (s.update other change).Settled name := by
  refine h.imp_left fun hknown => ?_
  rw [Exploration.update, moduleIn?_updateModule hname, Option.isSome_map]
  exact hknown

theorem Settled.follow (h : s.Settled name) (module : String) (site : CallSite) :
    (s.follow tracer module site).Settled name :=
  follow_preserves (P := fun s => s.Settled name) (fun _ other h => h.load other)
    (fun _ other _ hname h => h.update other hname) (fun _ _ _ h => h) h module site

theorem Settled.foldl_follow (h : s.Settled name) (module : String) (sites : List CallSite) :
    (sites.foldl (Exploration.follow tracer module) s).Settled name := by
  induction sites generalizing s with
  | nil => exact h
  | cons site sites ih => exact ih (h.follow module site)

theorem Settled.visit (h : s.Settled name) (u : FunctionUnit) : (s.visit tracer u).Settled name := by
  have hcount : Settled { s with visited := s.visited + 1 } name := h
  exact hcount.foldl_follow u.module (sitesOf s.modules u)

/-- A settled module was read exactly when it has a source. -/
theorem Settled.isSome_iff (h : s.Settled name) (hv : s.Valid tracer entry) :
    (moduleIn? s.modules name).isSome = true ↔ (tracer.source? entry name).isSome = true := by
  cases hm : moduleIn? s.modules name with
  | some m =>
    obtain ⟨src, hsrc, -⟩ := hv.source_of_moduleIn? hm
    simp [hsrc]
  | none =>
    have hgone : name ∈ s.unavailable := h.resolve_left (by simp [hm])
    simp [hv.unavailable name hgone]

/-! ## What settles a module -/

theorem settled_load (s : Exploration) (name : String) : (s.load tracer name).Settled name := by
  unfold Exploration.load
  split
  · rename_i hset
    simpa [Settled] using hset
  · split
    · exact .inr List.mem_cons_self
    · split
      · exact .inr List.mem_cons_self
      · split
        · exact .inr List.mem_cons_self
        · refine .inl ?_
          rw [moduleIn?_append, Option.isSome_or]
          simp [Tracer.readModule]

/-- Asking for a unit settles its module. -/
theorem Valid.settled_unitFor (hv : s.Valid tracer entry) (module name : String) :
    (s.unitFor tracer module name).1.Settled module := by
  rcases unitFor_cases tracer s module name with
    ⟨id, hid, h⟩ | ⟨-, -, h⟩ | ⟨-, m, d, hm, -, h⟩
  · -- a unit lies in a module that was read
    rw [h]
    obtain ⟨u, hfind, -⟩ := Option.map_eq_some_iff.mp hid
    have hkey : u.module = module ∧ u.name = name := by simpa using List.find?_some hfind
    exact .inl (hkey.1 ▸ hv.known u (List.mem_of_find?_eq_some hfind))
  · rw [h]
    exact settled_load s module
  · rw [h]
    exact .inl (Option.isSome_of_eq_some hm)

/-- Following a call through an import settles the module that it refers to. -/
theorem Valid.settled_follow (hv : s.Valid tracer entry) (module : String) {site : CallSite}
    (htarget : site.target = .imported hit) : (s.follow tracer module site).Settled hit.module := by
  have hunit := (Grows.mark hv module hit).valid.settled_unitFor hit.module hit.name
  unfold Exploration.follow
  rw [htarget]
  cases hres : (s.mark module hit).unitFor tracer hit.module hit.name with
  | mk s' answer =>
    rw [hres] at hunit
    simp only [hres]
    cases answer with
    | none => exact hunit
    | some id =>
      have hreference : (s'.reference hit.module hit.name).Settled hit.module :=
        hunit.update hit.module fun _ => rfl
      cases site.call.func.targetName? with
      | none => exact hreference
      | some called => exact hreference.update module fun _ => rfl

theorem Valid.settled_foldl (hv : s.Valid tracer entry) (module : String) {sites : List CallSite}
    {site : CallSite} (hsite : site ∈ sites) (htarget : site.target = .imported hit) :
    (sites.foldl (Exploration.follow tracer module) s).Settled hit.module := by
  induction sites generalizing s with
  | nil => exact absurd hsite List.not_mem_nil
  | cons first sites ih =>
    rcases List.mem_cons.mp hsite with rfl | hsite
    · exact (hv.settled_follow module htarget).foldl_follow module sites
    · exact ih (hv.follow module first).valid hsite

/-! ## The whole exploration -/

/-- The modules that calls of visited units refer to are settled. -/
def ImportsSettled (s : Exploration) : Prop :=
  ∀ i u, i < s.visited → s.units[i]? = some u → ∀ site ∈ sitesOf s.modules u, ∀ hit,
    site.target = .imported hit → s.Settled hit.module

theorem ImportsSettled.visit (h : s.ImportsSettled) (hv : s.Valid tracer entry) {u : FunctionUnit}
    (hu : s.units[s.visited]? = some u) : (s.visit tracer u).ImportsSettled := by
  have hgrow := hv.visit hu
  have hvisited : (s.visit tracer u).visited = s.visited + 1 := hgrow.visited
  have hlen : s.visited < s.units.length := (List.getElem?_eq_some_iff.mp hu).1
  intro i v hi hv' site hsite hit htarget
  rw [hvisited] at hi
  have hlt : i < s.units.length := by omega
  have hold : s.units[i]? = some v := hgrow.getElem?_of_lt hlt hv'
  rw [← hv.sitesOf_congr hgrow.valid hold hv'] at hsite
  rcases Nat.lt_succ_iff_lt_or_eq.mp hi with hi | rfl
  · exact (h i v hi hold site hsite hit htarget).visit u
  · obtain rfl : u = v := Option.some.inj (hu.symm.trans hold)
    have hcount : Valid tracer entry { s with visited := s.visited + 1 } :=
      ⟨hv.reads, hv.entryKnown, hv.unavailable, hv.units, hv.single, hv.known⟩
    exact hcount.settled_foldl u.module hsite htarget

end Exploration

/-- **A module that a call of a trace refers to is listed exactly when it has a source.** -/
theorem Tracer.isSome_module?_iff {tracer : Tracer} {fuel : Nat} {module function : String} {t : Trace}
    (h : tracer.trace? fuel module function = some (.ok t)) {u : FunctionUnit} (hu : u ∈ t.units)
    {site : CallSite} (hsite : site ∈ sitesOf t.modules u) {hit : Qualified}
    (htarget : site.target = .imported hit) :
    (t.module? hit.module).isSome = true ↔ (tracer.source? module hit.module).isSome = true := by
  have henter : ∀ s id, tracer.enter module function = .ok (s, id) → s.ImportsSettled := by
    intro s id hs i v hi
    obtain ⟨src, hsrc, hunit⟩ := Exploration.source_of_enter hs
    obtain ⟨hgrow, -⟩ := (Exploration.valid_ofEntry hsrc).unitFor module function
    rw [hunit] at hgrow
    have hzero : s.visited = 0 := hgrow.visited
    omega
  obtain ⟨s, hp, hsettled, hunits, hmodules, hend⟩ :=
    Exploration.exists_finished henter (fun s u hv hs hu => hs.visit hv hu) h
  obtain ⟨i, hi⟩ := List.mem_iff_getElem?.mp (hunits ▸ hu)
  rw [← hmodules] at hsite
  rw [Trace.module?, ← hmodules]
  exact (hsettled i u (Exploration.lt_visited hend hi) hi site hsite hit htarget).isSome_iff hp.valid

end ServiceTrace
