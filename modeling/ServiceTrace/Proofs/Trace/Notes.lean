import Mathlib.Data.List.Sort
import ServiceTrace.Proofs.Trace.Closure

/-!
# `ServiceTrace.Proofs.Trace.Notes` — the names that a trace notes

While a trace looks for units, it takes notes: a module *tracks* the names of the calls in its units that
lead to a unit or to a route, and it keeps the names that are *referenced* in it. Both are written down when
a call is followed, at a time when the units that it leads to may be new and others are still missing.

* `Exploration.Orderly` — no module occurs twice, and references are declared names.
* `Exploration.Notes` — what a step tracks; steps compose (`Notes.trans`).
* `Exploration.Noted` — on the way, the notes are about the units visited so far (`Noted.visit`).
* `Trace.Noted`, **`Tracer.trace?_noted`** — at the end, they can be read off the trace itself.

What carries the notes from the way to the end is that a call is tracked exactly when it refers to a declared
function (`CallSite.Counts`): this is a question about the sources, which has the same answer at any time.
-/

namespace ServiceTrace

/-- A set does not change when a member is inserted. -/
theorem NameSet.insert_of_mem {s : NameSet} {name : String} (h : name ∈ s) : s.insert name = s := by
  have hnames : (s.insert name).names = s.names := by
    apply (s.insert name).sorted.eq_of_mem_iff s.sorted
    intro other
    refine NameSet.mem_insert.trans ⟨?_, .inr⟩
    rintro (rfl | hother)
    · exact h
    · exact hother
  cases hs : s.insert name with
  | mk names sorted =>
    cases s
    rw [hs] at hnames
    subst hnames
    rfl

/-- A call that is tracked: a routing call, or one that refers to a declared function. -/
def CallSite.Counts (tracer : Tracer) (entry module : String) (site : CallSite) : Prop :=
  site.target = .route ∨
    ∃ f, site.target.function? module = some f ∧ tracer.Declares entry f

namespace Exploration

/-- A name is tracked in a module. -/
def Tracked (s : Exploration) (module name : String) : Prop :=
  ∃ m, moduleIn? s.modules module = some m ∧ name ∈ m.tracked

/-- No module occurs twice, and the names referenced in a module are those that it declares. -/
structure Orderly (s : Exploration) : Prop where
  distinct : (s.modules.map TracedModule.name).Nodup
  references : ∀ m ∈ s.modules, m.references = m.declared

/-- `s'` comes from `s` by tracking the names in `added`, and it is in order. -/
structure Notes (added : String → String → Prop) (s s' : Exploration) : Prop where
  orderly : s'.Orderly
  tracked : ∀ module name, s'.Tracked module name ↔ s.Tracked module name ∨ added module name

variable {tracer : Tracer} {entry : String} {s s' s'' : Exploration}

theorem Notes.refl (ho : s.Orderly) : Notes (fun _ _ => False) s s :=
  ⟨ho, fun _ _ => by rw [or_false]⟩

theorem Notes.trans {p q : String → String → Prop} (h : Notes p s s') (h' : Notes q s' s'') :
    Notes (fun module name => p module name ∨ q module name) s s'' where
  orderly := h'.orderly
  tracked module name := by rw [h'.tracked, h.tracked, or_assoc]

theorem Notes.congr {p q : String → String → Prop} (h : Notes p s s')
    (hpq : ∀ module name, p module name ↔ q module name) : Notes q s s' where
  orderly := h.orderly
  tracked module name := by rw [h.tracked, hpq]

/-! ## Notes about calls -/

/-- A change of a module keeps the order when it keeps the name, and the references of the modules that it
    concerns. -/
theorem Orderly.update (ho : s.Orderly) {name : String} {change : TracedModule → TracedModule}
    (hname : ∀ m, (change m).name = m.name)
    (hreferences : ∀ m ∈ s.modules, m.name = name → (change m).references = (change m).declared) :
    (s.update name change).Orderly := by
  have hnames : (s.update name change).modules.map TracedModule.name =
      s.modules.map TracedModule.name := by
    show (s.modules.map _).map _ = _
    rw [List.map_map]
    apply List.map_congr_left
    intro m _
    by_cases h : m.name = name <;> simp [h, hname]
  constructor
  · rw [hnames]
    exact ho.distinct
  · intro m hm
    obtain ⟨m₀, hm₀, rfl⟩ := List.mem_map.mp hm
    by_cases h : m₀.name = name
    · rw [if_pos h]
      exact hreferences m₀ hm₀ h
    · rw [if_neg h]
      exact ho.references m₀ hm₀

/-- What is tracked after a change of a module. -/
theorem tracked_update {change : TracedModule → TracedModule} (hname : ∀ m, (change m).name = m.name)
    (name module other : String) :
    (s.update name change).Tracked module other ↔
      ∃ m, moduleIn? s.modules module = some m ∧
        other ∈ (if m.name = name then change m else m).tracked := by
  unfold Tracked Exploration.update
  rw [moduleIn?_updateModule hname]
  simp only [Option.map_eq_some_iff]
  constructor
  · rintro ⟨_, ⟨m, hm, rfl⟩, hother⟩
    exact ⟨m, hm, hother⟩
  · rintro ⟨m, hm, hother⟩
    exact ⟨_, ⟨m, hm, rfl⟩, hother⟩

/-- A change that leaves the tracked names alone tracks nothing. -/
theorem Notes.update (ho : s.Orderly) {name : String} {change : TracedModule → TracedModule}
    (hname : ∀ m, (change m).name = m.name) (htracked : ∀ m, (change m).tracked = m.tracked)
    (hreferences : ∀ m ∈ s.modules, m.name = name → (change m).references = (change m).declared) :
    Notes (fun _ _ => False) s (s.update name change) := by
  constructor
  · exact ho.update hname hreferences
  · intro module other
    rw [tracked_update hname, or_false]
    unfold Tracked
    apply exists_congr
    intro m
    by_cases h : m.name = name
    · rw [if_pos h, htracked]
    · rw [if_neg h]

theorem Notes.mark (ho : s.Orderly) (module : String) (hit : Qualified) :
    Notes (fun _ _ => False) s (s.mark module hit) :=
  .update ho (fun _ => rfl) (fun _ => rfl) fun m hm _ => ho.references m hm

/-- A declared function is among the declared names of its module. -/
theorem Valid.mem_declared (hv : s.Valid tracer entry) {f : FunctionKey}
    (hdecl : tracer.Declares entry f) {m : TracedModule} (hm : m ∈ s.modules) (hname : m.name = f.1) :
    f.2 ∈ m.declared := by
  obtain ⟨src, d, hsrc, hd⟩ := hdecl
  obtain ⟨src', hsrc', hr⟩ := hv.reads m hm
  rw [hname] at hsrc'
  obtain rfl : src = src' := Option.some.inj (hsrc.symm.trans hsrc')
  rw [hr.declared, NameSet.mem_ofList, List.mem_map]
  exact ⟨d, List.mem_of_find?_eq_some hd, by simpa using List.find?_some hd⟩

/-- A reference to a declared function is there already. -/
theorem Notes.reference (ho : s.Orderly) (hv : s.Valid tracer entry) {module name : String}
    (hdecl : tracer.Declares entry (module, name)) :
    Notes (fun _ _ => False) s (s.reference module name) := by
  refine .update ho (fun _ => rfl) (fun _ => rfl) ?_
  intro m hm hname
  have hmem : name ∈ m.declared := hv.mem_declared hdecl hm hname
  show m.references.insert name = m.declared
  rw [ho.references m hm, NameSet.insert_of_mem hmem]

/-- A call in a known module is tracked under its name, when it has one. -/
theorem Notes.track (ho : s.Orderly) {module : String}
    (hknown : (moduleIn? s.modules module).isSome = true) (called : Option String) :
    Notes (fun other name => other = module ∧ called = some name) s (s.track module called) := by
  cases called with
  | none => exact (Notes.refl ho).congr fun _ _ => by simp
  | some called =>
    refine ⟨ho.update (fun _ => rfl) fun m hm _ => ho.references m hm, fun other name => ?_⟩
    obtain ⟨home, hhome⟩ := Option.isSome_iff_exists.mp hknown
    have hname : ∀ m : TracedModule, { m with tracked := m.tracked.insert called }.name = m.name :=
      fun _ => rfl
    refine (tracked_update hname module other name).trans ?_
    constructor
    · rintro ⟨m, hm, hmem⟩
      by_cases h : m.name = module
      · rw [if_pos h] at hmem
        rcases NameSet.mem_insert.mp hmem with rfl | hmem
        · exact .inr ⟨(name_of_moduleIn? hm).symm.trans h, rfl⟩
        · exact .inl ⟨m, hm, hmem⟩
      · rw [if_neg h] at hmem
        exact .inl ⟨m, hm, hmem⟩
    · rintro (⟨m, hm, hmem⟩ | ⟨rfl, hcalled⟩)
      · refine ⟨m, hm, ?_⟩
        by_cases h : m.name = module
        · rw [if_pos h]
          exact NameSet.mem_insert.mpr (.inr hmem)
        · rw [if_neg h]
          exact hmem
      · refine ⟨home, hhome, ?_⟩
        rw [if_pos (name_of_moduleIn? hhome)]
        exact NameSet.mem_insert.mpr (.inl (Option.some.inj hcalled).symm)

/-! ## Loading modules and asking for units -/

/-- A state with the same modules has the same notes. -/
theorem Notes.of_modules_eq (ho : s.Orderly) (h : s'.modules = s.modules) :
    Notes (fun _ _ => False) s s' := by
  obtain ⟨hdistinct, hreferences⟩ := ho
  refine ⟨⟨?_, ?_⟩, fun module name => ?_⟩
  · rw [h]
    exact hdistinct
  · rw [h]
    exact hreferences
  · unfold Tracked
    rw [h, or_false]

/-- A module that has just been read tracks nothing, and it is referenced under its declared names. -/
theorem Notes.load (ho : s.Orderly) (hv : s.Valid tracer entry) (name : String) :
    Notes (fun _ _ => False) s (s.load tracer name) := by
  rcases load_cases tracer hv.entryKnown name with
    ⟨h, -⟩ | ⟨-, requested, h⟩ | ⟨src, -, hnew, h⟩
  · rw [h]
    exact .refl ho
  · rw [h]
    exact .of_modules_eq ho rfl
  · rw [h]
    refine ⟨⟨?_, ?_⟩, fun module other => ?_⟩
    · -- a module of that name would have been found
      have hfresh : name ∉ s.modules.map TracedModule.name := by
        intro hmem
        obtain ⟨m, hm, hname⟩ := List.mem_map.mp hmem
        exact absurd (decide_eq_true hname) (List.find?_eq_none.mp hnew m hm)
      rw [List.map_append, List.map_singleton]
      exact ho.distinct.append (List.nodup_singleton _) (by simpa [Tracer.readModule] using hfresh)
    · intro m hm
      rcases List.mem_append.mp hm with hm | hm
      · exact ho.references m hm
      · obtain rfl := List.mem_singleton.mp hm
        rfl
    · unfold Tracked
      rw [or_false]
      simp only [moduleIn?_append, Option.or_eq_some_iff]
      constructor
      · rintro ⟨m, hm | ⟨-, hm⟩, hother⟩
        · exact ⟨m, hm, hother⟩
        · obtain ⟨-, hm⟩ := Option.ite_none_right_eq_some.mp hm
          obtain rfl := Option.some.inj hm
          exact absurd hother NameSet.not_mem_empty
      · rintro ⟨m, hm, hother⟩
        exact ⟨m, .inl hm, hother⟩

theorem Notes.unitFor (ho : s.Orderly) (hv : s.Valid tracer entry) (module name : String) :
    Notes (fun _ _ => False) s (s.unitFor tracer module name).1 := by
  have hload := Notes.load ho hv module
  rcases unitFor_cases tracer s module name with
    ⟨id, -, h⟩ | ⟨-, -, h⟩ | ⟨-, m, d, -, -, h⟩
  · rw [h]
    exact .refl ho
  · rw [h]
    exact hload
  · rw [h]
    -- the unit is added to the state after loading, with the modules as they are then
    refine (hload.trans (q := fun _ _ => False) ?_).congr fun _ _ => by rw [false_or]
    exact .of_modules_eq hload.orderly rfl

/-! ## Following calls -/

/-- Following a call of a unit tracks it when it counts. A call of a declared function is one: the scope of
    the unit says so. -/
theorem Notes.follow (ho : s.Orderly) (hv : s.Valid tracer entry) {u : FunctionUnit} (hu : u ∈ s.units)
    {site : CallSite}
    (hdecl : ∀ name, site.target = .declared name → tracer.Declares entry (u.module, name)) :
    Notes (fun module name => module = u.module ∧ site.call.func.targetName? = some name ∧
      site.Counts tracer entry u.module) s (s.follow tracer u.module site) := by
  unfold Exploration.follow CallSite.Counts
  cases htarget : site.target with
  | route =>
    refine (Notes.track ho (hv.known u hu) _).congr fun _ _ => ?_
    simp
  | unknown | unrecognized =>
    refine (Notes.refl ho).congr fun _ _ => ?_
    simp [CallTarget.function?]
  | declared name =>
    have hdecl := hdecl name htarget
    have hnote := Grows.reference hv u.module name
    obtain ⟨hask, hanswer⟩ := hnote.valid.unitFor u.module name
    have hreference := Notes.reference ho hv hdecl
    have hunit := Notes.unitFor hreference.orderly hnote.valid u.module name
    obtain ⟨id, hid⟩ := Option.isSome_iff_exists.mp (hanswer.mpr hdecl)
    cases hres : (s.reference u.module name).unitFor tracer u.module name with
    | mk s' answer =>
      rw [hres] at hask hunit hid
      simp only [hres]
      obtain rfl : answer = some id := hid
      have hknown := hask.valid.known u (hask.units.subset (hnote.units.subset hu))
      have htrack := Notes.track hunit.orderly hknown site.call.func.targetName?
      refine ((hreference.trans hunit).trans htrack).congr fun _ _ => ?_
      simp [CallTarget.function?, hdecl]
  | imported hit =>
    have hnote := Grows.mark hv u.module hit
    obtain ⟨hask, hanswer⟩ := hnote.valid.unitFor hit.module hit.name
    have hmark := Notes.mark ho u.module hit
    have hunit := Notes.unitFor hmark.orderly hnote.valid hit.module hit.name
    cases hres : (s.mark u.module hit).unitFor tracer hit.module hit.name with
    | mk s' answer =>
      rw [hres] at hask hunit hanswer
      simp only [hres]
      cases answer with
      | none =>
        have hnot : ¬ tracer.Declares entry (hit.module, hit.name) := by simpa using hanswer
        refine (hmark.trans hunit).congr fun _ _ => ?_
        simp [CallTarget.function?, hnot]
      | some id =>
        have hdecl : tracer.Declares entry (hit.module, hit.name) := by simpa using hanswer
        have hreference := Notes.reference hunit.orderly hask.valid hdecl
        have hgrow := Grows.reference hask.valid hit.module hit.name
        have hknown := hgrow.valid.known u
          (hgrow.units.subset (hask.units.subset (hnote.units.subset hu)))
        have htrack := Notes.track hreference.orderly hknown site.call.func.targetName?
        refine (((hmark.trans hunit).trans hreference).trans htrack).congr fun _ _ => ?_
        simp [CallTarget.function?, hdecl]

theorem Notes.foldl_follow (ho : s.Orderly) (hv : s.Valid tracer entry) {u : FunctionUnit}
    (hu : u ∈ s.units) (sites : List CallSite)
    (hdecl : ∀ site ∈ sites, ∀ name, site.target = .declared name →
      tracer.Declares entry (u.module, name)) :
    Notes (fun module name => module = u.module ∧ ∃ site ∈ sites,
      site.call.func.targetName? = some name ∧ site.Counts tracer entry u.module) s
      (sites.foldl (Exploration.follow tracer u.module) s) := by
  induction sites generalizing s with
  | nil => exact (Notes.refl ho).congr fun _ _ => by simp
  | cons site sites ih =>
    have hgrow := hv.follow u.module site
    have hfirst := Notes.follow ho hv hu (hdecl site List.mem_cons_self)
    have hrest := ih hfirst.orderly hgrow.valid (hgrow.units.subset hu)
      fun other hother => hdecl other (List.mem_cons_of_mem site hother)
    refine (hfirst.trans hrest).congr fun _ _ => ?_
    rw [← and_or_left]
    simp

/-! ## Visiting units -/

/-- A unit whose call refers to a declared name is in the module that declares it. -/
theorem Valid.declares_of_mem_sitesOf (hv : s.Valid tracer entry) {i : Nat} {u : FunctionUnit}
    (hu : s.units[i]? = some u) {site : CallSite} (hsite : site ∈ sitesOf s.modules u) {name : String}
    (htarget : site.target = .declared name) : tracer.Declares entry (u.module, name) := by
  obtain ⟨src, d, hsrc, hd, -⟩ := hv.units i u hu
  rw [hv.sitesOf_eq hu hsrc hd] at hsite
  obtain ⟨c, -, rfl⟩ := List.mem_map.mp hsite
  obtain ⟨called, hcalled, hname⟩ := List.mem_map.mp
    (NameSet.mem_ofList.mp (Scope.mem_declared_of_classify htarget))
  have hsome : (Stmt.functionIn? src.body name).isSome = true :=
    List.find?_isSome.mpr ⟨called, hcalled, decide_eq_true hname⟩
  obtain ⟨found, hfound⟩ := Option.isSome_iff_exists.mp hsome
  exact ⟨src, found, hsrc, hfound⟩

/-- Visiting a unit tracks the calls in it that count. -/
theorem Notes.visit (ho : s.Orderly) (hv : s.Valid tracer entry) {i : Nat} {u : FunctionUnit}
    (hu : s.units[i]? = some u) :
    Notes (fun module name => module = u.module ∧ ∃ site ∈ sitesOf s.modules u,
      site.call.func.targetName? = some name ∧ site.Counts tracer entry u.module) s
      (s.visit tracer u) := by
  have hv' : Valid tracer entry { s with visited := s.visited + 1 } :=
    ⟨hv.reads, hv.entryKnown, hv.unavailable, hv.units, hv.single, hv.known⟩
  have hcount : Notes (fun _ _ => False) s { s with visited := s.visited + 1 } :=
    .of_modules_eq ho rfl
  have hfollow := Notes.foldl_follow hcount.orderly hv' (List.mem_of_getElem? hu)
    (sitesOf s.modules u) fun site hsite name => hv.declares_of_mem_sitesOf hu hsite
  exact (hcount.trans hfollow).congr fun _ _ => by rw [false_or]

/-- On the way, the notes are about the units that have been visited. -/
structure Noted (tracer : Tracer) (entry : String) (s : Exploration) : Prop where
  orderly : s.Orderly
  tracked : ∀ module name, s.Tracked module name ↔
    ∃ i u, i < s.visited ∧ s.units[i]? = some u ∧ u.module = module ∧
      ∃ site ∈ sitesOf s.modules u, site.call.func.targetName? = some name ∧
        site.Counts tracer entry u.module

/-- A trace enters without notes. -/
theorem noted_of_enter {function : String} {id : Nat} (h : tracer.enter entry function = .ok (s, id)) :
    s.Noted tracer entry := by
  obtain ⟨src, hsrc, hunit⟩ := source_of_enter h
  have hv := valid_ofEntry hsrc
  have ho : (ofEntry (tracer.readModule entry src.ref src.body)).Orderly := by
    constructor
    · exact List.nodup_singleton _
    · intro m hm
      obtain rfl := List.mem_singleton.mp hm
      rfl
  obtain ⟨hgrow, -⟩ := hv.unitFor entry function
  have hnotes := Notes.unitFor ho hv entry function
  rw [hunit] at hgrow hnotes
  have hvisited : s.visited = 0 := hgrow.visited
  refine ⟨hnotes.orderly, ?_⟩
  intro module name
  rw [hnotes.tracked, hvisited]
  constructor
  · rintro (⟨m, hm, hname⟩ | himpossible)
    · obtain rfl := List.mem_singleton.mp (mem_of_moduleIn? hm)
      exact absurd hname NameSet.not_mem_empty
    · exact himpossible.elim
  · rintro ⟨i, -, hi, -⟩
    omega

/-- Visiting the next unit keeps the notes up to date. -/
theorem Noted.visit (h : s.Noted tracer entry) (hv : s.Valid tracer entry) {u : FunctionUnit}
    (hu : s.units[s.visited]? = some u) : (s.visit tracer u).Noted tracer entry := by
  have hgrow := hv.visit hu
  have hnotes := Notes.visit h.orderly hv hu
  have hvisited : (s.visit tracer u).visited = s.visited + 1 := hgrow.visited
  have hlen : s.visited < s.units.length := (List.getElem?_eq_some_iff.mp hu).1
  refine ⟨hnotes.orderly, ?_⟩
  intro module name
  rw [hnotes.tracked, h.tracked, hvisited]
  constructor
  · rintro (⟨i, v, hi, hv₀, hmodule, hsite⟩ | ⟨rfl, hsite⟩)
    · have hv₁ := hgrow.getElem? hv₀
      rw [hv.sitesOf_congr hgrow.valid hv₀ hv₁] at hsite
      exact ⟨i, v, by omega, hv₁, hmodule, hsite⟩
    · have hu₁ := hgrow.getElem? hu
      rw [hv.sitesOf_congr hgrow.valid hu hu₁] at hsite
      exact ⟨s.visited, u, by omega, hu₁, rfl, hsite⟩
  · rintro ⟨i, v, hi, hv₁, hmodule, hsite⟩
    have hlt : i < s.units.length := by omega
    have hv₀ : s.units[i]? = some v := hgrow.getElem?_of_lt hlt hv₁
    rw [← hv.sitesOf_congr hgrow.valid hv₀ hv₁] at hsite
    rcases Nat.lt_succ_iff_lt_or_eq.mp hi with hi | rfl
    · exact .inl ⟨i, v, hi, hv₀, hmodule, hsite⟩
    · obtain rfl : u = v := Option.some.inj (hu.symm.trans hv₀)
      exact .inr ⟨hmodule.symm, hsite⟩

end Exploration

/-! ## The notes of a finished trace -/

namespace Trace

/-- A call site that leads to a route or to a unit of the trace. -/
def LeadsOn (t : Trace) (site : CallSite) : Prop :=
  site.call.route.isSome = true ∨
    ∃ f i, site.target.function? site.unit.module = some f ∧ t.unitId? f.1 f.2 = some i

/-- The notes of a trace say what can be read off its units and its modules. -/
structure Noted (t : Trace) : Prop where
  /-- No module occurs twice. -/
  distinct : (t.modules.map TracedModule.name).Nodup
  /-- Exactly the names of those calls in the units of a module are tracked that lead on. -/
  tracked : ∀ module name, name ∈ t.trackedIn module ↔
    ∃ u ∈ t.units, u.module = module ∧ ∃ site ∈ sitesOf t.modules u,
      site.call.func.targetName? = some name ∧ t.LeadsOn site
  /-- Exactly the declared names of a module are referenced in it. -/
  references : ∀ m ∈ t.modules, m.references = m.declared
  /-- These are the names of its functions. -/
  declared : ∀ m ∈ t.modules, ∀ name, name ∈ m.declared ↔ ∃ d ∈ m.functions, d.name = name
  /-- No reference gets lost: where a call refers to a function of its own module, or to one that has a unit,
      the module of the function is there and keeps the name. -/
  kept : ∀ u ∈ t.units, ∀ site ∈ sitesOf t.modules u, ∀ f,
    site.target.function? u.module = some f →
    (site.target = .declared f.2 ∨ (t.unitId? f.1 f.2).isSome = true) →
    ∃ m, t.module? f.1 = some m ∧ f.2 ∈ m.references

/-- What a module of a finished trace tracks is what it tracks in the last state. -/
theorem mem_trackedIn_iff {entry : Nat} {module name : String} {s : Exploration} :
    name ∈ Trace.trackedIn ⟨entry, s.units, s.modules⟩ module ↔ s.Tracked module name := by
  unfold Trace.trackedIn Exploration.Tracked Trace.module?
  cases moduleIn? s.modules module <;> simp

end Trace

/-- Where all units have been visited, the function that a call of a unit refers to has a unit itself exactly
    when it is declared. -/
theorem Exploration.Progress.declares_iff {tracer : Tracer} {module function : String} {id : Nat}
    {s : Exploration} (hp : s.Progress tracer module function id)
    (hend : s.units[s.visited]? = none) {u : FunctionUnit} (hu : u ∈ s.units) {site : CallSite}
    (hsite : site ∈ sitesOf s.modules u) {f : FunctionKey}
    (hf : site.target.function? u.module = some f) :
    tracer.Declares module f ↔ ∃ i, unitIdIn? s.units f.1 f.2 = some i := by
  have hv := hp.valid
  have hfound : f ∈ s.functions ↔ ∃ i, unitIdIn? s.units f.1 f.2 = some i := by
    rw [← Option.isSome_iff_exists, Option.isSome_iff_ne_none, ne_eq, unitIdIn?_eq_none_iff, not_not]
    rfl
  rw [← hfound]
  constructor
  · intro hdecl
    obtain ⟨i, hi⟩ := List.mem_iff_getElem?.mp hu
    have hvisited : i < s.visited := Exploration.lt_visited hend hi
    have hleads : tracer.Leads module u.key f := (hv.mem_sitesOf hi).mp ⟨⟨site, hsite, hf⟩, hdecl⟩
    exact hp.done i u hvisited hi f hleads
  · exact hv.declares

/-- Where all units have been visited, the calls that count are those that lead on. -/
theorem Exploration.Progress.counts_iff {tracer : Tracer} {module function : String} {id : Nat}
    {s : Exploration} (hp : s.Progress tracer module function id)
    (hend : s.units[s.visited]? = none) (entry : Nat) {u : FunctionUnit} (hu : u ∈ s.units)
    {site : CallSite} (hsite : site ∈ sitesOf s.modules u) :
    site.Counts tracer module u.module ↔ Trace.LeadsOn ⟨entry, s.units, s.modules⟩ site := by
  unfold CallSite.Counts Trace.LeadsOn
  rw [route_iff_of_mem_sitesOf hsite, unit_of_mem_sitesOf hsite]
  apply or_congr_right
  apply exists_congr
  intro f
  rw [exists_and_left]
  exact and_congr_right (hp.declares_iff hend hu hsite)

/-- The module of a unit is there, and it keeps the name of the unit. -/
theorem Exploration.Valid.mem_references {tracer : Tracer} {entry : String} {s : Exploration}
    (hv : s.Valid tracer entry) (ho : s.Orderly) {f : FunctionKey} {i : Nat}
    (hi : unitIdIn? s.units f.1 f.2 = some i) :
    ∃ m, moduleIn? s.modules f.1 = some m ∧ f.2 ∈ m.references := by
  obtain ⟨v, hvi, hkey⟩ := (unitIdIn?_eq_some_iff hv.numbered hv.single).mp hi
  obtain rfl : v.key = f := hkey
  have hmem : v ∈ s.units := List.mem_of_getElem? hvi
  have hdecl : tracer.Declares entry v.key := hv.declares (List.mem_map_of_mem hmem)
  obtain ⟨m, hm⟩ := Option.isSome_iff_exists.mp (hv.known v hmem)
  have hmodule : m ∈ s.modules := mem_of_moduleIn? hm
  refine ⟨m, hm, ?_⟩
  rw [ho.references m hmodule]
  exact hv.mem_declared hdecl hmodule (name_of_moduleIn? hm)

/-- **The notes of a trace are exact.** When a trace comes to an end, a module tracks the names of exactly those
    calls in its units that are routing calls or lead to a unit, and exactly its declared names are referenced
    in it. -/
theorem Tracer.trace?_noted {tracer : Tracer} {fuel : Nat} {module function : String} {t : Trace}
    (h : tracer.trace? fuel module function = some (.ok t)) : t.Noted := by
  obtain ⟨entry, units, modules⟩ := t
  obtain ⟨s, hp, hnoted, rfl, rfl, hend⟩ := Exploration.exists_finished
    (fun _ _ => Exploration.noted_of_enter) (fun _ _ hv hn hu => hn.visit hv hu) h
  have hv := hp.valid
  constructor
  case distinct => exact hnoted.orderly.distinct
  case references => exact hnoted.orderly.references
  case declared =>
    intro m hm name
    obtain ⟨src, -, hr⟩ := hv.reads m hm
    rw [hr.declared, hr.functions, NameSet.mem_ofList, List.mem_map]
  case tracked =>
    intro name called
    rw [Trace.mem_trackedIn_iff, hnoted.tracked]
    constructor
    · rintro ⟨i, u, -, hi, hmodule, site, hsite, hcalled, hcount⟩
      have hu : u ∈ s.units := List.mem_of_getElem? hi
      have hleads := (hp.counts_iff hend entry hu hsite).mp hcount
      exact ⟨u, hu, hmodule, site, hsite, hcalled, hleads⟩
    · rintro ⟨u, hu, hmodule, site, hsite, hcalled, hleads⟩
      obtain ⟨i, hi⟩ := List.mem_iff_getElem?.mp hu
      have hvisited : i < s.visited := Exploration.lt_visited hend hi
      have hcount := (hp.counts_iff hend entry hu hsite).mpr hleads
      exact ⟨i, u, hvisited, hi, hmodule, site, hsite, hcalled, hcount⟩
  case kept =>
    intro u hu site hsite f hf hcase
    -- a call of the own module refers to a declared function, and that has a unit by now
    have hunit : ∃ i, unitIdIn? s.units f.1 f.2 = some i := by
      rcases hcase with htarget | hunit
      · obtain ⟨i, hi⟩ := List.mem_iff_getElem?.mp hu
        have hdecl := hv.declares_of_mem_sitesOf hi hsite htarget
        have hkey : some (u.module, f.2) = some f := by
          rw [htarget] at hf
          exact hf
        rw [Option.some.inj hkey] at hdecl
        exact (hp.declares_iff hend hu hsite hf).mp hdecl
      · exact Option.isSome_iff_exists.mp hunit
    obtain ⟨i, hi⟩ := hunit
    exact hv.mem_references hnoted.orderly hi

/-- The trace of the shop keeps its notes: the shop tracks what its units call, the stock apart, and the cart
    tracks the routing call in its unit. -/
theorem shop_noted : ∃ t, shopTracer.trace? 3 "shop" "main" = some (.ok t) ∧ t.Noted ∧
    (t.trackedIn "shop").names = ["add", "get", "main", "refill"] := by
  refine ⟨_, rfl, ?_, ?_⟩
  · exact Tracer.trace?_noted (show shopTracer.trace? 3 "shop" "main" = _ from rfl)
  · decide +kernel

end ServiceTrace
