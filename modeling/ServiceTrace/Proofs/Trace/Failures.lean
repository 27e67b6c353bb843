import ServiceTrace.Proofs.Trace.Closure

/-!
# `ServiceTrace.Proofs.Trace.Failures` — what makes a trace fail

A trace fails at its entry or not at all: the entry module does not resolve, or it cannot be parsed, or it
declares no function of the entry name. A module that cannot be parsed later on is a module with nothing to
follow, like one that does not belong to the project, and nothing of it is left behind.

* `Tracer.EntryFails` — the three causes, in their order.
* `Tracer.SameSources`, `Exploration.Agree` — two tracers that find the same sources go through states that
  agree in all but the log of parsed modules; one lemma for each kind of step.
* **`Tracer.trace?_failures`** — a trace fails exactly at its entry, and a module other than the entry module
  may as well fail as lie outside of the project.
-/

namespace ServiceTrace

/-! ## Failing at the entry -/

namespace Tracer

variable {tracer tracer' : Tracer} {module function : String}

/-- Why a trace from a function of a module fails, and with what. -/
inductive EntryFails (tracer : Tracer) (module function : String) : Error → Prop where
  | unresolved (hresolve : tracer.resolve module = none) :
      EntryFails tracer module function (.moduleNotFound module)
  | unparsed {ref e} (hresolve : tracer.resolve module = some ref)
      (hparse : tracer.parse module ref.path = .error e) : EntryFails tracer module function e
  | undeclared {ref body} (hresolve : tracer.resolve module = some ref)
      (hparse : tracer.parse module ref.path = .ok body)
      (hdeclared : ∀ d ∈ Stmt.functionsIn body, d.name ≠ function) :
      EntryFails tracer module function (.entryNotFound module function)

/-- The entry module has a unit for a function when it declares the function. -/
theorem unitFor_ofEntry_eq_none_iff (function : String) {ref : ModuleRef} {body : List Stmt}
    (hresolve : tracer.resolve module = some ref) (hparse : tracer.parse module ref.path = .ok body) :
    ((Exploration.ofEntry (tracer.readModule module ref body)).unitFor tracer module function).2 = none ↔
      ∀ d ∈ Stmt.functionsIn body, d.name ≠ function := by
  have hsrc : tracer.source? module module = some ⟨ref, body⟩ := by
    simp [source?, hresolve, hparse]
  have hdeclares : tracer.Declares module (module, function) ↔
      (Stmt.functionIn? body function).isSome = true := by
    constructor
    · rintro ⟨src, d, hsrc', hd⟩
      obtain rfl := Option.some.inj (hsrc.symm.trans hsrc')
      exact Option.isSome_iff_exists.mpr ⟨d, hd⟩
    · intro h
      obtain ⟨d, hd⟩ := Option.isSome_iff_exists.mp h
      exact ⟨⟨ref, body⟩, d, hsrc, hd⟩
  have hunit := ((Exploration.valid_ofEntry hsrc).unitFor module function).2.trans hdeclares
  rw [← Option.not_isSome_iff_eq_none, hunit, Option.not_isSome_iff_eq_none]
  simp [Stmt.functionIn?]

/-- Entering a trace fails for one of the three causes. -/
theorem enter_eq_error_iff {e : Error} :
    tracer.enter module function = .error e ↔ tracer.EntryFails module function e := by
  constructor
  · intro h
    unfold enter at h
    cases hresolve : tracer.resolve module with
    | none =>
      simp only [hresolve] at h
      obtain rfl := Except.error.inj h
      exact .unresolved hresolve
    | some ref =>
      cases hparse : tracer.parse module ref.path with
      | error e' =>
        simp only [hresolve, hparse] at h
        obtain rfl := Except.error.inj h
        exact .unparsed hresolve hparse
      | ok body =>
        have hnone := unitFor_ofEntry_eq_none_iff function hresolve hparse
        simp only [hresolve, hparse] at h
        cases hunit : (Exploration.ofEntry (tracer.readModule module ref body)).unitFor tracer module
            function with
        | mk s id =>
          rw [hunit] at h hnone
          cases id with
          | some id => exact absurd h nofun
          | none =>
            obtain rfl := Except.error.inj h
            exact .undeclared hresolve hparse (hnone.mp rfl)
  · intro h
    unfold enter
    cases h with
    | unresolved hresolve => simp only [hresolve]
    | unparsed hresolve hparse => simp only [hresolve, hparse]
    | @undeclared ref body hresolve hparse hdeclared =>
      have hnone := (unitFor_ofEntry_eq_none_iff function hresolve hparse).mpr hdeclared
      simp only [hresolve, hparse]
      cases hunit : (Exploration.ofEntry (tracer.readModule module ref body)).unitFor tracer module
          function with
      | mk s id =>
        rw [hunit] at hnone
        obtain rfl : id = none := hnone
        rfl

/-- Once a trace has entered it does not fail any more. -/
theorem trace?_eq_error_iff {fuel : Nat} {e : Error} :
    tracer.trace? fuel module function = some (.error e) ↔ tracer.EntryFails module function e := by
  rw [← enter_eq_error_iff]
  unfold trace?
  cases tracer.enter module function with
  | error e' => simp
  | ok entered => simp

end Tracer

/-! ## The same sources -/

/-- Import statements bind the same names for resolvers that know the same names. -/
theorem ImportTable.ofStmts_congr {resolve resolve' : Resolver}
    (h : ∀ name, (resolve' name).isSome = (resolve name).isSome) (package : List String)
    (stmts : List Stmt) : ofStmts resolve' package stmts = ofStmts resolve package stmts := by
  have htarget : memberTarget resolve' = memberTarget resolve := by
    funext base name
    simp only [memberTarget, h]
  have hregister : register resolve' package = register resolve package := by
    funext t s
    cases s <;> simp only [register, htarget]
  unfold ofStmts
  rw [hregister]

namespace Tracer

/-- Two tracers look for the same clients, know the same names, and find the same sources under them. -/
structure SameSources (entry : String) (tracer tracer' : Tracer) : Prop where
  clients : tracer'.clients = tracer.clients
  resolves : ∀ name, (tracer'.resolve name).isSome = (tracer.resolve name).isSome
  sources : ∀ name, tracer'.source? entry name = tracer.source? entry name

variable {tracer tracer' : Tracer} {entry : String}

theorem SameSources.readModule_eq (h : SameSources entry tracer tracer') (name : String) (ref : ModuleRef)
    (body : List Stmt) : tracer'.readModule name ref body = tracer.readModule name ref body := by
  unfold readModule
  rw [ImportTable.ofStmts_congr h.resolves]

theorem SameSources.unitOf_eq (h : SameSources entry tracer tracer') (id : Nat) (m : TracedModule)
    (d : FunctionDef) : tracer'.unitOf id m d = tracer.unitOf id m d := by
  unfold unitOf
  rw [h.clients, ImportTable.ofStmts_congr h.resolves]

end Tracer

namespace Exploration

/-- Two states agree in all but the log of what was handed to the parser. -/
structure Agree (s s' : Exploration) : Prop where
  units : s'.units = s.units
  modules : s'.modules = s.modules
  unavailable : s'.unavailable = s.unavailable
  visited : s'.visited = s.visited

variable {tracer tracer' : Tracer} {entry : String} {s s' : Exploration}

theorem Agree.refl (s : Exploration) : s.Agree s :=
  ⟨rfl, rfl, rfl, rfl⟩

theorem Agree.update (h : s.Agree s') (name : String) (change : TracedModule → TracedModule) :
    (s.update name change).Agree (s'.update name change) :=
  ⟨h.units, congrArg (updateModule name change) h.modules, h.unavailable, h.visited⟩

theorem Agree.track (h : s.Agree s') (module : String) (called : Option String) :
    (s.track module called).Agree (s'.track module called) := by
  cases called with
  | none => exact h
  | some called => exact h.update module _

section Sources

variable (hsame : Tracer.SameSources entry tracer tracer')
include hsame

/-- What loading a module does depends on its source alone: a module that fails and one outside of the project
    have none. -/
theorem Agree.load (h : s.Agree s') (hv : s.Valid tracer entry) (name : String) :
    (s.load tracer name).Agree (s'.load tracer' name) := by
  have hknown : (moduleIn? s'.modules entry).isSome = true := h.modules ▸ hv.entryKnown
  have hsource := hsame.sources name
  by_cases hset : (moduleIn? s.modules name).isSome = true ∨ name ∈ s.unavailable
  · -- what is settled stays as it is in both states
    have hsettled : ∀ (τ : Tracer) (r : Exploration), s.Agree r → r.load τ name = r := by
      intro τ r hr
      unfold Exploration.load
      rw [hr.modules, hr.unavailable, if_pos (by simpa using hset)]
    rw [hsettled tracer s (.refl s), hsettled tracer' s' h]
    exact h
  · obtain ⟨hnew, hopen⟩ := not_or.mp hset
    have hset' : ¬ ((moduleIn? s'.modules name).isSome = true ∨ name ∈ s'.unavailable) := by
      rwa [h.modules, h.unavailable]
    -- a module that is new has a source for both tracers or for neither
    rcases load_cases tracer hv.entryKnown name with
      ⟨-, hno⟩ | ⟨hsrc, requested, heq⟩ | ⟨src, hsrc, -, heq⟩
    · exact absurd hno hset
    · rcases load_cases tracer' hknown name with
        ⟨-, hno⟩ | ⟨-, requested', heq'⟩ | ⟨src', hsrc', -, -⟩
      · exact absurd hno hset'
      · rw [heq, heq']
        exact ⟨h.units, h.modules, congrArg (name :: ·) h.unavailable, h.visited⟩
      · exact absurd (hsrc'.symm.trans (hsource.trans hsrc)) nofun
    · rcases load_cases tracer' hknown name with
        ⟨-, hno⟩ | ⟨hsrc', -⟩ | ⟨src', hsrc', -, heq'⟩
      · exact absurd hno hset'
      · exact absurd (hsrc'.symm.trans (hsource.trans hsrc)) nofun
      · obtain rfl := Option.some.inj (hsrc'.symm.trans (hsource.trans hsrc))
        rw [heq, heq', hsame.readModule_eq]
        exact ⟨h.units, congrArg (· ++ [_]) h.modules, h.unavailable, h.visited⟩

/-- Asking for a unit answers alike. -/
theorem Agree.unitFor (h : s.Agree s') (hv : s.Valid tracer entry) (module name : String) :
    (s.unitFor tracer module name).1.Agree (s'.unitFor tracer' module name).1 ∧
      (s'.unitFor tracer' module name).2 = (s.unitFor tracer module name).2 := by
  have hload := h.load hsame hv module
  unfold Exploration.unitFor
  rw [h.units]
  cases unitIdIn? s.units module name with
  | some id => exact ⟨h, rfl⟩
  | none =>
    simp only [hload.modules, hload.units]
    cases moduleIn? (s.load tracer module).modules module with
    | none => exact ⟨hload, rfl⟩
    | some m =>
      simp only
      cases m.functions.find? (·.name = name) with
      | none => exact ⟨hload, rfl⟩
      | some d =>
        simp only [hsame.unitOf_eq]
        exact ⟨⟨rfl, rfl, hload.unavailable, hload.visited⟩, trivial⟩

theorem Agree.follow (h : s.Agree s') (hv : s.Valid tracer entry) (module : String) (site : CallSite) :
    (s.follow tracer module site).Agree (s'.follow tracer' module site) := by
  unfold Exploration.follow
  cases site.target with
  | route => exact h.track module _
  | unknown | unrecognized => exact h
  | declared name =>
    -- the reference is noted before the unit is asked for, in both runs
    have hvalid := (Grows.reference hv module name).valid
    have hreference : (s.reference module name).Agree (s'.reference module name) := h.update module _
    obtain ⟨hunit, hanswer⟩ := hreference.unitFor hsame hvalid module name
    cases hres : (s.reference module name).unitFor tracer module name with
    | mk r answer =>
      cases hres' : (s'.reference module name).unitFor tracer' module name with
      | mk r' answer' =>
        rw [hres, hres'] at hunit hanswer
        obtain rfl : answer' = answer := hanswer
        simp only [hres, hres']
        cases answer' with
        | none => exact hunit
        | some id => exact hunit.track module _
  | imported hit =>
    have hvalid := (Grows.mark hv module hit).valid
    have hmark : (s.mark module hit).Agree (s'.mark module hit) := h.update module _
    obtain ⟨hunit, hanswer⟩ := hmark.unitFor hsame hvalid hit.module hit.name
    cases hres : (s.mark module hit).unitFor tracer hit.module hit.name with
    | mk r answer =>
      cases hres' : (s'.mark module hit).unitFor tracer' hit.module hit.name with
      | mk r' answer' =>
        rw [hres, hres'] at hunit hanswer
        obtain rfl : answer' = answer := hanswer
        simp only [hres, hres']
        cases answer' with
        | none => exact hunit
        | some id =>
          have hreference : (r.reference hit.module hit.name).Agree
              (r'.reference hit.module hit.name) := hunit.update hit.module _
          exact hreference.track module _

theorem Agree.foldl_follow (h : s.Agree s') (hv : s.Valid tracer entry) (module : String)
    (sites : List CallSite) : (sites.foldl (Exploration.follow tracer module) s).Agree
      (sites.foldl (Exploration.follow tracer' module) s') := by
  induction sites generalizing s s' with
  | nil => exact h
  | cons site sites ih => exact ih (h.follow hsame hv module site) (hv.follow module site).valid

theorem Agree.visit (h : s.Agree s') (hv : s.Valid tracer entry) (u : FunctionUnit) :
    (s.visit tracer u).Agree (s'.visit tracer' u) := by
  have hsites : sitesOf s'.modules u = sitesOf s.modules u := by rw [h.modules]
  have hcount : { s with visited := s.visited + 1 }.Agree { s' with visited := s'.visited + 1 } :=
    ⟨h.units, h.modules, h.unavailable, congrArg (· + 1) h.visited⟩
  have hvalid : Valid tracer entry { s with visited := s.visited + 1 } :=
    ⟨hv.reads, hv.entryKnown, hv.unavailable, hv.units, hv.single, hv.known⟩
  unfold Exploration.visit
  rw [hsites]
  exact hcount.foldl_follow hsame hvalid u.module (sitesOf s.modules u)

/-- Explorations from states that agree come to ends that agree, or both need more fuel. -/
theorem Agree.explore? (h : s.Agree s') (hv : s.Valid tracer entry) (id fuel : Nat) :
    (s'.explore? tracer' fuel).map (fun r => (⟨id, r.units, r.modules⟩ : Trace)) =
      (s.explore? tracer fuel).map fun r => ⟨id, r.units, r.modules⟩ := by
  induction fuel generalizing s s' with
  | zero =>
    unfold Exploration.explore?
    rw [h.units, h.visited]
    cases s.units[s.visited]? with
    | none => simp [h.units, h.modules]
    | some u => rfl
  | succ fuel ih =>
    unfold Exploration.explore?
    rw [h.units, h.visited]
    cases hnext : s.units[s.visited]? with
    | none => simp [h.units, h.modules]
    | some u => exact ih (h.visit hsame hv u) (hv.visit hnext).valid

end Sources

end Exploration

namespace Tracer

variable {tracer tracer' : Tracer} {module function : String}

/-- Entering a trace fails alike, or leads to states that agree. -/
theorem enter_congr (hsame : SameSources module tracer tracer')
    (hresolve : tracer'.resolve module = tracer.resolve module)
    (hparse : ∀ path, tracer'.parse module path = tracer.parse module path) (function : String) :
    (∃ e, tracer.enter module function = .error e ∧ tracer'.enter module function = .error e) ∨
    ∃ s s' id, tracer.enter module function = .ok (s, id) ∧ tracer'.enter module function = .ok (s', id) ∧
      s.Agree s' := by
  unfold enter
  rw [hresolve]
  cases href : tracer.resolve module with
  | none => exact .inl ⟨_, rfl, rfl⟩
  | some ref =>
    simp only [hparse]
    cases hbody : tracer.parse module ref.path with
    | error e => exact .inl ⟨e, rfl, rfl⟩
    | ok body =>
      simp only [hsame.readModule_eq]
      have hsrc : tracer.source? module module = some ⟨ref, body⟩ := by simp [source?, href, hbody]
      have hvalid := Exploration.valid_ofEntry hsrc
      obtain ⟨hunit, hanswer⟩ := (Exploration.Agree.refl _).unitFor hsame hvalid module function
      cases hres : (Exploration.ofEntry (tracer.readModule module ref body)).unitFor tracer module
          function with
      | mk s answer =>
        cases hres' : (Exploration.ofEntry (tracer.readModule module ref body)).unitFor tracer' module
            function with
        | mk s' answer' =>
          rw [hres, hres'] at hunit hanswer
          obtain rfl : answer' = answer := hanswer
          cases answer' with
          | none => exact .inl ⟨_, rfl, rfl⟩
          | some id => exact .inr ⟨s, s', id, rfl, rfl, hunit⟩

/-- A trace depends on the sources that are found, and on how the entry module is found. -/
theorem trace?_congr (hsame : SameSources module tracer tracer')
    (hresolve : tracer'.resolve module = tracer.resolve module)
    (hparse : ∀ path, tracer'.parse module path = tracer.parse module path) (fuel : Nat)
    (function : String) : tracer'.trace? fuel module function = tracer.trace? fuel module function := by
  unfold trace?
  rcases enter_congr hsame hresolve hparse function with ⟨e, he, he'⟩ | ⟨s, s', id, hs, hs', hagree⟩
  · rw [he, he']
  · rw [hs, hs']
    have hend := hagree.explore? hsame (Exploration.progress_of_enter hs).valid id fuel
    have hok := congrArg (Option.map (Except.ok (ε := Error))) hend
    rwa [Option.map_map, Option.map_map] at hok

/-! ## A module that fails -/

/-- The tracer for which a module cannot be parsed. -/
def failing (tracer : Tracer) (name : String) (error : Path → Error) : Tracer :=
  { tracer with
    parse := fun other path => if other = name then .error (error path) else tracer.parse other path }

/-- The tracer for which a module lies outside of the project. -/
def disowning (tracer : Tracer) (name : String) : Tracer :=
  { tracer with
    resolve := fun other =>
      if other = name then (tracer.resolve other).map ({ · with owned := false })
      else tracer.resolve other }

/-- Neither of the two finds a source for the module, and both find the other ones. -/
theorem sameSources_disowning (tracer : Tracer) {name : String} (hname : name ≠ module)
    (error : Path → Error) : SameSources module (tracer.disowning name) (tracer.failing name error) := by
  refine ⟨rfl, fun other => ?_, fun other => ?_⟩
  · by_cases hother : other = name <;> simp [failing, disowning, hother]
  · by_cases hother : other = name
    · subst hother
      cases hresolve : tracer.resolve other <;> simp [source?, failing, disowning, hresolve, hname]
    · simp only [source?, failing, disowning, if_neg hother]

/-- **A trace fails exactly at its entry, and other modules fail without a trace.** It fails when the entry
    module does not resolve, when that cannot be parsed, or when that declares no function of the entry name,
    in this order, and with this error. And when another module cannot be parsed, whatever the error, it finds
    what it would find if the resolver said that this module is not part of the project. -/
theorem trace?_failures (tracer : Tracer) (module function : String) :
    (∀ fuel e, tracer.trace? fuel module function = some (.error e) ↔
      tracer.EntryFails module function e) ∧
    ∀ name, name ≠ module → ∀ error fuel,
      (tracer.failing name error).trace? fuel module function =
        (tracer.disowning name).trace? fuel module function := by
  refine ⟨fun fuel e => trace?_eq_error_iff, ?_⟩
  intro name hname error fuel
  have hentry : module ≠ name := Ne.symm hname
  refine trace?_congr (tracer.sameSources_disowning hname error) ?_ ?_ fuel function
  · simp only [failing, disowning, if_neg hentry]
  · intro path
    simp only [failing, disowning, if_neg hentry]

end Tracer

/-- When the cart cannot be parsed, the shop is traced as if the cart were foreign: without it. -/
theorem shop_without_cart : "cart" ≠ "shop" ∧ ∃ t,
    (shopTracer.failing "cart" Error.unreadable).trace? 3 "shop" "main" = some (.ok t) ∧
    (shopTracer.disowning "cart").trace? 3 "shop" "main" = some (.ok t) ∧
    t.units.map FunctionUnit.key = [("shop", "main"), ("shop", "refill")] := by
  have hname : "cart" ≠ "shop" := by decide
  have hsame := (shopTracer.trace?_failures "shop" "main").2 "cart" hname Error.unreadable 3
  refine ⟨hname, ?_⟩
  rw [hsame]
  exact ⟨_, rfl, rfl, rfl⟩

end ServiceTrace
