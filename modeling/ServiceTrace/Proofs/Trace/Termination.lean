import Mathlib.Algebra.GroupWithZero.Nat
import Mathlib.Data.Set.Finite.Lattice
import ServiceTrace.Proofs.Trace.Notes

/-!
# `ServiceTrace.Proofs.Trace.Termination` — the visits of a trace

`Exploration.explore?` takes fuel. The loop itself, which goes on until no unit is left, is the relation
`Exploration.Explores`; it lists the units that are visited. The two agree (`explore?_eq_some_iff`), and where
the resolver knows finitely many names the loop always comes to an end (`Valid.exists_explores`): every round
visits another unit, and units are different declared functions. Fuel for all of these is enough
(`Tracer.trace?_isSome`).

What a finished loop took is collected in `Exploration.Frugal`: it visits every unit once, hands no module to
the parser twice, and has at most as many units as the modules it read have function names.

* `Exploration.visit_preserves` — what holds under the few changes that a visit is made of holds of visits;
* `Exploration.Requests` — the modules that were handed to the parser are those that were read and those that
  failed;
* `Tracer.finite_declares` — finitely many names resolve, so finitely many functions are declared.
-/

namespace ServiceTrace

/-- The resolver finds a module of this name in the project. -/
def Tracer.Owns (tracer : Tracer) (name : String) : Prop :=
  ∃ ref, tracer.resolve name = some ref ∧ ref.owned = true

/-- A resolver of finitely many names leaves finitely many functions to be declared. -/
theorem Tracer.finite_declares {tracer : Tracer}
    (hfinite : { name | (tracer.resolve name).isSome = true }.Finite) (entry : String) :
    { f | tracer.Declares entry f }.Finite := by
  have hmodule : ∀ name, { f | f.1 = name ∧ tracer.Declares entry f }.Finite := by
    intro name
    cases hsrc : tracer.source? entry name with
    | none =>
      refine Set.finite_empty.subset ?_
      rintro f ⟨rfl, src, d, hsrc', -⟩
      exact absurd (hsrc.symm.trans hsrc') nofun
    | some src =>
      refine (((Stmt.functionsIn src.body).map fun d => (name, d.name)).finite_toSet).subset ?_
      rintro ⟨_, called⟩ ⟨rfl, src', d, hsrc', hd⟩
      obtain rfl : src = src' := Option.some.inj (hsrc.symm.trans hsrc')
      have hname : d.name = called := by simpa using List.find?_some hd
      exact List.mem_map.mpr ⟨d, List.mem_of_find?_eq_some hd, by rw [hname]⟩
  refine (hfinite.biUnion fun name _ => hmodule name).subset ?_
  intro f hf
  refine Set.mem_biUnion (x := f.1) ?_ ⟨rfl, hf⟩
  obtain ⟨src, -, hsrc, -⟩ := hf
  show (tracer.resolve f.1).isSome = true
  unfold source? at hsrc
  cases hresolve : tracer.resolve f.1 with
  | none => simp [hresolve] at hsrc
  | some ref => rfl

namespace Exploration

/-! ## The loop without a bound -/

/-- From `s` on, the loop visits the units in `visits` one after the other and stops in `s'`, where none is
    left. -/
inductive Explores (tracer : Tracer) : Exploration → List FunctionUnit → Exploration → Prop where
  | done {s} (hdone : s.units[s.visited]? = none) : Explores tracer s [] s
  | visit {s u visits s'} (hnext : s.units[s.visited]? = some u)
      (hrest : Explores tracer (s.visit tracer u) visits s') : Explores tracer s (u :: visits) s'

variable {tracer : Tracer} {entry : String} {s s' : Exploration} {visits : List FunctionUnit}

/-- With fuel the loop comes to the same end, provided the fuel lasts for its visits. -/
theorem explore?_eq_some_iff {fuel : Nat} : s.explore? tracer fuel = some s' ↔
    ∃ visits, Explores tracer s visits s' ∧ visits.length ≤ fuel := by
  constructor
  · intro h
    induction fuel generalizing s with
    | zero =>
      unfold explore? at h
      split at h
      · rename_i hdone
        exact Option.some.inj h ▸ ⟨[], .done hdone, Nat.le_refl 0⟩
      · exact absurd h nofun
    | succ fuel ih =>
      unfold explore? at h
      split at h
      · rename_i hdone
        exact Option.some.inj h ▸ ⟨[], .done hdone, Nat.zero_le _⟩
      · rename_i u hnext
        obtain ⟨visits, hrest, hlen⟩ := ih h
        exact ⟨u :: visits, .visit hnext hrest, Nat.succ_le_succ hlen⟩
  · rintro ⟨visits, h, hlen⟩
    induction h generalizing fuel with
    | done hdone =>
      unfold explore?
      simp only [hdone]
    | visit hnext _ ih =>
      cases fuel with
      | zero => exact absurd hlen (Nat.not_succ_le_zero _)
      | succ fuel =>
        unfold explore?
        simp only [hnext]
        exact ih (Nat.le_of_succ_le_succ hlen)

/-- What every visit keeps holds when the loop stops. -/
theorem Explores.preserves {P : Exploration → Prop}
    (hstep : ∀ s u, P s → s.units[s.visited]? = some u → P (s.visit tracer u))
    (h : Explores tracer s visits s') (hs : P s) : P s' := by
  induction h with
  | done _ => exact hs
  | visit hnext _ ih => exact ih (hstep _ _ hs hnext)

theorem Explores.valid (h : Explores tracer s visits s') (hv : s.Valid tracer entry) :
    s'.Valid tracer entry :=
  h.preserves (fun _ _ hv hnext => (hv.visit hnext).valid) hv

/-- The loop leaves the units that are there alone. -/
theorem Explores.keeps_units (h : Explores tracer s visits s') (hv : s.Valid tracer entry) :
    s.units <+: s'.units := by
  induction h with
  | done _ => exact List.prefix_refl _
  | visit hnext _ ih =>
    have hgrow := hv.visit hnext
    exact hgrow.units.trans (ih hgrow.valid)

/-- The visited units are those behind the ones that were visited before, in their order. -/
theorem Explores.visits_eq (h : Explores tracer s visits s') (hv : s.Valid tracer entry) :
    visits = s'.units.drop s.visited := by
  induction h with
  | done hdone => exact (List.drop_eq_nil_iff.mpr (List.getElem?_eq_none_iff.mp hdone)).symm
  | @visit s u visits s' hnext hrest ih =>
    have hgrow := hv.visit hnext
    have hvisited : (s.visit tracer u).visited = s.visited + 1 := hgrow.visited
    -- units are only appended, so the one that is visited now has the same place in the end
    obtain ⟨rest, hunits⟩ := (Explores.visit hnext hrest).keeps_units hv
    have hkept : s'.units[s.visited]? = some u := by
      rw [← hunits, List.getElem?_append_left (List.getElem?_eq_some_iff.mp hnext).1, hnext]
    obtain ⟨hlen, hu⟩ := List.getElem?_eq_some_iff.mp hkept
    rw [ih hgrow.valid, hvisited, List.drop_eq_getElem_cons hlen, hu]

/-! ## The loop comes to an end -/

/-- Units are different functions. -/
theorem Valid.length_units_le (hv : s.Valid tracer entry) {declared : List FunctionKey}
    (hsubset : s.functions ⊆ declared) : s.units.length ≤ declared.length := by
  calc s.units.length
      = s.functions.length := (List.length_map _).symm
    _ ≤ declared.length := (List.subperm_of_subset hv.single hsubset).length_le

/-- With as much fuel as there are functions to visit, the loop comes to its end: every round visits another
    one. -/
theorem Valid.explore?_isSome (hv : s.Valid tracer entry) {declared : List FunctionKey}
    (hcover : ∀ f, tracer.Declares entry f → f ∈ declared) {fuel : Nat}
    (hfuel : declared.length ≤ s.visited + fuel) : (s.explore? tracer fuel).isSome = true := by
  induction fuel generalizing s with
  | zero =>
    have hle := hv.length_units_le fun f hf => hcover f (hv.declares hf)
    have hdone : s.units[s.visited]? = none := List.getElem?_eq_none_iff.mpr (hle.trans hfuel)
    unfold explore?
    rw [hdone]
    rfl
  | succ fuel ih =>
    unfold explore?
    cases hnext : s.units[s.visited]? with
    | none => rfl
    | some u =>
      have hgrow := hv.visit hnext
      have hvisited : (s.visit tracer u).visited = s.visited + 1 := hgrow.visited
      exact ih hgrow.valid (by omega)

/-- Where finitely many functions are declared, the loop comes to an end. -/
theorem Valid.exists_explores (hv : s.Valid tracer entry)
    (hfinite : { f | tracer.Declares entry f }.Finite) : ∃ visits s', Explores tracer s visits s' := by
  have hcover : ∀ f, tracer.Declares entry f → f ∈ hfinite.toFinset.toList :=
    fun f hf => Finset.mem_toList.mpr (hfinite.mem_toFinset.mpr hf)
  obtain ⟨s', hs'⟩ := Option.isSome_iff_exists.mp (hv.explore?_isSome hcover (Nat.le_add_left _ _))
  obtain ⟨visits, hexplores, -⟩ := explore?_eq_some_iff.mp hs'
  exact ⟨visits, s', hexplores⟩

/-! ## What was handed to the parser -/

section Preserves

variable {P : Exploration → Prop} (hload : ∀ s name, P s → P (s.load tracer name))
  (hupdate : ∀ s name change, (∀ m : TracedModule, (change m).name = m.name) → P s →
    P (s.update name change))
  (hunits : ∀ (s : Exploration) units visited, P s → P { s with units := units, visited := visited })
include hload hunits

theorem unitFor_preserves (hs : P s) (module name : String) :
    P (s.unitFor tracer module name).1 := by
  rcases unitFor_cases tracer s module name with
    ⟨id, -, h⟩ | ⟨-, -, h⟩ | ⟨-, m, d, -, -, h⟩
  · rw [h]
    exact hs
  · rw [h]
    exact hload s module hs
  · rw [h]
    exact hunits _ _ _ (hload s module hs)

include hupdate

theorem follow_preserves (hs : P s) (module : String) (site : CallSite) :
    P (s.follow tracer module site) := by
  have htrack : ∀ s : Exploration, P s → ∀ called, P (s.track module called) := by
    intro s hs called
    cases called with
    | none => exact hs
    | some called => exact hupdate s module _ (fun _ => rfl) hs
  unfold follow
  cases site.target with
  | route => exact htrack s hs _
  | unknown | unrecognized => exact hs
  | declared name =>
    have hreference : P (s.reference module name) := hupdate s module _ (fun _ => rfl) hs
    have hunit := unitFor_preserves hload hunits hreference module name
    cases hres : (s.reference module name).unitFor tracer module name with
    | mk s' answer =>
      rw [hres] at hunit
      simp only [hres]
      cases answer with
      | none => exact hunit
      | some id => exact htrack s' hunit _
  | imported hit =>
    have hmark : P (s.mark module hit) := hupdate s module _ (fun _ => rfl) hs
    have hunit := unitFor_preserves hload hunits hmark hit.module hit.name
    cases hres : (s.mark module hit).unitFor tracer hit.module hit.name with
    | mk s' answer =>
      rw [hres] at hunit
      simp only [hres]
      cases answer with
      | none => exact hunit
      | some id =>
        have hreference : P (s'.reference hit.module hit.name) :=
          hupdate s' hit.module _ (fun _ => rfl) hunit
        exact htrack _ hreference _

/-- A visit is made of loading modules, changing what is noted about one, and adding and counting units. What
    these keep is kept by a visit. -/
theorem visit_preserves (hs : P s) (u : FunctionUnit) : P (s.visit tracer u) := by
  unfold visit
  have hcount : P { s with visited := s.visited + 1 } := hunits s s.units (s.visited + 1) hs
  generalize { s with visited := s.visited + 1 } = s₁ at hcount
  induction sitesOf s.modules u generalizing s₁ with
  | nil => exact hcount
  | cons site sites ih =>
    exact ih _ (follow_preserves hload hupdate hunits hcount u.module site)

end Preserves

/-- The log of what was handed to the parser: no module twice, and exactly the modules that were read and
    those of the project that have nothing to follow, because they could not be parsed. -/
structure Requests (tracer : Tracer) (s : Exploration) : Prop where
  single : s.requested.Nodup
  mem_iff : ∀ name, name ∈ s.requested ↔
    (moduleIn? s.modules name).isSome = true ∨ (name ∈ s.unavailable ∧ tracer.Owns name)

theorem Requests.load (h : s.Requests tracer) (name : String) : (s.load tracer name).Requests tracer := by
  unfold Exploration.load
  by_cases hset : ((moduleIn? s.modules name).isSome || name ∈ s.unavailable) = true
  · rw [if_pos hset]
    exact h
  · rw [if_neg hset]
    simp only [Bool.or_eq_true, decide_eq_true_eq, not_or] at hset
    have hfresh : name ∉ s.requested := by
      rw [h.mem_iff, not_or]
      exact ⟨hset.1, fun hgone => hset.2 hgone.1⟩
    -- a module outside of the project is given up without being handed over
    have hgiveUp : ¬ tracer.Owns name → (s.giveUp name).Requests tracer := by
      intro hforeign
      refine ⟨h.single, fun other => ?_⟩
      rw [show (s.giveUp name).requested = s.requested from rfl, h.mem_iff]
      refine or_congr_right ⟨fun hother => ⟨List.mem_cons_of_mem _ hother.1, hother.2⟩, ?_⟩
      rintro ⟨hother, howns⟩
      rcases List.mem_cons.mp hother with rfl | hother
      · exact absurd howns hforeign
      · exact ⟨hother, howns⟩
    cases hresolve : tracer.resolve name with
    | none =>
      refine hgiveUp ?_
      rintro ⟨ref, href, -⟩
      exact absurd (hresolve.symm.trans href) nofun
    | some ref =>
      by_cases howned : ref.owned = true
      · have howns : tracer.Owns name := ⟨ref, hresolve, howned⟩
        simp only [howned, Bool.not_true, Bool.false_eq_true, if_false]
        cases tracer.parse name ref.path with
        | error e =>
          refine ⟨List.nodup_cons.mpr ⟨hfresh, h.single⟩, fun other => ?_⟩
          show other ∈ name :: s.requested ↔ (moduleIn? s.modules other).isSome = true ∨
            (other ∈ name :: s.unavailable ∧ tracer.Owns other)
          rw [List.mem_cons, List.mem_cons, h.mem_iff]
          by_cases hother : other = name
          · simp [hother, howns]
          · simp [hother]
        | ok body =>
          refine ⟨List.nodup_cons.mpr ⟨hfresh, h.single⟩, fun other => ?_⟩
          show other ∈ name :: s.requested ↔
            (moduleIn? (s.modules ++ [_]) other).isSome = true ∨ _
          rw [List.mem_cons, moduleIn?_append, Option.isSome_or, h.mem_iff]
          by_cases hother : other = name
          · simp [hother, Tracer.readModule]
          · have hother' : name ≠ other := Ne.symm hother
            simp [hother, hother', Tracer.readModule]
      · simp only [howned, Bool.not_false, if_true]
        refine hgiveUp ?_
        rintro ⟨ref', href, howned'⟩
        obtain rfl := Option.some.inj (hresolve.symm.trans href)
        exact howned howned'

theorem Requests.update (h : s.Requests tracer) (name : String) {change : TracedModule → TracedModule}
    (hname : ∀ m, (change m).name = m.name) : (s.update name change).Requests tracer := by
  refine ⟨h.single, fun other => ?_⟩
  show other ∈ s.requested ↔ (moduleIn? (updateModule name change s.modules) other).isSome = true ∨ _
  rw [moduleIn?_updateModule hname, Option.isSome_map, h.mem_iff]
  rfl

theorem Requests.visit (h : s.Requests tracer) (u : FunctionUnit) : (s.visit tracer u).Requests tracer :=
  visit_preserves (fun _ name h => h.load name) (fun _ name _ hname h => h.update name hname)
    (fun _ _ _ h => ⟨h.single, h.mem_iff⟩) h u

/-- A trace begins with the entry module alone. -/
theorem requests_ofEntry {m : TracedModule} : (ofEntry m).Requests tracer := by
  refine ⟨List.nodup_singleton _, fun name => ?_⟩
  have hmodule : (moduleIn? [m] name).isSome = true ↔ m.name = name := by
    by_cases h : m.name = name <;> simp [moduleIn?, h]
  show name ∈ [m.name] ↔ (moduleIn? [m] name).isSome = true ∨ (name ∈ [] ∧ tracer.Owns name)
  rw [hmodule, List.mem_singleton, eq_comm]
  simp only [List.not_mem_nil, false_and, or_false]

/-- Asking for a unit in a module that is known hands nothing to the parser. -/
theorem requested_unitFor {module : String} (hknown : (moduleIn? s.modules module).isSome = true)
    (name : String) : (s.unitFor tracer module name).1.requested = s.requested := by
  have hload : s.load tracer module = s := by
    unfold load
    rw [hknown, Bool.true_or, if_pos rfl]
  rcases unitFor_cases tracer s module name with
    ⟨id, -, h⟩ | ⟨-, -, h⟩ | ⟨-, m, d, -, -, h⟩
  · rw [h]
  · rw [h, hload]
  · rw [h, hload]

/-! ## What a finished loop took -/

/-- The units of a state are no more than the function names in its modules. -/
theorem Valid.length_units_le_sum (hv : s.Valid tracer entry) :
    s.units.length ≤ (s.modules.map fun m => m.declared.names.length).sum := by
  have hsubset : s.functions ⊆ s.modules.flatMap fun m => m.declared.names.map (m.name, ·) := by
    intro f hf
    obtain ⟨u, hu, rfl⟩ := List.mem_map.mp hf
    obtain ⟨m, hm⟩ := Option.isSome_iff_exists.mp (hv.known u hu)
    have hdeclared : u.name ∈ m.declared :=
      hv.mem_declared (hv.declares hf) (mem_of_moduleIn? hm) (name_of_moduleIn? hm)
    refine List.mem_flatMap.mpr ⟨m, mem_of_moduleIn? hm, List.mem_map.mpr ⟨u.name, hdeclared, ?_⟩⟩
    rw [name_of_moduleIn? hm]
    rfl
  simpa [List.length_flatMap] using hv.length_units_le hsubset

/-- What a trace took that has made the given visits and ends in `s`. -/
structure Frugal (tracer : Tracer) (visits : List FunctionUnit) (s : Exploration) : Prop where
  /-- Every unit is visited once, in the order of the numbers. -/
  inOrder : visits = s.units
  /-- No two units stand for the same function. -/
  single : (visits.map FunctionUnit.key).Nodup
  /-- No module is handed to the parser twice. -/
  requested : s.requested.Nodup
  /-- Handed to the parser are the modules that were read, and those that failed. -/
  parsed : ∀ name, name ∈ s.requested ↔
    (moduleIn? s.modules name).isSome = true ∨ (name ∈ s.unavailable ∧ tracer.Owns name)
  /-- No module is read twice. -/
  distinct : (s.modules.map TracedModule.name).Nodup
  /-- There are at most as many units as the modules that were read have function names. -/
  bounded : s.units.length ≤ (s.modules.map fun m => m.declared.names.length).sum

/-- Entering a trace leaves the log in order. -/
theorem requests_of_enter {module function : String} {id : Nat}
    (h : tracer.enter module function = .ok (s, id)) : s.Requests tracer := by
  obtain ⟨src, -, hunit⟩ := source_of_enter h
  have hstart : (ofEntry (tracer.readModule module src.ref src.body)).Requests tracer := requests_ofEntry
  have hrequests : ((ofEntry (tracer.readModule module src.ref src.body)).unitFor tracer module
      function).1.Requests tracer :=
    unitFor_preserves (P := Requests tracer) (fun _ name h => h.load name)
      (fun _ _ _ h => ⟨h.single, h.mem_iff⟩) hstart module function
  rwa [hunit] at hrequests

/-- A loop that starts where a trace enters takes no more than it has to. -/
theorem Explores.frugal {module function : String} {id : Nat}
    (henter : tracer.enter module function = .ok (s, id)) (h : Explores tracer s visits s') :
    s'.Frugal tracer visits := by
  have hv := (progress_of_enter henter).valid
  have hvisited : s.visited = 0 := by
    obtain ⟨src, hsrc, hunit⟩ := source_of_enter henter
    have hgrow := ((valid_ofEntry hsrc).unitFor module function).1
    rw [hunit] at hgrow
    exact hgrow.visited
  have hvisits : visits = s'.units := by rw [h.visits_eq hv, hvisited, List.drop_zero]
  -- the log speaks about modules and units, so it is carried along with what is known of these
  have hend := h.preserves (P := fun s => s.Valid tracer module ∧ s.Noted tracer module ∧
      s.Requests tracer)
    (fun s u ⟨hv, hnoted, hrequests⟩ hnext =>
      ⟨(hv.visit hnext).valid, hnoted.visit hv hnext, hrequests.visit u⟩)
    ⟨hv, noted_of_enter henter, requests_of_enter henter⟩
  obtain ⟨hvalid, hnoted, hrequests⟩ := hend
  exact ⟨hvisits, hvisits ▸ hvalid.single, hrequests.single, hrequests.mem_iff, hnoted.orderly.distinct,
    hvalid.length_units_le_sum⟩

end Exploration

/-- A trace has an outcome when it has fuel for all functions that are declared. -/
theorem Tracer.trace?_isSome {tracer : Tracer} {module : String} {declared : List FunctionKey}
    (hcover : ∀ f, tracer.Declares module f → f ∈ declared) {fuel : Nat} (hfuel : declared.length ≤ fuel)
    (function : String) : (tracer.trace? fuel module function).isSome = true := by
  unfold trace?
  cases henter : tracer.enter module function with
  | error e => rfl
  | ok entered =>
    obtain ⟨s, id⟩ := entered
    have hv := (Exploration.progress_of_enter henter).valid
    rw [Option.isSome_map]
    exact hv.explore?_isSome hcover (Nat.le_add_left_of_le hfuel)

end ServiceTrace
