import ServiceTrace.Graph.Build
import ServiceTrace.Proofs.FileTree.Entry
import ServiceTrace.Proofs.Graph.DepthFirst
import ServiceTrace.Proofs.Trace.Failures
import ServiceTrace.Proofs.Trace.Termination

/-!
# `ServiceTrace.Proofs.Graph.Termination` — everything is expanded once

A trace and the walk that draws it both follow calls wherever they lead, through recursion and through modules
that import each other. Neither goes on for ever: a function becomes a unit once, a unit is visited once and
entered once, and a module is handed to the parser once.

* `Trace.WalkedOnce` — the walk of a trace comes to an end and enters no body twice.
* `Tracer.ExpandsOnce` — what a finished trace and its walk took.
* **`Tracer.trace?_terminates`** — where finitely many names resolve, every trace comes to an end, and it has
  expanded nothing twice.
* `Program.trace?_isSome` — the fuel for programs in memory is enough.
* `FileTree.analyze_ne_unfinished` — the fuel of a run over a file tree is enough when the modules that it can
  read declare no more functions.
-/

namespace ServiceTrace

open Exploration (Explores)

namespace Trace

/-- The walk of a trace comes to an end and enters every body at most once. -/
structure WalkedOnce (t : Trace) : Prop where
  /-- The walk stops, and the bodies that it has entered are different ones. -/
  entered : ∃ entered, t.DepthFirst [t.entry] (t.sitesAt t.entry) entered t.sites ∧ entered.Nodup ∧
    ∀ i ∈ entered, i < t.units.length
  /-- It meets the call sites of a unit as often as the body of the unit has them. -/
  bodies : ∀ i u, t.units[i]? = some u → t.sites.filter (·.unit.id = i) = sitesOf t.modules u
  /-- Drawing goes along the walk to its end, or stops at a site on the way. -/
  drawn : ∀ opts, (∃ g, t.graph opts = .ok g) ∨
    ∃ before site after, t.sites = before ++ site :: after ∧ t.graph opts = .error site.unrecognized

theorem Coherent.walkedOnce {t : Trace} (ht : t.Coherent) : t.WalkedOnce := by
  refine ⟨?_, ?_, ?_⟩
  · obtain ⟨entered, hwalk⟩ := ht.sites_depthFirst
    obtain ⟨hnodup, hlt⟩ := hwalk.positions ht ht.positions_entry
    exact ⟨entered, hwalk, hnodup, hlt⟩
  · intro i u hu
    rw [ht.sites_filter (List.getElem?_eq_some_iff.mp hu).1, sitesAt, hu]
  · intro opts
    unfold graph
    split
    · rename_i site hfind
      obtain ⟨-, before, after, hsites, -⟩ := List.find?_eq_some_iff_append.mp hfind
      exact .inr ⟨before, site, after, hsites, rfl⟩
    · exact .inl ⟨_, rfl⟩

end Trace

namespace Tracer

/-- What a trace took that came to an end. -/
structure ExpandsOnce (tracer : Tracer) (module function : String) (t : Trace) : Prop where
  /-- It is what the loop finds without a bound, and the loop expands nothing twice. -/
  explored : ∃ s visits s', tracer.enter module function = .ok (s, t.entry) ∧ Explores tracer s visits s' ∧
    s'.units = t.units ∧ s'.modules = t.modules ∧ s'.Frugal tracer visits
  /-- It takes one unit of fuel for each unit. -/
  fuel : ∀ fuel, tracer.trace? fuel module function = some (.ok t) ↔ t.units.length ≤ fuel
  walked : t.WalkedOnce

variable {tracer : Tracer} {module function : String} {t : Trace}

/-- A trace that comes to an end is found by the loop without a bound. -/
theorem trace?_eq_ok_iff {fuel : Nat} : tracer.trace? fuel module function = some (.ok t) ↔
    ∃ s visits s', tracer.enter module function = .ok (s, t.entry) ∧ Explores tracer s visits s' ∧
      visits.length ≤ fuel ∧ s'.units = t.units ∧ s'.modules = t.modules := by
  unfold trace?
  cases henter : tracer.enter module function with
  | error e => simp
  | ok entered =>
    obtain ⟨s, id⟩ := entered
    simp only [Option.map_eq_some_iff, Exploration.explore?_eq_some_iff, Except.ok.injEq]
    constructor
    · rintro ⟨s', ⟨visits, hexplores, hlen⟩, rfl⟩
      exact ⟨s, visits, s', rfl, hexplores, hlen, rfl, rfl⟩
    · rintro ⟨_, visits, s', hentered, hexplores, hlen, hunits, hmodules⟩
      obtain ⟨rfl, rfl⟩ := Prod.mk.inj hentered
      exact ⟨s', ⟨visits, hexplores, hlen⟩, by rw [hunits, hmodules]⟩

theorem expandsOnce {fuel : Nat} (h : tracer.trace? fuel module function = some (.ok t)) :
    tracer.ExpandsOnce module function t := by
  obtain ⟨s, visits, s', henter, hexplores, -, hunits, hmodules⟩ := trace?_eq_ok_iff.mp h
  refine ⟨⟨s, visits, s', henter, hexplores, hunits, hmodules, hexplores.frugal henter⟩, ?_,
    (trace?_coherent h).walkedOnce⟩
  intro fuel
  rw [trace?_eq_ok_iff]
  constructor
  · rintro ⟨s, visits, s', henter, hexplores, hlen, hunits, -⟩
    rwa [(hexplores.frugal henter).inOrder, hunits] at hlen
  · intro hlen
    refine ⟨s, visits, s', henter, hexplores, ?_, hunits, hmodules⟩
    rwa [(hexplores.frugal henter).inOrder, hunits]

/-- Entering a trace hands the entry module to the parser and no other one, whether or not it declares the
    function. -/
theorem requested_of_parse {ref : ModuleRef} {body : List Stmt} :
    ((Exploration.ofEntry (tracer.readModule module ref body)).unitFor tracer module
      function).1.requested = [module] :=
  Exploration.requested_unitFor (by simp [Exploration.ofEntry, moduleIn?, readModule]) function

/-- Where finitely many names resolve, the loop that a trace enters comes to an end. -/
theorem exists_explores (hfinite : { name | (tracer.resolve name).isSome = true }.Finite)
    {s : Exploration} {id : Nat} (henter : tracer.enter module function = .ok (s, id)) :
    ∃ visits s', Explores tracer s visits s' :=
  (Exploration.progress_of_enter henter).valid.exists_explores (finite_declares hfinite module)

/-- **Traces and their walks come to an end, and nothing is expanded twice.** The resolver may know any finite
    number of names. Whatever the modules call and import, the trace has an outcome. Entering it hands the
    entry module to the parser; and when it succeeds, it has handed no module to the parser twice and visited
    every unit once, it has at most as many units as the modules that it read have function names, and its
    walk enters every body at most once. -/
theorem trace?_terminates (hfinite : { name | (tracer.resolve name).isSome = true }.Finite)
    (module function : String) :
    (∃ enough outcome, ∀ fuel, enough ≤ fuel → tracer.trace? fuel module function = some outcome) ∧
    (∀ ref body, ((Exploration.ofEntry (tracer.readModule module ref body)).unitFor tracer module
      function).1.requested = [module]) ∧
    ∀ fuel t, tracer.trace? fuel module function = some (.ok t) →
      tracer.ExpandsOnce module function t := by
  refine ⟨?_, fun ref body => requested_of_parse, fun fuel t h => expandsOnce h⟩
  cases henter : tracer.enter module function with
  | error e =>
    -- a trace that cannot enter takes no fuel
    refine ⟨0, .error e, fun fuel _ => ?_⟩
    unfold trace?
    rw [henter]
  | ok entered =>
    obtain ⟨s, id⟩ := entered
    obtain ⟨visits, s', hexplores⟩ := exists_explores hfinite henter
    exact ⟨visits.length, .ok ⟨id, s'.units, s'.modules⟩, fun fuel hlen =>
      trace?_eq_ok_iff.mpr ⟨s, visits, s', henter, hexplores, hlen, rfl, rfl⟩⟩

end Tracer

/-! ## Programs in memory -/

namespace Program

variable {p : Program}

/-- A program resolves the names of its modules. -/
theorem finite_resolve (p : Program) : { name | (p.resolve name).isSome = true }.Finite := by
  refine ((p.modules.map (·.ref.name)).finite_toSet).subset ?_
  intro name hname
  obtain ⟨ref, href⟩ := Option.isSome_iff_exists.mp hname
  obtain ⟨m, hm, -⟩ := Option.map_eq_some_iff.mp href
  exact List.mem_map.mpr ⟨m, List.mem_of_find?_eq_some hm, by simpa using List.find?_some hm⟩

/-- The functions that a program declares are counted in its size. -/
theorem declares_subset {clients : Clients} {entry : String} {f : FunctionKey}
    (h : Tracer.Declares ⟨p.resolve, p.parse, clients⟩ entry f) :
    f ∈ p.modules.flatMap fun m =>
      (Stmt.functionsIn (m.body.getD [])).map fun d => (m.ref.name, d.name) := by
  obtain ⟨src, d, hsrc, hd⟩ := h
  obtain ⟨name, called⟩ := f
  have hcalled : d.name = called := by simpa using List.find?_some hd
  unfold Tracer.source? resolve parse at hsrc
  cases hm : p.find? name with
  | none => simp [hm] at hsrc
  | some m =>
    have hname : m.ref.name = name := by simpa using List.find?_some hm
    simp only [hm, Option.map_some, Option.bind_some] at hsrc
    obtain ⟨-, hsrc⟩ := Option.ite_none_right_eq_some.mp hsrc
    cases hbody : m.body with
    | none => simp [hbody] at hsrc
    | some body =>
      rw [hbody] at hsrc
      obtain rfl := Option.some.inj hsrc
      refine List.mem_flatMap.mpr ⟨m, List.mem_of_find?_eq_some hm, List.mem_map.mpr ⟨d, ?_, ?_⟩⟩
      · rw [hbody, Option.getD_some]
        exact List.mem_of_find?_eq_some hd
      · rw [hname, hcalled]

/-- A trace through a program in memory always has an outcome. -/
theorem trace?_isSome (p : Program) (clients : Clients) (module function : String) :
    (p.trace? clients module function).isSome = true := by
  refine Tracer.trace?_isSome (fun f hf => declares_subset hf) ?_ function
  simp [size, List.length_flatMap]

end Program

/-! ## File trees -/

namespace FileTree

variable {tree : FileTree} {entry : Path} {function : String} {catalog : Catalog} {opts : AnalysisOptions}

theorem parseModule_ne_unfinished (maxSize : Nat) (name : String) (path : Path) :
    tree.parseModule maxSize name path ≠ .error .unfinished := by
  unfold parseModule
  split
  · simp
  · cases hread : tree.read path with
    | error e =>
      have he : e = .unreadable path := by
        unfold read at hread
        split at hread
        · exact absurd hread nofun
        · exact (Except.error.inj hread).symm
      simp [he]
    | ok text => cases tree.parseTree? path <;> simp

theorem entryModule_ne_unfinished (root entry : Path) : tree.entryModule root entry ≠ .error .unfinished := by
  simp only [entryModule]
  split <;> simp

/-- Failing at the entry is no lack of fuel. -/
theorem ne_unfinished_of_entryFails {root : Path} {module : String} {e : Error}
    (h : (tree.tracerFor root catalog opts).EntryFails module function e) : e ≠ .unfinished := by
  cases h with
  | unresolved _ => simp
  | unparsed _ hparse =>
    rintro rfl
    exact parseModule_ne_unfinished _ module _ hparse
  | undeclared _ _ _ => simp

/-- A run ends unfinished only when its trace does. -/
theorem trace?_eq_none_of_analyze (h : tree.analyze entry function catalog opts = .error .unfinished) :
    ∃ module, tree.entryModule (opts.root.getD (tree.defaultRoot entry)) entry = .ok module ∧
      (tree.tracerFor (opts.root.getD (tree.defaultRoot entry)) catalog opts).trace? tree.traceFuel module
        function = none := by
  rcases of_bind_eq_error h with hmodule | ⟨module, hmodule, h⟩
  · exact absurd hmodule (entryModule_ne_unfinished _ _)
  refine ⟨module, hmodule, ?_⟩
  rcases of_bind_eq_error h with htrace | ⟨t, -, h⟩
  · change ((tree.tracerFor _ catalog opts).trace? tree.traceFuel module function).getD _ = _ at htrace
    cases htraced : (tree.tracerFor (opts.root.getD (tree.defaultRoot entry)) catalog opts).trace?
        tree.traceFuel module function with
    | none => rfl
    | some result =>
      rw [htraced, Option.getD_some] at htrace
      obtain rfl := htrace
      exact absurd rfl (ne_unfinished_of_entryFails (Tracer.trace?_eq_error_iff.mp htraced))
  · -- the graph fails at a call site
    rcases of_bind_eq_error h with hgraph | ⟨g, -, h⟩
    · unfold Trace.graph at hgraph
      split at hgraph <;> exact absurd hgraph (by simp [CallSite.unrecognized])
    · exact absurd h nofun

/-- A run comes to an end when the modules that it can read declare no more functions than it has fuel for. -/
theorem analyze_ne_unfinished {declared : List FunctionKey}
    (hcover : ∀ module f, tree.entryModule (opts.root.getD (tree.defaultRoot entry)) entry = .ok module →
      (tree.tracerFor (opts.root.getD (tree.defaultRoot entry)) catalog opts).Declares module f → f ∈ declared)
    (hfuel : declared.length ≤ tree.traceFuel) :
    tree.analyze entry function catalog opts ≠ .error .unfinished := by
  intro h
  obtain ⟨module, hmodule, hnone⟩ := trace?_eq_none_of_analyze h
  have hsome := Tracer.trace?_isSome (fun f hf => hcover module f hmodule hf) hfuel function
  rw [hnone] at hsome
  exact Bool.false_ne_true hsome

end FileTree

/-- The trace of the shop comes to an end, although its functions call each other in a circle. -/
theorem shop_terminates : { name | (shopTracer.resolve name).isSome = true }.Finite ∧
    ∃ t, shopTracer.trace? 3 "shop" "main" = some (.ok t) ∧ shopTracer.ExpandsOnce "shop" "main" t := by
  have hfinite : { name | (shopTracer.resolve name).isSome = true }.Finite := shopProgram.finite_resolve
  obtain ⟨t, ht, -⟩ := shop_traced
  exact ⟨hfinite, t, ht, (Tracer.trace?_terminates hfinite "shop" "main").2.2 3 t ht⟩

end ServiceTrace
