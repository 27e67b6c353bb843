import Mathlib.Order.Bounds.Basic
import ServiceTrace.Proofs.Trace.Exploration
import ServiceTrace.Trace.Program

/-!
# `ServiceTrace.Proofs.Trace.Closure` — a trace is the least closed set of functions

A trace finds the entry and whatever it leads to, and nothing else. The argument is that of any worklist:
the functions found so far lie in every closed set (`Progress.sound`), and the functions that a visited
unit leads to are found (`Progress.done`). At the end every unit has been visited, so that the functions
found are closed themselves.

`Trace.Exact` puts this together with what the trace says about each function and each module, and
`Tracer.trace?_exact` is the theorem. `Exploration.exists_progress` is the form that other facts about
traces start from.
-/

namespace ServiceTrace

/-- Whether a set of functions holds the entry and everything that its members lead to. -/
def Tracer.Closed (tracer : Tracer) (module function : String) (S : Set FunctionKey) : Prop :=
  (module, function) ∈ S ∧ ∀ f ∈ S, ∀ g, tracer.Leads module f g → g ∈ S

/-- The functions that a trace has found. -/
def Trace.functions (t : Trace) : Set FunctionKey :=
  { f | ∃ u ∈ t.units, u.key = f }

/-! ## Progress -/

namespace Exploration

/-- What a trace from `function` in `module` knows on its way; `id` is the position of the entry. -/
structure Progress (tracer : Tracer) (module function : String) (id : Nat) (s : Exploration) :
    Prop where
  valid : s.Valid tracer module
  entry : ∃ u, s.units[id]? = some u ∧ u.key = (module, function)
  /-- What is found lies in every closed set. -/
  sound : ∀ f ∈ s.functions, ∀ S, tracer.Closed module function S → f ∈ S
  /-- What a visited unit leads to is found. -/
  done : ∀ i u, i < s.visited → s.units[i]? = some u →
    ∀ g, tracer.Leads module u.key g → g ∈ s.functions

variable {tracer : Tracer} {module function : String} {id : Nat} {s s' : Exploration}

/-- A position that was taken before keeps its unit. -/
theorem Grows.getElem? {entry : String} {asked : FunctionKey → Prop}
    (h : Grows tracer entry asked s s') {i : Nat} {u : FunctionUnit} (hu : s.units[i]? = some u) :
    s'.units[i]? = some u := by
  obtain ⟨rest, hrest⟩ := h.units
  rw [← hrest, List.getElem?_append_left (List.getElem?_eq_some_iff.mp hu).1, hu]

/-- A unit at a position that was taken before was there before. -/
theorem Grows.getElem?_of_lt {entry : String} {asked : FunctionKey → Prop}
    (h : Grows tracer entry asked s s') {i : Nat} {u : FunctionUnit} (hi : i < s.units.length)
    (hu : s'.units[i]? = some u) : s.units[i]? = some u := by
  have hold := h.getElem? (List.getElem?_eq_getElem hi)
  rw [hu] at hold
  rw [List.getElem?_eq_getElem hi, hold]

/-- Visiting the next unit makes progress. -/
theorem Progress.visit (h : s.Progress tracer module function id) {u : FunctionUnit}
    (hu : s.units[s.visited]? = some u) : (s.visit tracer u).Progress tracer module function id := by
  have hgrow := h.valid.visit hu
  have hvisited : (s.visit tracer u).visited = s.visited + 1 := hgrow.visited
  have hfound : u.key ∈ s.functions := List.mem_map_of_mem (List.mem_of_getElem? hu)
  refine ⟨hgrow.valid, ?_, ?_, ?_⟩
  · obtain ⟨e, he, hkey⟩ := h.entry
    exact ⟨e, hgrow.getElem? he, hkey⟩
  · intro f hf S hS
    rcases (hgrow.functions f).mp hf with hf | ⟨hleads, -⟩
    · exact h.sound f hf S hS
    · exact hS.2 u.key (h.sound u.key hfound S hS) f hleads
  · intro i v hi hv g hg
    rw [hgrow.functions]
    rw [hvisited] at hi
    have hlen : s.visited < s.units.length := (List.getElem?_eq_some_iff.mp hu).1
    have hlt : i < s.units.length := by omega
    have hold : s.units[i]? = some v := hgrow.getElem?_of_lt hlt hv
    rcases Nat.lt_succ_iff_lt_or_eq.mp hi with hi | rfl
    · exact Or.inl (h.done i v hi hold g hg)
    · obtain rfl : u = v := Option.some.inj (hu.symm.trans hold)
      exact Or.inr ⟨hg, hg.declares⟩

/-- The state in which only the entry module is known is valid. -/
theorem valid_ofEntry {src : ModuleSource} (hsrc : tracer.source? module module = some src) :
    (ofEntry (tracer.readModule module src.ref src.body)).Valid tracer module where
  reads m hm := by
    obtain rfl : m = tracer.readModule module src.ref src.body := by simpa [ofEntry] using hm
    exact ⟨src, hsrc, tracer.reads_readModule module src⟩
  entryKnown := by simp [ofEntry, moduleIn?, Tracer.readModule]
  unavailable name hname := absurd hname List.not_mem_nil
  units i u hu := by simp [ofEntry] at hu
  single := List.nodup_nil
  known u hu := absurd hu List.not_mem_nil

/-- Entering a trace reads the entry module and asks for the unit of the entry function. -/
theorem source_of_enter (h : tracer.enter module function = .ok (s, id)) :
    ∃ src, tracer.source? module module = some src ∧
      (ofEntry (tracer.readModule module src.ref src.body)).unitFor tracer module function =
        (s, some id) := by
  unfold Tracer.enter at h
  cases hres : tracer.resolve module with
  | none => simp [hres] at h
  | some ref =>
    cases hparse : tracer.parse module ref.path with
    | error e => simp [hres, hparse] at h
    | ok body =>
      have hsrc : tracer.source? module module = some ⟨ref, body⟩ := by
        simp [Tracer.source?, hres, hparse]
      refine ⟨⟨ref, body⟩, hsrc, ?_⟩
      simp only [hres, hparse] at h
      cases hunit : (ofEntry (tracer.readModule module ref body)).unitFor tracer module function with
      | mk s₁ id₁ =>
        rw [hunit] at h
        cases id₁ with
        | none => simp at h
        | some id₁ =>
          obtain ⟨rfl, rfl⟩ : s₁ = s ∧ id₁ = id := by simpa using h
          rfl

/-- Entering a trace finds the entry function. -/
theorem progress_of_enter (h : tracer.enter module function = .ok (s, id)) :
    s.Progress tracer module function id := by
  obtain ⟨src, hsrc, hunit⟩ := source_of_enter h
  have hv := valid_ofEntry hsrc
  obtain ⟨hgrow, -⟩ := hv.unitFor module function
  have hkey := hv.key_of_unitFor (i := id) (by rw [hunit])
  rw [hunit] at hgrow hkey
  refine ⟨hgrow.valid, hkey, ?_, ?_⟩
  · intro f hf S hS
    rcases (hgrow.functions f).mp hf with hf | ⟨rfl, -⟩
    · exact absurd hf List.not_mem_nil
    · exact hS.1
  · intro i u hi
    have hzero : s.visited = 0 := hgrow.visited
    omega

/-- In the end every unit has been visited. -/
theorem lt_visited (hend : s.units[s.visited]? = none) {i : Nat} {u : FunctionUnit}
    (hi : s.units[i]? = some u) : i < s.visited := by
  have hlen : i < s.units.length := (List.getElem?_eq_some_iff.mp hi).1
  exact Nat.lt_of_lt_of_le hlen (List.getElem?_eq_none_iff.mp hend)

/-- A finished trace comes from a state in which all units have been visited. Such a state has whatever
    entering a trace establishes and every visit keeps. -/
theorem exists_finished {fuel : Nat} {t : Trace} {P : Exploration → Prop}
    (henter : ∀ s id, tracer.enter module function = .ok (s, id) → P s)
    (hvisit : ∀ s u, s.Valid tracer module → P s → s.units[s.visited]? = some u →
      P (s.visit tracer u))
    (h : tracer.trace? fuel module function = some (.ok t)) :
    ∃ s : Exploration, s.Progress tracer module function t.entry ∧ P s ∧ s.units = t.units ∧
      s.modules = t.modules ∧ s.units[s.visited]? = none := by
  unfold Tracer.trace? at h
  cases hentered : tracer.enter module function with
  | error e => simp [hentered] at h
  | ok entered =>
    obtain ⟨s₀, entry⟩ := entered
    rw [hentered] at h
    obtain ⟨s, hexplore, hs⟩ := Option.map_eq_some_iff.mp h
    obtain rfl : (⟨entry, s.units, s.modules⟩ : Trace) = t := by simpa using hs
    obtain ⟨⟨hp, hP⟩, hend⟩ := explore?_preserves
      (P := fun s => Progress tracer module function entry s ∧ P s)
      (fun s u ⟨hp, hP⟩ hu => ⟨hp.visit hu, hvisit s u hp.valid hP hu⟩)
      ⟨progress_of_enter hentered, henter s₀ entry hentered⟩ hexplore
    exact ⟨s, hp, hP, rfl, rfl, hend⟩

/-- Where all units have been visited, what they lead to is found. -/
theorem exists_progress {fuel : Nat} {t : Trace}
    (h : tracer.trace? fuel module function = some (.ok t)) :
    ∃ s : Exploration, s.Progress tracer module function t.entry ∧ s.units = t.units ∧
      s.modules = t.modules ∧
      ∀ u ∈ s.units, ∀ g, tracer.Leads module u.key g → g ∈ s.functions := by
  obtain ⟨s, hp, -, hunits, hmodules, hend⟩ :=
    exists_finished (P := fun _ => True) (fun _ _ _ => trivial) (fun _ _ _ _ _ => trivial) h
  refine ⟨s, hp, hunits, hmodules, fun u hu g hg => ?_⟩
  obtain ⟨i, hi⟩ := List.mem_iff_getElem?.mp hu
  exact hp.done i u (lt_visited hend hi) hi g hg

end Exploration

/-! ## The contract of a trace -/

/-- A trace says about the sources what there is to say: it finds the least closed set of functions, each
    under one number, with annotated bodies, and of every module it keeps the declared names and the
    bindings. -/
structure Trace.Exact (tracer : Tracer) (module function : String) (t : Trace) : Prop where
  /-- The functions found are the least set that holds the entry and is closed under calls. -/
  least : IsLeast { S | tracer.Closed module function S } t.functions
  /-- No function has two units. -/
  single : (t.units.map FunctionUnit.key).Nodup
  /-- Units are numbered by their positions. -/
  numbered : ∀ (i : Nat) (u : FunctionUnit), t.units[i]? = some u → u.id = i
  /-- Looking up a function inverts the numbering. -/
  lookup : ∀ (f : FunctionKey) (i : Nat),
    t.unitId? f.1 f.2 = some i ↔ ∃ u, t.units[i]? = some u ∧ u.key = f
  entry : t.unitId? module function = some t.entry
  /-- A unit has the body that its function is declared with, with annotations added, and the imports
      written inside that body. -/
  bodies : ∀ u ∈ t.units, ∃ src d, tracer.source? module u.module = some src ∧
    Stmt.functionIn? src.body u.name = some d ∧ tracer.clients.Annotates d.body u.body ∧
    u.localImports = tracer.localImportsOf src d
  /-- A unit lies in a module of the trace. -/
  homes : ∀ u ∈ t.units, (t.module? u.module).isSome = true
  /-- A module has the names that its source declares and the bindings that its imports make. -/
  modules : ∀ name m, t.module? name = some m → ∃ src, tracer.source? module name = some src ∧
    (∀ g, g ∈ m.declared ↔ ∃ d ∈ Stmt.functionsIn src.body, d.name = g) ∧
    m.imports.bindings = (tracer.importsOf src).bindings

/-- **A trace that comes to an end is exact**, whatever the modules and however they call each other. -/
theorem Tracer.trace?_exact {tracer : Tracer} {fuel : Nat} {module function : String} {t : Trace}
    (h : tracer.trace? fuel module function = some (.ok t)) : t.Exact tracer module function := by
  obtain ⟨s, hp, hunits, hmodules, hdone⟩ := Exploration.exists_progress h
  have hv := hp.valid
  have hfunctions : ∀ f, f ∈ s.functions ↔ f ∈ t.functions := fun f => by
    rw [Exploration.functions, hunits, List.mem_map]
    rfl
  have hlookup : ∀ (f : FunctionKey) (i : Nat),
      t.unitId? f.1 f.2 = some i ↔ ∃ u, t.units[i]? = some u ∧ u.key = f := fun _ _ =>
    unitIdIn?_eq_some_iff (hunits ▸ hv.numbered) (hunits ▸ hv.single)
  refine ⟨⟨⟨?_, ?_⟩, ?_⟩, hunits ▸ hv.single, hunits ▸ hv.numbered, hlookup, ?_, ?_, ?_, ?_⟩
  · obtain ⟨u, hu, hkey⟩ := hp.entry
    exact ⟨u, hunits ▸ List.mem_of_getElem? hu, hkey⟩
  · rintro _ ⟨u, hu, rfl⟩ g hg
    exact (hfunctions g).mp (hdone u (hunits ▸ hu) g hg)
  · exact fun S hS f hf => hp.sound f ((hfunctions f).mpr hf) S hS
  · exact (hlookup (module, function) t.entry).mpr (hunits ▸ hp.entry)
  · intro u hu
    obtain ⟨i, hi⟩ := List.mem_iff_getElem?.mp (hunits ▸ hu)
    obtain ⟨src, d, hsrc, hd, heq⟩ := hv.units i u hi
    refine ⟨src, d, hsrc, hd, ?_, by rw [heq]; rfl⟩
    rw [heq]
    exact tracer.clients.annotates_annotate d.body
  · intro u hu
    rw [Trace.module?, ← hmodules]
    exact hv.known u (hunits ▸ hu)
  · intro name m hm
    rw [Trace.module?, ← hmodules] at hm
    obtain ⟨src, hsrc, hr⟩ := hv.source_of_moduleIn? hm
    refine ⟨src, hsrc, fun g => ?_, hr.bindings⟩
    rw [hr.declared, NameSet.mem_ofList, List.mem_map]

/-- A shop: its main function adds to the cart and asks the service behind it for the items, and calls a
    function that calls it back. The stock does not belong to the project. -/
def shopProgram : Program where
  modules := [
    { ref := ⟨"shop", ⟨"shop.py"⟩, true⟩
      body := some [
        .imports [⟨"cart", none⟩] 1,
        .function ⟨"main", [], [], [
          .expr (.call ⟨.attribute (.name "cart") "add", [], [], 4, none⟩) 4,
          .expr (.call ⟨.name "refill", [], [], 5, none⟩) 5,
          .expr (.call ⟨.attribute (.name "requests") "get", [.str "/cart/items/"], [], 6, none⟩) 6,
          .expr (.call ⟨.attribute (.name "cart") "add", [], [], 7, none⟩) 7], false, 3⟩,
        .function ⟨"refill", [], [], [
          .importFrom "stock" [⟨"order", none⟩] false 10,
          .expr (.call ⟨.name "order", [], [], 11, none⟩) 11,
          .expr (.call ⟨.name "main", [], [], 12, none⟩) 12], false, 9⟩] },
    { ref := ⟨"cart", ⟨"cart.py"⟩, true⟩
      body := some [
        .function ⟨"add", [], [], [
          .expr (.call ⟨.attribute (.name "httpx") "post", [.str "/log/"], [], 2, none⟩) 2], false, 1⟩,
        .function ⟨"items", [], [], [], false, 4⟩] },
    { ref := ⟨"stock", ⟨"stock.py"⟩, false⟩
      body := none }]

/-- What the shop is traced with. The catalog has one route, which the cart serves. -/
def shopTracer : Tracer where
  resolve := shopProgram.resolve
  parse := shopProgram.parse
  clients := .ofNames ⟨[⟨"/cart/items/", ["GET"], "cc", "cart", "items", none, none, none⟩]⟩
    ["requests", "httpx"]

theorem shop_traced : ∃ t, shopTracer.trace? 3 "shop" "main" = some (.ok t) ∧
    t.units.map FunctionUnit.key = [("shop", "main"), ("cart", "add"), ("shop", "refill")] :=
  ⟨_, rfl, rfl⟩

/-- The trace of the shop is exact. -/
theorem shop_exact : ∃ t, shopTracer.trace? 3 "shop" "main" = some (.ok t) ∧
    t.Exact shopTracer "shop" "main" := by
  obtain ⟨t, h, -⟩ := shop_traced
  exact ⟨t, h, Tracer.trace?_exact h⟩

end ServiceTrace
