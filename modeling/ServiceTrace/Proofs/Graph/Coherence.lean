import Mathlib.Logic.Relation
import ServiceTrace.Graph.Walk
import ServiceTrace.Proofs.Trace.Closure

/-!
# `ServiceTrace.Proofs.Graph.Coherence` — what a graph may rely on

A call graph is drawn from a trace alone; it never sees the sources again. What it relies on is that the
trace is *coherent*: units are numbered by their positions, no function has two of them, each lies in a
module of the trace, and each is reached from the entry through the call sites of units. The last point
is where the two readings of calls meet, the one that found the units and the one that draws them.

`Tracer.trace?_coherent` says that every trace which comes to an end is coherent.
-/

namespace ServiceTrace

namespace Trace

variable {t : Trace}

/-- One unit calls another: some call site of it leads there. -/
def Calls (t : Trace) (i j : Nat) : Prop :=
  ∃ site ∈ t.sitesAt i, t.callee? site = some j

/-- What a graph may rely on. -/
structure Coherent (t : Trace) : Prop where
  numbered : ∀ (i : Nat) (u : FunctionUnit), t.units[i]? = some u → u.id = i
  single : (t.units.map FunctionUnit.key).Nodup
  entry_lt : t.entry < t.units.length
  homes : ∀ u ∈ t.units, (t.module? u.module).isSome = true
  reached : ∀ i < t.units.length, Relation.ReflTransGen t.Calls t.entry i

/-- A site leads to the unit of the function that it refers to. -/
theorem callee?_eq (t : Trace) (site : CallSite) :
    t.callee? site =
      (site.target.function? site.unit.module).bind fun f => t.unitId? f.1 f.2 := by
  unfold callee? CallTarget.function?
  cases site.target <;> rfl

theorem Coherent.unitId?_eq_some_iff (h : t.Coherent) {f : FunctionKey} {i : Nat} :
    t.unitId? f.1 f.2 = some i ↔ ∃ u, t.units[i]? = some u ∧ u.key = f :=
  unitIdIn?_eq_some_iff h.numbered h.single

/-- A site leads to a position of the trace. -/
theorem Coherent.callee?_lt (h : t.Coherent) {site : CallSite} {i : Nat}
    (hi : t.callee? site = some i) : i < t.units.length := by
  rw [callee?_eq] at hi
  obtain ⟨f, -, hf⟩ := Option.bind_eq_some_iff.mp hi
  obtain ⟨u, hu, -⟩ := h.unitId?_eq_some_iff.mp hf
  exact (List.getElem?_eq_some_iff.mp hu).1

/-- The sites at a position are those of the unit there: the calls of its body with what they refer to in
    its scope. -/
theorem Coherent.sitesAt_eq (h : t.Coherent) {i : Nat} {u : FunctionUnit}
    (hu : t.units[i]? = some u) : ∃ m, t.module? u.module = some m ∧
      t.sitesAt i =
        (Stmt.callsIn u.body).map fun c => ⟨u, c, (m.scope u.localImports).classify c⟩ := by
  obtain ⟨m, hm⟩ := Option.isSome_iff_exists.mp (h.homes u (List.mem_of_getElem? hu))
  refine ⟨m, hm, ?_⟩
  unfold module? at hm
  unfold sitesAt sitesOf
  rw [hu]
  simp only [hm]

/-- A site at a position belongs to the unit there. -/
theorem Coherent.unit_of_mem_sitesAt (h : t.Coherent) {i : Nat} {site : CallSite}
    (hs : site ∈ t.sitesAt i) : t.units[i]? = some site.unit ∧ site.unit.id = i := by
  unfold sitesAt at hs
  cases hu : t.units[i]? with
  | none =>
    rw [hu] at hs
    exact absurd hs List.not_mem_nil
  | some u =>
    rw [hu] at hs
    obtain rfl := unit_of_mem_sitesOf hs
    exact ⟨rfl, h.numbered i site.unit hu⟩

end Trace

/-- **A trace that comes to an end is coherent.** -/
theorem Tracer.trace?_coherent {tracer : Tracer} {fuel : Nat} {module function : String} {t : Trace}
    (h : tracer.trace? fuel module function = some (.ok t)) : t.Coherent := by
  obtain ⟨s, hp, hunits, hmodules, hdone⟩ := Exploration.exists_progress h
  have hv := hp.valid
  have hlookup : ∀ (f : FunctionKey) (i : Nat),
      t.unitId? f.1 f.2 = some i ↔ ∃ u, s.units[i]? = some u ∧ u.key = f := fun f i =>
    hunits ▸ unitIdIn?_eq_some_iff hv.numbered hv.single
  refine ⟨hunits ▸ hv.numbered, hunits ▸ hv.single, ?_, ?_, ?_⟩
  · obtain ⟨u, hu, -⟩ := hp.entry
    exact hunits ▸ (List.getElem?_eq_some_iff.mp hu).1
  · intro u hu
    rw [Trace.module?, ← hmodules]
    exact hv.known u (hunits ▸ hu)
  · -- the functions whose unit is reached are closed, so every function found is among them
    let S : Set FunctionKey := { f | ∃ i u, s.units[i]? = some u ∧ u.key = f ∧
      Relation.ReflTransGen t.Calls t.entry i }
    have hS : tracer.Closed module function S := by
      constructor
      · obtain ⟨u, hu, hkey⟩ := hp.entry
        exact ⟨t.entry, u, hu, hkey, .refl⟩
      · rintro _ ⟨i, u, hu, rfl, hreach⟩ g hg
        have hgfound := hdone u (List.mem_of_getElem? hu) g hg
        obtain ⟨v, hv', rfl⟩ := List.mem_map.mp hgfound
        obtain ⟨j, hj⟩ := List.mem_iff_getElem?.mp hv'
        obtain ⟨⟨site, hsite, hf⟩, -⟩ := (hv.mem_sitesOf hu).mpr hg
        refine ⟨j, v, hj, rfl, hreach.tail ⟨site, ?_, ?_⟩⟩
        · rw [Trace.sitesAt, ← hunits, hu, ← hmodules]
          exact hsite
        · rw [Trace.callee?_eq, unit_of_mem_sitesOf hsite, hf, Option.bind_some]
          exact (hlookup _ _).mpr ⟨v, hj, rfl⟩
    intro i hi
    have hu : s.units[i]? = some t.units[i] := by rw [hunits, List.getElem?_eq_getElem hi]
    obtain ⟨j, v, hj, hkey, hreach⟩ :=
      hp.sound t.units[i].key (List.mem_map_of_mem (List.mem_of_getElem? hu)) S hS
    have hij : i = j := by
      have hi' := (hlookup t.units[i].key i).mpr ⟨_, hu, rfl⟩
      have hj' := (hlookup t.units[i].key j).mpr ⟨v, hj, hkey⟩
      exact Option.some.inj (hi'.symm.trans hj')
    exact hij ▸ hreach

end ServiceTrace
