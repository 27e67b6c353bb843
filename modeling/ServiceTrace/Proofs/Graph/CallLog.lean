import ServiceTrace.Proofs.Graph.Draft

/-!
# `ServiceTrace.Proofs.Graph.CallLog` — edges are a log of calls

A draft writes a call into its edges as soon as it comes to it, also while other calls of the same body
still wait for the walk to return. What the edges come to does not depend on that: `Records` says that
they are a *log* of calls, sorted by the nodes that the calls join. There is one edge for two nodes that
the log joins, and its lines are those of the calls between them, in the order of the log.

* `Records.addCall` — one more call keeps the edges true to the log.
* `Draft.trail` — the sites that a draft comes to, with the nodes that they lead to.
* `Records.record` — one more site keeps the edges true to the trail; `Draft.foldl_trail` — what a site
  keeps, a whole trail keeps.
-/

namespace ServiceTrace

/-- A call as the edges have it. -/
structure RecordedCall where
  start : Nat
  stop : Nat
  line : Nat

/-- The lines of the calls between two nodes, in the order of the log. -/
def linesBetween (log : List RecordedCall) (start stop : Nat) : List Nat :=
  (log.filter fun c => c.start = start ∧ c.stop = stop).map (·.line)

/-- The nodes that an edge joins. -/
def CallEdge.ends (e : CallEdge) : Nat × Nat :=
  (e.start, e.stop)

/-- Edges are what a log comes to. -/
structure Records (log : List RecordedCall) (edges : List CallEdge) : Prop where
  /-- No two edges join the same nodes. -/
  single : (edges.map CallEdge.ends).Nodup
  lines : ∀ e ∈ edges, e.lines = linesBetween log e.start e.stop
  called : ∀ e ∈ edges, e.lines ≠ []
  found : ∀ c ∈ log, (c.start, c.stop) ∈ edges.map CallEdge.ends

theorem linesBetween_append (log more : List RecordedCall) (start stop : Nat) :
    linesBetween (log ++ more) start stop =
      linesBetween log start stop ++ linesBetween more start stop := by
  unfold linesBetween
  rw [List.filter_append, List.map_append]

theorem linesBetween_self (c : RecordedCall) : linesBetween [c] c.start c.stop = [c.line] := by
  simp [linesBetween]

theorem linesBetween_other {c : RecordedCall} {start stop : Nat}
    (h : (c.start, c.stop) ≠ (start, stop)) : linesBetween [c] start stop = [] := by
  unfold linesBetween
  rw [List.map_eq_nil_iff, List.filter_eq_nil_iff]
  intro c' hc' he
  obtain rfl := List.mem_singleton.mp hc'
  exact h (Prod.ext_iff.mpr (of_decide_eq_true he))

theorem linesBetween_ne_nil {log : List RecordedCall} {start stop : Nat} :
    linesBetween log start stop ≠ [] ↔ ∃ c ∈ log, c.start = start ∧ c.stop = stop := by
  unfold linesBetween
  rw [ne_eq, List.map_eq_nil_iff, List.filter_eq_nil_iff]
  simp

/-! ## One more call -/

/-- A call goes into the edge between its nodes, or into a new one when there is none. -/
theorem addCall_cases (start stop line : Nat) (edges : List CallEdge) :
    (∃ before e after, edges = before ++ e :: after ∧ e.ends = (start, stop) ∧
      addCall start stop line edges =
        before ++ { e with lines := e.lines ++ [line] } :: after) ∨
    ((start, stop) ∉ edges.map CallEdge.ends ∧
      addCall start stop line edges = edges ++ [⟨start, stop, [line]⟩]) := by
  induction edges with
  | nil => exact Or.inr ⟨List.not_mem_nil, rfl⟩
  | cons e es ih =>
    unfold addCall
    by_cases he : e.start = start ∧ e.stop = stop
    · rw [if_pos he]
      exact Or.inl ⟨[], e, es, rfl, Prod.ext_iff.mpr he, rfl⟩
    · rw [if_neg he]
      rcases ih with ⟨before, f, after, rfl, hf, hadd⟩ | ⟨hnone, hadd⟩
      · exact Or.inl ⟨e :: before, f, after, rfl, hf, by rw [hadd]; rfl⟩
      · refine Or.inr ⟨fun hmem => ?_, by rw [hadd]; rfl⟩
        rcases List.mem_cons.mp hmem with hhead | htail
        · exact he (Prod.ext_iff.mp hhead.symm)
        · exact hnone htail

theorem mem_ends_addCall {start stop line : Nat} {edges : List CallEdge} {p : Nat × Nat} :
    p ∈ (addCall start stop line edges).map CallEdge.ends ↔
      p = (start, stop) ∨ p ∈ edges.map CallEdge.ends := by
  rcases addCall_cases start stop line edges with ⟨before, e, after, rfl, he, hadd⟩ | ⟨-, hadd⟩
  · rw [hadd, List.map_append, List.map_append, List.map_cons, List.map_cons]
    show p ∈ _ ++ e.ends :: _ ↔ _
    rw [he, List.mem_append, List.mem_cons]
    exact ⟨Or.inr, fun h => h.elim (fun hp => Or.inr (Or.inl hp)) id⟩
  · rw [hadd, List.map_append, List.mem_append, or_comm]
    exact or_congr_left List.mem_singleton

variable {log : List RecordedCall} {edges : List CallEdge}

theorem records_nil : Records [] [] :=
  ⟨List.nodup_nil, fun _ he => absurd he List.not_mem_nil, fun _ he => absurd he List.not_mem_nil,
    fun _ hc => absurd hc List.not_mem_nil⟩

/-- A call leaves the lines of every other edge what they were. -/
theorem Records.lines_other (h : Records log edges) {c : RecordedCall} {e : CallEdge} (he : e ∈ edges)
    (hne : e.ends ≠ (c.start, c.stop)) : e.lines = linesBetween (log ++ [c]) e.start e.stop := by
  rw [linesBetween_append, linesBetween_other hne.symm, List.append_nil]
  exact h.lines e he

/-- The lines of the edge that a call goes into. -/
theorem Records.lines_self (h : Records log edges) {c : RecordedCall} {e : CallEdge} (he : e ∈ edges)
    (hends : e.ends = (c.start, c.stop)) :
    e.lines ++ [c.line] = linesBetween (log ++ [c]) e.start e.stop := by
  obtain ⟨hstart, hstop⟩ := Prod.mk.inj hends
  rw [linesBetween_append, h.lines e he, hstart, hstop, linesBetween_self]

/-- There is one edge with given ends: those before and behind it have others. -/
theorem ends_ne_of_nodup {before after : List CallEdge} {e : CallEdge}
    (h : ((before ++ e :: after).map CallEdge.ends).Nodup) :
    ∀ f ∈ before ++ after, f.ends ≠ e.ends := by
  rw [List.map_append, List.map_cons, List.nodup_append] at h
  obtain ⟨-, hafter, hbefore⟩ := h
  intro f hf heq
  rcases List.mem_append.mp hf with hf | hf
  · exact hbefore _ (List.mem_map_of_mem hf) _ List.mem_cons_self heq
  · exact (List.nodup_cons.mp hafter).1 (heq ▸ List.mem_map_of_mem hf)

/-- **One more call** at the end of the log goes into the edge between its nodes. -/
theorem Records.addCall (h : Records log edges) (c : RecordedCall) :
    Records (log ++ [c]) (ServiceTrace.addCall c.start c.stop c.line edges) := by
  have hfound : ∀ c' ∈ log ++ [c], (c'.start, c'.stop) ∈
      (ServiceTrace.addCall c.start c.stop c.line edges).map CallEdge.ends := by
    intro c' hc'
    rcases List.mem_append.mp hc' with hc' | hc'
    · exact mem_ends_addCall.mpr (Or.inr (h.found c' hc'))
    · obtain rfl := List.mem_singleton.mp hc'
      exact mem_ends_addCall.mpr (Or.inl rfl)
  rcases addCall_cases c.start c.stop c.line edges with
    ⟨before, e, after, rfl, he, hadd⟩ | ⟨hnone, hadd⟩
  · have hother : ∀ f ∈ before ++ after,
        f ∈ before ++ e :: after ∧ f.ends ≠ (c.start, c.stop) := fun f hf =>
      ⟨List.perm_middle.mem_iff.mpr (List.mem_cons_of_mem e hf),
        he ▸ ends_ne_of_nodup h.single f hf⟩
    have hself : e ∈ before ++ e :: after := List.mem_append_right _ List.mem_cons_self
    rw [hadd] at hfound ⊢
    refine ⟨?_, fun f hf => ?_, fun f hf => ?_, hfound⟩
    · have hsingle := h.single
      rw [List.map_append] at hsingle ⊢
      exact hsingle
    · rcases List.mem_cons.mp (List.perm_middle.mem_iff.mp hf) with rfl | hf
      · exact h.lines_self hself he
      · exact h.lines_other (hother f hf).1 (hother f hf).2
    · rcases List.mem_cons.mp (List.perm_middle.mem_iff.mp hf) with rfl | hf
      · exact List.append_ne_nil_of_right_ne_nil _ (List.cons_ne_nil _ _)
      · exact h.called f (hother f hf).1
  · have hempty : linesBetween log c.start c.stop = [] := by
      by_contra hne
      obtain ⟨c', hc', hstart, hstop⟩ := linesBetween_ne_nil.mp hne
      exact hnone (hstart ▸ hstop ▸ h.found c' hc')
    rw [hadd] at hfound ⊢
    refine ⟨?_, fun f hf => ?_, fun f hf => ?_, hfound⟩
    · rw [List.map_append]
      exact h.single.append (List.nodup_singleton _) (List.disjoint_singleton.mpr hnone)
    · rcases List.mem_append.mp hf with hf | hf
      · exact h.lines_other hf fun he => hnone (he ▸ List.mem_map_of_mem hf)
      · obtain rfl := List.mem_singleton.mp hf
        rw [linesBetween_append, hempty, linesBetween_self]
        rfl
    · rcases List.mem_append.mp hf with hf | hf
      · exact h.called f hf
      · obtain rfl := List.mem_singleton.mp hf
        exact List.cons_ne_nil _ _

/-- There is an edge between two nodes exactly when the log joins them. -/
theorem Records.mem_ends (h : Records log edges) {start stop : Nat} :
    (start, stop) ∈ edges.map CallEdge.ends ↔ ∃ c ∈ log, c.start = start ∧ c.stop = stop := by
  constructor
  · intro hmem
    obtain ⟨e, he, hends⟩ := List.mem_map.mp hmem
    obtain ⟨rfl, rfl⟩ := Prod.mk.inj hends
    exact linesBetween_ne_nil.mp (h.lines e he ▸ h.called e he)
  · rintro ⟨c, hc, rfl, rfl⟩
    exact h.found c hc

/-- A recorded call has its line on the edge between its nodes. -/
theorem Records.exists_edge (h : Records log edges) {c : RecordedCall} (hc : c ∈ log) :
    ∃ e ∈ edges, e.start = c.start ∧ e.stop = c.stop ∧ c.line ∈ e.lines := by
  obtain ⟨e, he, hends⟩ := List.mem_map.mp (h.found c hc)
  obtain ⟨hstart, hstop⟩ := Prod.mk.inj hends
  refine ⟨e, he, hstart, hstop, ?_⟩
  rw [h.lines e he, hstart, hstop]
  exact List.mem_map_of_mem (List.mem_filter.mpr ⟨hc, decide_eq_true ⟨rfl, rfl⟩⟩)

/-! ## The trail of a draft -/

namespace Draft

/-- The sites that a draft comes to, with the nodes that they lead to. -/
def trail (opts : GraphOptions) (t : Trace) : Draft → List CallSite → List (CallSite × Option Nat)
  | _, [] => []
  | d, site :: rest =>
    (site, (d.reach opts t site).map (·.2)) :: (d.record opts t site).trail opts t rest

/-- The calls of a trail that lead to a node. -/
def logOf (trail : List (CallSite × Option Nat)) : List RecordedCall :=
  trail.filterMap fun (site, target) => target.map fun stop => ⟨site.unit.id, stop, site.call.line⟩

variable {opts : GraphOptions} {t : Trace}

theorem trail_sites (opts : GraphOptions) (t : Trace) (d : Draft) (sites : List CallSite) :
    (d.trail opts t sites).map (·.1) = sites := by
  induction sites generalizing d with
  | nil => rfl
  | cons site rest ih => exact congrArg (site :: ·) (ih _)

/-- The trail up to a site is followed by that site, with the node that it leads to. -/
theorem trail_concat (opts : GraphOptions) (t : Trace) (d : Draft) (met : List CallSite)
    (site : CallSite) : d.trail opts t (met ++ [site]) = d.trail opts t met ++
      [(site, ((met.foldl (Draft.record opts t) d).reach opts t site).map (·.2))] := by
  induction met generalizing d with
  | nil => rfl
  | cons first met ih => exact congrArg (_ :: ·) (ih (d.record opts t first))

/-- Every target of a trail comes from leading some draft to its node. -/
theorem exists_reach_of_mem_trail {d : Draft} {sites : List CallSite} {site : CallSite}
    {target : Option Nat} (h : (site, target) ∈ d.trail opts t sites) :
    ∃ d' : Draft, target = (d'.reach opts t site).map (·.2) := by
  induction sites generalizing d with
  | nil => exact absurd h List.not_mem_nil
  | cons first rest ih =>
    rcases List.mem_cons.mp h with heq | h
    · obtain ⟨rfl, rfl⟩ := Prod.mk.inj heq
      exact ⟨d, rfl⟩
    · exact ih h

/-- **What every site keeps, a whole trail keeps**: a property of a draft and of the trail behind it holds
    in the end when one more site keeps it. -/
theorem foldl_trail {P : List (CallSite × Option Nat) → Draft → Prop}
    (hstep : ∀ trail d site, P trail d →
      P (trail ++ [(site, (d.reach opts t site).map (·.2))]) (d.record opts t site))
    {trail : List (CallSite × Option Nat)} {d : Draft} (h : P trail d) (sites : List CallSite) :
    P (trail ++ d.trail opts t sites) (sites.foldl (Draft.record opts t) d) := by
  induction sites generalizing trail d with
  | nil =>
    rw [Draft.trail, List.append_nil]
    exact h
  | cons site rest ih =>
    have hrest := ih (hstep trail d site h)
    rw [List.append_assoc] at hrest
    exact hrest

theorem logOf_append (trail more : List (CallSite × Option Nat)) :
    logOf (trail ++ more) = logOf trail ++ logOf more :=
  List.filterMap_append

theorem edges_record (opts : GraphOptions) (t : Trace) (d : Draft) (site : CallSite) :
    (d.record opts t site).edges =
      match d.reach opts t site with
      | none => d.edges
      | some (_, target) => addCall site.unit.id target site.call.line d.edges := by
  rw [record_eq]
  cases hreach : d.reach opts t site with
  | none => rfl
  | some reached =>
    obtain ⟨d', target⟩ := reached
    obtain ⟨hedges, -, -⟩ := edges_reach hreach
    show (if site.target = .route then _ else _ : Draft).edges = _
    split <;> exact congrArg (addCall site.unit.id target site.call.line) hedges

end Draft

/-- **One more site** at the end of a trail that the edges are true to. -/
theorem Records.record {opts : GraphOptions} {t : Trace} {trail : List (CallSite × Option Nat)}
    {d : Draft} (h : Records (Draft.logOf trail) d.edges) (site : CallSite) :
    Records (Draft.logOf (trail ++ [(site, (d.reach opts t site).map (·.2))]))
      (d.record opts t site).edges := by
  rw [Draft.logOf_append, Draft.edges_record]
  cases d.reach opts t site with
  | none =>
    show Records (Draft.logOf trail ++ []) d.edges
    rw [List.append_nil]
    exact h
  | some reached => exact h.addCall ⟨site.unit.id, reached.2, site.call.line⟩

end ServiceTrace
