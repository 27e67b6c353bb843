import Mathlib.Data.List.Sort
import ServiceTrace.Proofs.Flow.Pairing

/-!
# `ServiceTrace.Proofs.Flow.Stability` — flows and the order of their markers

Markers come from many files, with kinds and names mixed as the files are scanned. What they make is fixed
name by name: the first start marker and the first end marker of a name are all that its flow is made of
(`Flow.find?_ofMarkers`), and in a sorted list each flow is found under its name, so the flows found under
the names are the whole list (`Sorted.eq_of_find?_eq`).

Hence only the order within one kind and one name counts. A list with the same markers of each kind and
name, in the same order, makes the same flows, however kinds and names are mixed in it
(`Flow.ofMarkers_stable`).

## Contents
- **`Flow.IsFirst`** — the first marker of a kind and a name, in the words of the list alone.
- **`Flow.Collects`** — what a list of markers stands for.
- **`Flow.KeepsOrder`** — lists that differ in how kinds and names are mixed.
-/

namespace ServiceTrace.Flow

variable {flows flows' : List Flow} {markers : List FlowMarker} {kind : MarkerKind} {name : String}

/-! ## Sorted flows -/

theorem sorted_addEnd {point : FlowPoint} (h : Sorted flows) : Sorted (addEnd name point flows) := by
  have hname : ∀ f : Flow,
      (if f.name = name then { f with stop := f.stop.or (some point) } else f).name = f.name := by
    intro f
    split <;> rfl
  apply List.pairwise_map.mpr
  apply h.imp
  intro f g hfg
  rw [hname, hname]
  exact hfg

theorem sorted_ofMarkers (markers : List FlowMarker) : Sorted (ofMarkers markers) := by
  have hstarts : Sorted ((markers.filter (·.kind = .start)).foldl
      (fun flows m => addStart m.name m.point flows) []) :=
    List.foldlRecOn (motive := Sorted) _ _ .nil fun _ h _ _ => sorted_addStart h
  exact List.foldlRecOn (motive := Sorted) _ _ hstarts fun _ h _ _ => sorted_addEnd h

/-- In sorted flows, the flow that is found under a name is the only one with this name. -/
theorem Sorted.find?_eq_some_iff (h : Sorted flows) {f : Flow} :
    flows.find? (·.name = name) = some f ↔ f ∈ flows ∧ f.name = name := by
  constructor
  · intro hfind
    exact ⟨List.mem_of_find?_eq_some hfind, by simpa using List.find?_some hfind⟩
  · rintro ⟨hf, rfl⟩
    obtain ⟨before, after, rfl⟩ := List.append_of_mem hf
    apply List.find?_eq_some_iff_append.mpr
    refine ⟨decide_eq_true rfl, before, after, rfl, ?_⟩
    intro g hg
    have hlt : g.name < f.name := (List.pairwise_append.mp h).2.2 g hg f List.mem_cons_self
    have hne : g.name ≠ f.name := fun hsame => String.lt_irrefl f.name (hsame ▸ hlt)
    simpa using hne

theorem Sorted.eq_of_find?_eq (h : Sorted flows) (h' : Sorted flows')
    (hfind : ∀ name, flows.find? (·.name = name) = flows'.find? (·.name = name)) : flows = flows' := by
  -- the order of the names orders the flows
  have hirrefl : Std.Irrefl fun f g : Flow => f.name < g.name := ⟨fun f => String.lt_irrefl f.name⟩
  have hantisymm : Std.Antisymm fun f g : Flow => f.name < g.name :=
    ⟨fun f g hfg hgf => absurd (String.lt_trans hfg hgf) (String.lt_irrefl f.name)⟩
  apply List.Pairwise.eq_of_mem_iff h h'
  intro f
  have hmem : flows.find? (·.name = f.name) = some f ↔ flows'.find? (·.name = f.name) = some f := by
    rw [hfind]
  rw [h.find?_eq_some_iff, h'.find?_eq_some_iff] at hmem
  simpa using hmem

/-! ## First markers -/

/-- A marker of a kind and a name that has no such marker before it in the list. -/
def IsFirst (markers : List FlowMarker) (kind : MarkerKind) (name : String) (m : FlowMarker) : Prop :=
  (m.kind = kind ∧ m.name = name) ∧
    ∃ before after, markers = before ++ m :: after ∧ ∀ m' ∈ before, m'.kind = kind → m'.name ≠ name

theorem isFirst_iff {m : FlowMarker} :
    IsFirst markers kind name m ↔ markers.find? (fun m => m.kind = kind ∧ m.name = name) = some m := by
  simp [IsFirst, List.find?_eq_some_iff_append, imp_iff_not_or]

/-- The flows made of markers, one for each name with a start marker. -/
theorem mem_ofMarkers_iff {f : Flow} :
    f ∈ ofMarkers markers ↔ ∃ m, IsFirst markers .start f.name m ∧ f.start = m.point ∧
      f.stop = (markers.find? fun m => m.kind = .stop ∧ m.name = f.name).map (·.point) := by
  have hfind := find?_ofMarkers markers f.name
  have hmem : (ofMarkers markers).find? (·.name = f.name) = some f ↔ f ∈ ofMarkers markers := by
    rw [(sorted_ofMarkers markers).find?_eq_some_iff, and_iff_left rfl]
  rw [← hmem, hfind, Option.map_eq_some_iff]
  constructor
  · rintro ⟨m, hm, hf⟩
    exact ⟨m, isFirst_iff.mpr hm, by rw [← hf], by rw [← hf]⟩
  · rintro ⟨m, hm, hstart, hstop⟩
    refine ⟨m, isFirst_iff.mp hm, ?_⟩
    rw [← hstart, ← hstop]

/-! ## What markers stand for -/

/-- The flows that a list of markers stands for: one for each name that a start marker has, in the order of
    the names, from the first start marker of its name to the first end marker, if there is one. -/
structure Collects (markers : List FlowMarker) (flows : List Flow) : Prop where
  sorted : Sorted flows
  single : ∀ m ∈ markers, m.kind = .start → ∃! f, f ∈ flows ∧ f.name = m.name
  start : ∀ f ∈ flows, ∃ m, IsFirst markers .start f.name m ∧ f.start = m.point
  /-- The end may stand before the start in the list. -/
  stop : ∀ f ∈ flows, ∀ point, f.stop = some point ↔ ∃ m, IsFirst markers .stop f.name m ∧ m.point = point
  endless : ∀ f ∈ flows, f.stop = none ↔ ∀ m ∈ markers, m.kind = .stop → m.name ≠ f.name

theorem collects_ofMarkers (markers : List FlowMarker) : Collects markers (ofMarkers markers) where
  sorted := sorted_ofMarkers markers
  single := by
    intro m hm hkind
    have hsome : ((ofMarkers markers).find? (·.name = m.name)).isSome := by
      rw [find?_ofMarkers, Option.isSome_map, List.find?_isSome]
      exact ⟨m, hm, by simp [hkind]⟩
    obtain ⟨f, hfind⟩ := Option.isSome_iff_exists.mp hsome
    have hf := (sorted_ofMarkers markers).find?_eq_some_iff.mp hfind
    refine ⟨f, hf, ?_⟩
    intro g hg
    have hfind' := (sorted_ofMarkers markers).find?_eq_some_iff.mpr hg
    exact Option.some.inj (hfind'.symm.trans hfind)
  start := by
    intro f hf
    obtain ⟨m, hm, hstart, -⟩ := mem_ofMarkers_iff.mp hf
    exact ⟨m, hm, hstart⟩
  stop := by
    intro f hf point
    obtain ⟨-, -, -, hstop⟩ := mem_ofMarkers_iff.mp hf
    rw [hstop, Option.map_eq_some_iff]
    simp only [isFirst_iff]
  endless := by
    intro f hf
    obtain ⟨-, -, -, hstop⟩ := mem_ofMarkers_iff.mp hf
    rw [hstop, Option.map_eq_none_iff, List.find?_eq_none]
    simp

/-! ## The order of markers -/

/-- Lists with the same markers of each kind and name, in the same order. Nothing is said about the order of
    markers that differ in kind or name. -/
def KeepsOrder (markers reordered : List FlowMarker) : Prop :=
  ∀ kind name, reordered.filter (fun m => m.kind = kind ∧ m.name = name) =
    markers.filter (fun m => m.kind = kind ∧ m.name = name)

theorem ofMarkers_reordered {reordered : List FlowMarker} (h : KeepsOrder markers reordered) :
    ofMarkers reordered = ofMarkers markers := by
  have hfirst : ∀ kind name, reordered.find? (fun m => m.kind = kind ∧ m.name = name) =
      markers.find? (fun m => m.kind = kind ∧ m.name = name) := by
    intro kind name
    rw [← List.head?_filter, ← List.head?_filter, h kind name]
  apply (sorted_ofMarkers reordered).eq_of_find?_eq (sorted_ofMarkers markers)
  intro name
  rw [find?_ofMarkers, find?_ofMarkers, hfirst, hfirst]

/-! ## The lookup of a flow -/

/-- What a lookup says of the markers: a flow is found when a start marker has the name, and it is the one of
    this name. -/
structure Finds (markers : List FlowMarker) (flows : List Flow) (name : String) : Prop where
  found : (∃ f, find flows name = .ok f) ↔ ∃ m ∈ markers, m.kind = .start ∧ m.name = name
  flow : ∀ f, find flows name = .ok f ↔ f ∈ flows ∧ f.name = name
  missing : (∀ m ∈ markers, m.kind = .start → m.name ≠ name) → find flows name = .error (.flowNotFound name)

theorem find_eq_ok_iff (h : Sorted flows) {f : Flow} :
    find flows name = .ok f ↔ f ∈ flows ∧ f.name = name := by
  rw [← h.find?_eq_some_iff, find]
  cases flows.find? (·.name = name) <;> simp

theorem find_eq_error_of_forall (h : ∀ f ∈ flows, f.name ≠ name) :
    find flows name = .error (.flowNotFound name) := by
  have hnone : flows.find? (·.name = name) = none := by
    rw [List.find?_eq_none]
    intro f hf
    simpa using h f hf
  rw [find, hnone]

theorem Collects.finds (h : Collects markers flows) (name : String) : Finds markers flows name where
  found := by
    constructor
    · rintro ⟨f, hf⟩
      obtain ⟨hmem, rfl⟩ := (find_eq_ok_iff h.sorted).mp hf
      obtain ⟨m, ⟨hm, before, after, rfl, -⟩, -⟩ := h.start f hmem
      exact ⟨m, List.mem_append_right _ List.mem_cons_self, hm⟩
    · rintro ⟨m, hm, hkind, rfl⟩
      obtain ⟨f, hf, -⟩ := h.single m hm hkind
      exact ⟨f, (find_eq_ok_iff h.sorted).mpr hf⟩
  flow := fun _ => find_eq_ok_iff h.sorted
  missing := by
    intro hnone
    apply find_eq_error_of_forall
    intro f hf hname
    obtain ⟨m, ⟨⟨hkind, hm⟩, before, after, rfl, -⟩, -⟩ := h.start f hf
    exact hnone m (List.mem_append_right _ List.mem_cons_self) hkind (hm.trans hname)

/-- **Flows are fixed by the first markers of each name.** A list of markers makes one flow for each name
    with a start marker, sorted by name, from its first start marker to its first end marker. How markers of
    different kinds or names are mixed does not count, and a flow is found exactly under the names of start
    markers. -/
theorem ofMarkers_stable (markers : List FlowMarker) :
    Collects markers (ofMarkers markers) ∧
      (∀ reordered, KeepsOrder markers reordered → ofMarkers reordered = ofMarkers markers) ∧
      ∀ name, Finds markers (ofMarkers markers) name := by
  have hcollects := collects_ofMarkers markers
  exact ⟨hcollects, fun _ => ofMarkers_reordered, hcollects.finds⟩

/-- A marker in a line of one file, above the function of the line. -/
def markerAt (kind : MarkerKind) (name : String) (line : Nat) : FlowMarker :=
  ⟨kind, name, ⟨"shop", ⟨"/srv/shop.py"⟩, "f", line⟩⟩

/-- Two flows, with an end before its start and a second start that does not count. -/
def mixedMarkers : List FlowMarker :=
  [markerAt .stop "pay" 1, markerAt .start "pay" 2, markerAt .start "buy" 3, markerAt .start "pay" 4]

/-- The same markers, name by name. -/
def groupedMarkers : List FlowMarker :=
  [markerAt .start "buy" 3, markerAt .start "pay" 2, markerAt .start "pay" 4, markerAt .stop "pay" 1]

/-- Both lists make the flow `pay` from line 2 to line 1, behind the flow `buy`, which has no end. -/
theorem mixed_collected :
    KeepsOrder mixedMarkers groupedMarkers ∧ ofMarkers groupedMarkers = ofMarkers mixedMarkers ∧
      ofMarkers mixedMarkers = [⟨"buy", (markerAt .start "buy" 3).point, none⟩,
        ⟨"pay", (markerAt .start "pay" 2).point, some (markerAt .stop "pay" 1).point⟩] ∧
      ∃ f, find (ofMarkers mixedMarkers) "pay" = .ok f := by
  have horder : KeepsOrder mixedMarkers groupedMarkers := by
    intro kind name
    by_cases hpay : "pay" = name
    · subst hpay
      cases kind <;> decide +kernel
    · cases kind <;> simp [mixedMarkers, groupedMarkers, markerAt, List.filter_cons, hpay]
  obtain ⟨-, hsteady, hfinds⟩ := ofMarkers_stable mixedMarkers
  exact ⟨horder, hsteady groupedMarkers horder, by decide +kernel,
    (hfinds "pay").found.mpr ⟨markerAt .start "pay" 2, by decide +kernel, rfl, rfl⟩⟩

end ServiceTrace.Flow
