import ServiceTrace.Flow.Basic

/-!
# `ServiceTrace.Proofs.Flow.Pairing` — which markers make a flow

Flows are kept sorted by name while start markers come in, so that a marker whose name is taken is seen to
be one, wherever it stands; end markers change no name. The flow of a name is then made of the first start
marker and the first end marker of this name (`Flow.find?_ofMarkers`).
-/

namespace ServiceTrace.Flow

/-- Flows in the order of their names, each name once. -/
def Sorted (flows : List Flow) : Prop :=
  flows.Pairwise (·.name < ·.name)

variable {flows : List Flow} {name : String} {point : FlowPoint}

/-! ## Start markers -/

theorem mem_addStart {f : Flow} (h : f ∈ addStart name point flows) :
    f = ⟨name, point, none⟩ ∨ f ∈ flows := by
  induction flows with
  | nil => exact .inl (List.mem_singleton.mp h)
  | cons g flows ih =>
    rw [addStart] at h
    split at h
    · exact .inr h
    · split at h
      · exact List.mem_cons.mp h
      · rcases List.mem_cons.mp h with rfl | h
        · exact .inr List.mem_cons_self
        · exact (ih h).imp_right (List.mem_cons_of_mem _)

theorem sorted_addStart (h : Sorted flows) : Sorted (addStart name point flows) := by
  induction flows with
  | nil => exact List.pairwise_singleton _ _
  | cons g flows ih =>
    obtain ⟨hhead, htail⟩ := List.pairwise_cons.mp h
    rw [addStart]
    split
    · exact h
    · rename_i hne
      split
      · rename_i hlt
        refine List.pairwise_cons.mpr ⟨fun f hf => ?_, h⟩
        rcases List.mem_cons.mp hf with rfl | hf
        · exact hlt
        · exact String.lt_trans hlt (hhead f hf)
      · rename_i hge
        refine List.pairwise_cons.mpr ⟨fun f hf => ?_, ih htail⟩
        rcases mem_addStart hf with rfl | hf
        · exact Std.lt_of_le_of_ne hge (Ne.symm hne)
        · exact hhead f hf

/-- A start marker makes the flow of its name, unless there is one. -/
theorem find?_addStart (h : Sorted flows) (key : String) :
    (addStart name point flows).find? (·.name = key) =
      (flows.find? (·.name = key)).or (if name = key then some ⟨name, point, none⟩ else none) := by
  induction flows with
  | nil =>
    by_cases hkey : name = key <;> simp [addStart, hkey]
  | cons g flows ih =>
    obtain ⟨hhead, htail⟩ := List.pairwise_cons.mp h
    rw [addStart]
    split
    · rename_i htaken
      by_cases hkey : g.name = key
      · simp [hkey]
      · simp [hkey, htaken]
    · rename_i hne
      split
      · rename_i hlt
        -- the flows behind have greater names
        by_cases hkey : name = key
        · have hnone : (g :: flows).find? (·.name = key) = none := by
            rw [List.find?_eq_none]
            intro f hf
            have hf' : name < f.name := by
              rcases List.mem_cons.mp hf with rfl | hf
              · exact hlt
              · exact String.lt_trans hlt (hhead f hf)
            rw [decide_eq_true_eq, ← hkey]
            rintro hsame
            exact String.lt_irrefl name (hsame ▸ hf')
          rw [hnone, Option.none_or, if_pos hkey]
          exact List.find?_cons_of_pos (decide_eq_true hkey)
        · rw [if_neg hkey, Option.or_none]
          exact List.find?_cons_of_neg (by simpa using hkey)
      · by_cases hkey : g.name = key
        · simp [hkey]
        · have hskip : ∀ rest, (g :: rest).find? (·.name = key) = rest.find? (·.name = key) :=
            fun rest => List.find?_cons_of_neg (by simpa using hkey)
          rw [hskip, hskip, ih htail]

theorem find?_foldl_addStart {starts : List FlowMarker} (h : Sorted flows) (key : String) :
    (starts.foldl (fun flows m => addStart m.name m.point flows) flows).find? (·.name = key) =
      (flows.find? (·.name = key)).or
        ((starts.find? (·.name = key)).map fun m => ⟨m.name, m.point, none⟩) := by
  induction starts generalizing flows with
  | nil => rw [List.foldl_nil, List.find?_nil, Option.map_none, Option.or_none]
  | cons m starts ih =>
    rw [List.foldl_cons, ih (sorted_addStart h), find?_addStart h, Option.or_assoc]
    by_cases hkey : m.name = key <;> simp [hkey]

/-! ## End markers -/

/-- An end marker ends the flow of its name, unless that is ended. -/
theorem find?_addEnd (flows : List Flow) (key : String) :
    (addEnd name point flows).find? (·.name = key) =
      (flows.find? (·.name = key)).map fun f =>
        if name = key then { f with stop := f.stop.or (some point) } else f := by
  unfold addEnd
  rw [List.find?_map]
  have hname : (fun f : Flow => decide (f.name = key)) ∘
      (fun f => if f.name = name then { f with stop := f.stop.or (some point) } else f) =
        fun f => decide (f.name = key) := by
    funext f
    by_cases h : f.name = name <;> simp [h]
  rw [hname]
  cases hfind : flows.find? (·.name = key) with
  | none => rfl
  | some f =>
    obtain rfl : f.name = key := by simpa using List.find?_some hfind
    simp only [Option.map_some, eq_comm]

theorem find?_foldl_addEnd (ends : List FlowMarker) (flows : List Flow) (key : String) :
    (ends.foldl (fun flows m => addEnd m.name m.point flows) flows).find? (·.name = key) =
      (flows.find? (·.name = key)).map fun f =>
        { f with stop := f.stop.or ((ends.find? (·.name = key)).map (·.point)) } := by
  induction ends generalizing flows with
  | nil => simp
  | cons m ends ih =>
    rw [List.foldl_cons, ih, find?_addEnd, Option.map_map]
    congr 1
    funext f
    by_cases hkey : m.name = key <;> simp [hkey]

/-! ## Flows -/

/-- The flow of a name starts at the first start marker of this name and stops at the first end marker. -/
theorem find?_ofMarkers (markers : List FlowMarker) (name : String) :
    (ofMarkers markers).find? (·.name = name) =
      (markers.find? fun m => m.kind = .start ∧ m.name = name).map fun m =>
        ⟨name, m.point, (markers.find? fun m => m.kind = .stop ∧ m.name = name).map (·.point)⟩ := by
  have hfilter : ∀ kind, (markers.filter (·.kind = kind)).find? (·.name = name) =
      markers.find? fun m => m.kind = kind ∧ m.name = name := by
    intro kind
    rw [List.find?_filter]
    congr 1
    funext m
    simp
  -- end markers change no name, so the start markers decide which flow is found
  unfold ofMarkers
  rw [find?_foldl_addEnd, find?_foldl_addStart .nil, List.find?_nil, Option.none_or, hfilter, hfilter]
  cases hstart : markers.find? fun m => m.kind = .start ∧ m.name = name with
  | none => rfl
  | some m =>
    obtain ⟨-, rfl⟩ : m.kind = .start ∧ m.name = name := by simpa using List.find?_some hstart
    rfl

end ServiceTrace.Flow
