import ServiceTrace.Proofs.Route.Leaves

/-!
# `ServiceTrace.Proofs.Route.Display` — a displayed endpoint is read back

An endpoint is shown as a path, with a slash on both sides of every segment and braces in place of the
placeholders. The shown path is a URL in its own right, and it names the endpoint that it shows
(`Endpoint.ofUrl_display`). Nothing that reading does to a literal happens to it: it holds no backslash and
no end of a path, no two of its slashes stand side by side, so that it has no scheme, and its segments are
literals and placeholders as they were.

This rests on what the walk over a URL adds: whatever the URL, a literal segment is text that stands for
itself (`Segment.IsCanonical`). Literals and placeholders add such segments only, and what these two keep the
whole walk keeps, since it goes leaf by leaf (`UrlWalk.IsKept.walk`).
-/

namespace ServiceTrace

/-! ## Segments that stand for themselves -/

/-- Text that is one literal segment wherever it stands in a path. -/
structure IsSegmentText (text : List Char) : Prop where
  ne_nil : text ≠ []
  /-- Nothing in it is a separator or ends a path. -/
  unmarked : ∀ c ∈ text, c ∉ ['/', '\\', '?', '#']
  /-- It is not taken for a value. -/
  fixed : isPlaceholderText text = false

/-- A segment that is the same after it has been shown: a placeholder, or text that stands for itself. -/
def Segment.IsCanonical : Segment → Prop
  | .literal text => IsSegmentText text.toList
  | .placeholder => True

theorem IsSegmentText.no_slash {text : List Char} (h : IsSegmentText text) : '/' ∉ text := by
  intro hmem
  exact h.unmarked '/' hmem List.mem_cons_self

theorem IsSegmentText.isPathText {text : List Char} (h : IsSegmentText text) : IsPathText text := by
  intro c hc
  have hmarks := h.unmarked c hc
  simp only [List.mem_cons, List.not_mem_nil, or_false, not_or] at hmarks
  obtain ⟨-, hback, hquery, hfragment⟩ := hmarks
  refine ⟨hback, ?_⟩
  simp [endsPath, hquery, hfragment]

/-- A part of a path without separators becomes a segment that stands for itself. -/
theorem Segment.isCanonical_ofPart {part : List Char} (hne : part ≠ []) (hslash : '/' ∉ part)
    (hpath : IsPathText part) : (Segment.ofPart part).IsCanonical := by
  unfold Segment.ofPart
  split
  · trivial
  · next hfixed =>
    show IsSegmentText (String.ofList part).toList
    rw [String.toList_ofList]
    refine ⟨hne, ?_, Bool.eq_false_iff.mpr hfixed⟩
    intro c hc hmark
    obtain ⟨hback, hends⟩ := hpath c hc
    simp only [endsPath, Bool.or_eq_false_iff, decide_eq_false_iff_not] at hends
    simp only [List.mem_cons, List.not_mem_nil, or_false] at hmark
    rcases hmark with rfl | rfl | rfl | rfl
    · exact hslash hc
    · exact hback rfl
    · exact hends.1 rfl
    · exact hends.2 rfl

/-- The segments of a text in which no backslash is left stand for themselves. -/
theorem Endpoint.isCanonical_of_mem_pathSegments {text : List Char} (h : '\\' ∉ text) :
    ∀ s ∈ Endpoint.pathSegments text, s.IsCanonical := by
  intro s hs
  obtain ⟨part, hpart, rfl⟩ := List.mem_map.mp hs
  obtain ⟨hpiece, hne⟩ := List.mem_filter.mp hpart
  obtain ⟨hslash, hsub⟩ := Text.mem_splitAt hpiece
  apply Segment.isCanonical_ofPart (by simpa using hne) hslash
  intro c hc
  have hkept := hsub c hc
  constructor
  · rintro rfl
    exact h ((List.takeWhile_prefix _).subset hkept)
  · simpa using List.mem_takeWhile_imp hkept

/-! ## What the walk keeps -/

namespace UrlWalk

/-- A property that literals and placeholders keep. -/
structure IsKept (P : UrlWalk → Prop) : Prop where
  literal : ∀ w value, P w → P (w.literal value)
  placeholder : ∀ w, P w → P w.placeholder

theorem IsKept.leaf {P : UrlWalk → Prop} (h : IsKept P) {w : UrlWalk} (hw : P w)
    (text : Option String) : P (w.leaf text) := by
  unfold UrlWalk.leaf
  split
  · exact hw
  · cases text with
    | none => exact h.placeholder w hw
    | some value => exact h.literal w value hw

/-- **What literals and placeholders keep, the walk keeps.** -/
theorem IsKept.walk {P : UrlWalk → Prop} (h : IsKept P) {w : UrlWalk} (hw : P w) (e : Expr) :
    P (w.walk e) := by
  rw [walk_eq_foldl]
  exact List.foldlRecOn (motive := P) _ _ hw fun _ hw text _ => h.leaf hw text

/-- All segments so far stand for themselves. -/
def IsCanonical (w : UrlWalk) : Prop :=
  ∀ s ∈ w.segments, s.IsCanonical

theorem IsCanonical.literal {w : UrlWalk} (h : w.IsCanonical) (value : String) :
    (w.literal value).IsCanonical := by
  have hback : '\\' ∉ slashed value.toList := by
    intro hmem
    obtain ⟨c, -, hc⟩ := List.mem_map.mp hmem
    split at hc
    · exact absurd hc (by decide)
    · contradiction
  have htext : '\\' ∉ if w.seenLiteral then slashed value.toList else dropHost (slashed value.toList) := by
    split
    · exact hback
    · intro hmem
      exact hback ((Endpoint.dropHost_suffix _).subset hmem)
  have hliteral := literal_ofList w value.toList
  rw [String.ofList_toList] at hliteral
  intro s hs
  rw [hliteral] at hs
  rcases List.mem_append.mp hs with hs | hs
  · exact h s hs
  · exact Endpoint.isCanonical_of_mem_pathSegments htext s hs

theorem IsCanonical.placeholder {w : UrlWalk} (h : w.IsCanonical) : w.placeholder.IsCanonical := by
  unfold UrlWalk.placeholder
  split
  · intro s hs
    rcases List.mem_append.mp hs with hs | hs
    · exact h s hs
    · obtain rfl := List.mem_singleton.mp hs
      trivial
  · exact h

end UrlWalk

/-- Whatever the URL, the segments that it names stand for themselves. -/
theorem Endpoint.isCanonical_ofUrl (url : Expr) : ∀ s ∈ (ofUrl url).segments, s.IsCanonical := by
  have hstart : UrlWalk.start.IsCanonical := by
    intro s hs
    exact absurd hs List.not_mem_nil
  have hkept : UrlWalk.IsKept UrlWalk.IsCanonical :=
    ⟨fun _ value h => h.literal value, fun _ h => h.placeholder⟩
  exact hkept.walk hstart url

/-! ## Reading what is shown -/

/-- A segment that stands for itself is shown as a part of a path. -/
theorem Segment.IsCanonical.display {s : Segment} (h : s.IsCanonical) :
    s.display.toList ≠ [] ∧ '/' ∉ s.display.toList ∧ IsPathText s.display.toList ∧
      Segment.ofPart s.display.toList = s := by
  cases s with
  | literal text =>
    refine ⟨h.ne_nil, h.no_slash, h.isPathText, ?_⟩
    rw [Segment.ofPart, Segment.display, h.fixed, String.ofList_toList]
    rfl
  | placeholder => decide

namespace Endpoint

/-- The segments of a path as they are shown, with a slash behind each. -/
def shown (segments : List Segment) : List Char :=
  Text.closed '/' (segments.map fun s => s.display.toList)

variable {segments : List Segment}

/-- An endpoint without empty literals is shown as a slash and its segments. -/
theorem toList_display (h : ∀ s ∈ segments, s.IsCanonical) :
    (display ⟨segments⟩).toList = '/' :: shown segments := by
  cases segments with
  | nil => rfl
  | cons s segments =>
    have hbody := Text.toList_intercalate_append (s := "/") (by rfl)
      (List.cons_ne_nil s.display (segments.map Segment.display))
    rw [← List.map_cons, List.map_map] at hbody
    have hne : String.intercalate "/" ((s :: segments).map Segment.display) ≠ "" := by
      intro hempty
      obtain ⟨hfirst, -⟩ := (h s List.mem_cons_self).display
      rw [hempty, List.map_cons, Text.closed_cons] at hbody
      have hlength := congrArg List.length hbody
      have hpos := List.length_pos_iff.mpr hfirst
      simp at hlength
      omega
    show (if _ then "/" else "/" ++ _ ++ "/" : String).toList = _
    rw [if_neg hne, String.toList_append, String.toList_append]
    exact congrArg ('/' :: ·) hbody

theorem isPathText_shown (h : ∀ s ∈ segments, s.IsCanonical) : IsPathText ('/' :: shown segments) := by
  intro c hc
  rcases List.mem_cons.mp hc with rfl | hc
  · decide
  · obtain ⟨part, hpart, hc⟩ := List.mem_flatMap.mp hc
    obtain ⟨s, hs, rfl⟩ := List.mem_map.mp hpart
    rcases List.mem_append.mp hc with hc | hc
    · exact (h s hs).display.2.2.1 c hc
    · obtain rfl := List.mem_singleton.mp hc
      decide

theorem splitAt_shown (h : ∀ s ∈ segments, s.IsCanonical) :
    Text.splitAt '/' (shown segments) = segments.map (·.display.toList) ++ [[]] := by
  apply Text.splitAt_closed
  intro part hpart
  obtain ⟨s, hs, rfl⟩ := List.mem_map.mp hpart
  exact (h s hs).display.2.1

/-- The shown segments are those that are read from the path. -/
theorem pathSegments_shown (h : ∀ s ∈ segments, s.IsCanonical) :
    pathSegments ('/' :: shown segments) = segments := by
  have hkept := (isPathText_shown h).takeWhile_append []
  rw [List.append_nil, List.takeWhile_nil, List.append_nil] at hkept
  have hparts : Text.parts '/' ('/' :: shown segments) = segments.map (·.display.toList) := by
    have hall : ∀ part ∈ segments.map (·.display.toList), part ≠ [] ∧ '/' ∉ part := by
      intro part hpart
      obtain ⟨s, hs, rfl⟩ := List.mem_map.mp hpart
      exact ⟨(h s hs).display.1, (h s hs).display.2.1⟩
    have hclosed := Text.parts_closed_append hall []
    rwa [List.append_nil, Text.parts_nil, List.append_nil, ← Text.parts_cons_self] at hclosed
  rw [pathSegments, hkept, hparts, List.map_map]
  conv => rhs; rw [← List.map_id segments]
  exact List.map_congr_left fun s hs => (h s hs).display.2.2.2

/-- No two slashes stand side by side in what is shown, so it has no scheme. -/
theorem findSub?_shown (h : ∀ s ∈ segments, s.IsCanonical) :
    Text.findSub? [':', '/', '/'] ('/' :: shown segments) = none := by
  cases hfound : Text.findSub? [':', '/', '/'] ('/' :: shown segments) with
  | none => rfl
  | some rest =>
    obtain ⟨before, hcut⟩ := Text.of_findSub? hfound
    have hscheme : before ++ ([':', '/', '/'] ++ rest) = before ++ [':'] ++ '/' :: '/' :: rest := by simp
    -- the piece between the two slashes would be an empty segment
    have hpieces := congrArg (Text.splitAt '/') (hcut.trans hscheme)
    rw [Text.splitAt_cons_self, splitAt_shown h, Text.splitAt_append_cons, Text.splitAt_cons_self] at hpieces
    have hne : Text.splitAt '/' (before ++ [':']) ≠ [] := Text.splitAt_ne_nil _
    obtain ⟨first, pieces, hfirst⟩ := List.exists_cons_of_ne_nil hne
    rw [hfirst, List.cons_append, List.cons.injEq] at hpieces
    have hlast := congrArg List.dropLast hpieces.2
    rw [List.dropLast_concat, List.dropLast_append_of_ne_nil (List.cons_ne_nil _ _),
      List.dropLast_cons_of_ne_nil (Text.splitAt_ne_nil rest)] at hlast
    have hempty : [] ∈ segments.map (·.display.toList) := by
      rw [hlast]
      exact List.mem_append_right _ List.mem_cons_self
    obtain ⟨s, hs, hnil⟩ := List.mem_map.mp hempty
    exact absurd hnil (h s hs).display.1

/-- **The displayed endpoint is a canonical form**: read as a URL it names the endpoint that it shows.
    Every literal of an endpoint is text that stands for itself. -/
theorem ofUrl_display (url : Expr) :
    ofUrl (.str (ofUrl url).display) = ofUrl url ∧
      ∀ text, .literal text ∈ (ofUrl url).segments → IsSegmentText text.toList := by
  have hcanonical := isCanonical_ofUrl url
  constructor
  · generalize ofUrl url = e at hcanonical
    obtain ⟨segments⟩ := e
    have hpath := isPathText_shown hcanonical
    have hshown : display ⟨segments⟩ = String.ofList ('/' :: shown segments) := by
      rw [← toList_display hcanonical, String.ofList_toList]
    have hhost : dropHost ('/' :: shown segments) = '/' :: shown segments := by
      rw [dropHost, findSub?_shown hcanonical]
    rw [hshown, ofUrl_literal, hpath.slashed_eq, hhost, pathSegments_shown hcanonical]
  · intro text htext
    exact hcanonical _ htext

end Endpoint

end ServiceTrace
