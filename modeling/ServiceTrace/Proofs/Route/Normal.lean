import ServiceTrace.Proofs.Text.Split
import ServiceTrace.Route.Template

/-!
# `ServiceTrace.Proofs.Route.Normal` — the normal form of routes

A route is normalized when it is discovered and again whenever a catalog takes it in, so the second time
must change nothing. The records that normalization leaves alone are described by what they look like
(`Route.IsNormal`): a name between single slashes, methods that are trimmed and in upper case, at least one
of them, and a pattern code that is blank only when the one that follows from the name is.

## Contents
- **`IsNormalName`**, **`IsMethod`**, **`Route.IsNormal`** — the normal form, part by part.
- **`Route.isNormal_normalize`** — normalization reaches the normal form.
- **`Route.IsNormal.normalize_eq`** — and leaves it alone.
-/

namespace ServiceTrace

/-! ## Names -/

/-- A template between single slashes: one slash, or a text that the slashes are added to. The text begins
    and ends with no character that would be stripped with them. -/
def IsNormalName (name : String) : Prop :=
  name = "/" ∨
    ∃ inner, inner ≠ [] ∧ Text.Trimmed isTemplateMargin inner ∧
      name = String.ofList ('/' :: inner ++ ['/'])

theorem normalizeName_of_eq_nil {name : String} (h : Text.trimWhere isTemplateMargin name.toList = []) :
    normalizeName name = "/" := by
  rw [normalizeName, h]

theorem normalizeName_of_ne_nil {name : String} (h : Text.trimWhere isTemplateMargin name.toList ≠ []) :
    normalizeName name =
      String.ofList ('/' :: Text.trimWhere isTemplateMargin name.toList ++ ['/']) := by
  unfold normalizeName
  split
  · exact absurd ‹_› h
  · rfl

theorem isNormalName_normalizeName (name : String) : IsNormalName (normalizeName name) := by
  by_cases h : Text.trimWhere isTemplateMargin name.toList = []
  · exact .inl (normalizeName_of_eq_nil h)
  · exact .inr ⟨_, h, Text.trimmed_trimWhere _ _, normalizeName_of_ne_nil h⟩

theorem IsNormalName.normalizeName_eq {name : String} (h : IsNormalName name) :
    normalizeName name = name := by
  rcases h with rfl | ⟨inner, hne, htrimmed, rfl⟩
  · exact normalizeName_of_eq_nil (by decide)
  · -- the two slashes are the margins that are stripped
    have hslash : ∀ c ∈ ['/'], isTemplateMargin c = true := List.forall_mem_singleton.mpr rfl
    obtain ⟨first, hfirst⟩ := Option.isSome_iff_exists.mp (List.isSome_head?.mpr hne)
    obtain ⟨last, hlast⟩ := Option.isSome_iff_exists.mp (List.getLast?_isSome.mpr hne)
    have hinner : Text.trimWhere isTemplateMargin (String.ofList ('/' :: inner ++ ['/'])).toList = inner := by
      rw [String.toList_ofList]
      exact Text.trimWhere_append hslash hslash hfirst hlast (htrimmed.first first hfirst)
        (htrimmed.last last hlast)
    rw [normalizeName_of_ne_nil (by rwa [hinner]), hinner]

/-! ## Methods -/

/-- A method as catalogs keep it: some text without blanks at its ends and without ASCII letters in lower
    case. -/
structure IsMethod (method : String) : Prop where
  ne_empty : method ≠ ""
  trimmed : Text.Trimmed Text.isBlank method.toList
  upper : ∀ c ∈ method.toList, c.isLower = false

theorem isLower_eq_false_iff {c : Char} : c.isLower = false ↔ ¬ 97 ≤ c.toNat ∨ ¬ c.toNat ≤ 122 := by
  show (decide (c.val ≥ 97) && decide (c.val ≤ 122)) = false ↔ _
  simp only [Bool.and_eq_false_iff, decide_eq_false_iff_not, ge_iff_le, UInt32.le_iff_toNat_le]
  rfl

/-- Only letters in lower case have another upper case. -/
theorem toUpper_cases (c : Char) :
    (c.isLower = false ∧ c.toUpper = c) ∨
      (97 ≤ c.toNat ∧ c.toNat ≤ 122 ∧ c.toUpper.toNat = c.toNat - 32) := by
  unfold Char.toUpper
  split
  · rename_i h
    have hrange : 97 ≤ c.toNat ∧ c.toNat ≤ 122 := by simpa [UInt32.le_iff_toNat_le] using h
    refine .inr ⟨hrange.1, hrange.2, ?_⟩
    show (c.val + ('A'.val - 'a'.val)).toNat = c.toNat - 32
    rw [UInt32.toNat_add]
    show (c.toNat + 4294967264) % 4294967296 = c.toNat - 32
    omega
  · rename_i h
    have hrange : ¬ 97 ≤ c.toNat ∨ ¬ c.toNat ≤ 122 := by
      simpa [UInt32.le_iff_toNat_le, imp_iff_not_or] using h
    exact .inl ⟨isLower_eq_false_iff.mpr hrange, rfl⟩

theorem isBlank_toUpper (c : Char) : Text.isBlank c.toUpper = Text.isBlank c := by
  rcases toUpper_cases c with ⟨-, h⟩ | ⟨hfrom, hto, h⟩
  · rw [h]
  · -- letters are no blanks, in either case
    have hletter : ∀ d : Char, 65 ≤ d.toNat → d.toNat ≤ 122 → Text.isBlank d = false := by
      intro d _ _
      simp only [Text.isBlank, Bool.or_eq_false_iff, Bool.and_eq_false_iff, decide_eq_false_iff_not,
        beq_eq_false_iff_ne]
      omega
    rw [hletter c (by omega) hto, hletter c.toUpper (by omega) (by omega)]

theorem isLower_toUpper (c : Char) : c.toUpper.isLower = false := by
  rcases toUpper_cases c with ⟨hlower, h⟩ | ⟨hfrom, hto, h⟩
  · rwa [h]
  · apply isLower_eq_false_iff.mpr
    omega

theorem toUpper_of_isLower_eq_false {c : Char} (h : c.isLower = false) : c.toUpper = c := by
  rcases toUpper_cases c with ⟨-, heq⟩ | ⟨hfrom, hto, -⟩
  · exact heq
  · have hrange := isLower_eq_false_iff.mp h
    omega

theorem isMethod_of_trim {method : String} (h : Text.upper (Text.trim method) ≠ "") :
    IsMethod (Text.upper (Text.trim method)) := by
  have htrimmed := Text.trimmed_trimWhere Text.isBlank method.toList
  have htext : (Text.upper (Text.trim method)).toList =
      (Text.trimWhere Text.isBlank method.toList).map Char.toUpper := by
    rw [Text.upper, Text.trim, Text.trimBlank, String.toList_ofList, String.toList_ofList]
  constructor
  · exact h
  · rw [htext]
    constructor
    · intro c hc
      obtain ⟨d, hd, rfl⟩ := Option.map_eq_some_iff.mp (List.head?_map ▸ hc)
      rw [isBlank_toUpper, htrimmed.first d hd]
    · intro c hc
      obtain ⟨d, hd, rfl⟩ := Option.map_eq_some_iff.mp (List.getLast?_map ▸ hc)
      rw [isBlank_toUpper, htrimmed.last d hd]
  · intro c hc
    rw [htext] at hc
    obtain ⟨d, -, rfl⟩ := List.mem_map.mp hc
    exact isLower_toUpper d

theorem IsMethod.upper_trim {method : String} (h : IsMethod method) :
    Text.upper (Text.trim method) = method := by
  have htrim : Text.trim method = method := by
    rw [Text.trim, Text.trimBlank, h.trimmed.trimWhere_eq, String.ofList_toList]
  have hupper : method.toList.map Char.toUpper = method.toList := by
    rw [List.map_congr_left fun c hc => toUpper_of_isLower_eq_false (h.upper c hc), List.map_id']
  rw [htrim, Text.upper, hupper, String.ofList_toList]

namespace Route

/-- Methods that are there are kept, and the default takes the place of none. -/
theorem normalizeMethods_eq (methods : List String) :
    normalizeMethods methods = ["GET"] ∨
      normalizeMethods methods ≠ [] ∧
        normalizeMethods methods = (methods.map fun m => Text.upper (Text.trim m)).filter (· ≠ "") := by
  unfold normalizeMethods
  split
  · exact .inl rfl
  · rename_i hne
    exact .inr ⟨hne, rfl⟩

theorem isMethod_get : IsMethod "GET" := by
  constructor
  · decide
  · constructor
    · rintro c ⟨⟩
      decide
    · rintro c ⟨⟩
      decide
  · simp

/-! ## Routes -/

/-- The records that normalization leaves alone. -/
structure IsNormal (r : Route) : Prop where
  name : IsNormalName r.name
  methods_ne_nil : r.methods ≠ []
  methods : ∀ m ∈ r.methods, IsMethod m
  pattern : Text.trim r.pattern = "" → r.pattern = patternCode r.name

theorem pattern_normalize (r : Route) : r.normalize.pattern =
    if Text.trim r.pattern = "" then patternCode r.normalize.name else r.pattern := by
  simp only [normalize]

theorem isNormal_normalize (r : Route) : r.normalize.IsNormal := by
  constructor
  · exact isNormalName_normalizeName r.name
  · show normalizeMethods r.methods ≠ []
    rcases normalizeMethods_eq r.methods with h | ⟨hne, -⟩
    · rw [h]
      exact List.cons_ne_nil _ _
    · exact hne
  · intro m hm
    change m ∈ normalizeMethods r.methods at hm
    rcases normalizeMethods_eq r.methods with h | ⟨-, h⟩
    · rw [h] at hm
      rw [List.mem_singleton.mp hm]
      exact isMethod_get
    · rw [h] at hm
      obtain ⟨hmem, hne⟩ := List.mem_filter.mp hm
      obtain ⟨written, -, rfl⟩ := List.mem_map.mp hmem
      exact isMethod_of_trim (by simpa using hne)
  · intro hblank
    -- a pattern that is kept is not blank
    by_cases h : Text.trim r.pattern = ""
    · rw [pattern_normalize, if_pos h]
    · rw [pattern_normalize, if_neg h] at hblank
      exact absurd hblank h

theorem IsNormal.normalize_eq {r : Route} (h : r.IsNormal) : r.normalize = r := by
  have hname : normalizeName r.name = r.name := h.name.normalizeName_eq
  have hmethods : normalizeMethods r.methods = r.methods := by
    -- no method is changed, and none is dropped as empty
    have hkept : (r.methods.map fun m => Text.upper (Text.trim m)).filter (· ≠ "") = r.methods := by
      rw [List.map_congr_left fun m hm => (h.methods m hm).upper_trim, List.map_id']
      exact List.filter_eq_self.mpr fun m hm => by simpa using (h.methods m hm).ne_empty
    unfold normalizeMethods
    rw [hkept]
    split
    · exact absurd ‹_› h.methods_ne_nil
    · rfl
  have hpattern : (if Text.trim r.pattern = "" then patternCode r.name else r.pattern) = r.pattern := by
    split
    · exact (h.pattern ‹_›).symm
    · rfl
  show { r with name := _, methods := _, pattern := if _ then patternCode (normalizeName r.name) else _ } = r
  rw [hname, hmethods, hpattern]

/-- Normalizing twice is normalizing once. -/
theorem normalize_normalize (r : Route) : r.normalize.normalize = r.normalize :=
  (isNormal_normalize r).normalize_eq

end Route

end ServiceTrace
