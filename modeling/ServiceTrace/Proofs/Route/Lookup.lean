import Mathlib.Data.List.Forall2
import ServiceTrace.Proofs.Route.Display
import ServiceTrace.Proofs.Route.Normal
import ServiceTrace.Proofs.Route.Regex

/-!
# `ServiceTrace.Proofs.Route.Lookup` — the lookup of routes is exact

Three views of a route decide whether a request reaches it: its name in normal form, the pattern code that
counts the segments of the name, and the regular expression, which only tests how the name begins. None of
them is enough. A longer name begins in the same way, a name with an empty segment has the same code, and
text may be written where the endpoint has a value.

Together they leave one name for each choice of the segments (`Endpoint.Names`): the code allows no segment
behind those that the expression tests, and the normal form no slash behind the last one. The letters of the
code say which parts are variables. So the route that is found is the first one of the catalog that accepts
the method and has exactly such a name (`Clients.find?_firstOf`).
-/

namespace ServiceTrace

/-! ## Names that an endpoint spells -/

/-- A segment that parts of names can stand for: no literal is empty or has a slash in it. -/
def Segment.IsProper : Segment → Prop
  | .literal text => text ≠ "" ∧ '/' ∉ text.toList
  | .placeholder => True

instance (s : Segment) : Decidable s.IsProper :=
  match s with
  | .literal _ => inferInstanceAs (Decidable (_ ∧ _))
  | .placeholder => inferInstanceAs (Decidable True)

/-- A part of a name that is written as a variable. -/
def IsMarked (part : List Char) : Prop :=
  ∃ c rest, part = c :: rest ∧ c ∈ ['<', '{', ':']

/-- A part of a name that a segment stands for: a literal for its own text, when that is not written as a
    variable, and a placeholder for any variable. -/
def Segment.Names : Segment → List Char → Prop
  | .literal text, part => part = text.toList ∧ ¬ IsMarked part
  | .placeholder, part => IsMarked part

/-- A name that an endpoint spells: one part for each segment, none of them empty, with single slashes
    around them. -/
def Endpoint.Names (e : Endpoint) (name : String) : Prop :=
  ∃ parts, name.toList = '/' :: Text.closed '/' parts ∧ (∀ part ∈ parts, part ≠ [] ∧ '/' ∉ part) ∧
    List.Forall₂ Segment.Names e.segments parts

/-- The outcome of a search for the first element with a property. -/
inductive FirstOf {α : Type} (P : α → Prop) (xs : List α) : Option α → Prop where
  | found {before after : List α} {x : α} (split : xs = before ++ x :: after)
      (first : ∀ y ∈ before, ¬ P y) (holds : P x) : FirstOf P xs (some x)
  | missing (none_of : ∀ x ∈ xs, ¬ P x) : FirstOf P xs none

theorem firstOf_find? {α : Type} {P : α → Prop} {p : α → Bool} {xs : List α}
    (h : ∀ x ∈ xs, p x = true ↔ P x) : FirstOf P xs (xs.find? p) := by
  cases hfind : xs.find? p with
  | none =>
    apply FirstOf.missing
    intro x hx hP
    exact List.find?_eq_none.mp hfind x hx ((h x hx).mpr hP)
  | some x =>
    obtain ⟨hp, before, after, rfl, hfirst⟩ := List.find?_eq_some_iff_append.mp hfind
    have hx : x ∈ before ++ x :: after := List.mem_append_right _ List.mem_cons_self
    apply FirstOf.found rfl
    · intro y hy hP
      have hpy : p y = true := (h y (List.mem_append_left _ hy)).mpr hP
      have hnot : (!p y) = true := hfirst y hy
      rw [hpy] at hnot
      exact Bool.false_ne_true hnot
    · exact (h x hx).mp hp

/-! ## Pattern codes -/

theorem isVariable_iff {part : List Char} : isVariable part = true ↔ IsMarked part := by
  cases part with
  | nil => exact iff_of_false Bool.false_ne_true (by rintro ⟨c, rest, ⟨⟩, -⟩)
  | cons c rest => simp [isVariable, IsMarked, or_assoc]

/-- The letter of a part in the code of a name. -/
def nameLetter (part : List Char) : Char :=
  if isVariable part then 'v' else 'c'

theorem patternCode_eq (name : String) :
    patternCode name = String.ofList ((Text.parts '/' name.toList).map nameLetter) :=
  rfl

/-- A segment stands for the parts that it fits and shares the letter with. -/
theorem Segment.names_iff {s : Segment} {part : List Char} (hpart : part ≠ [] ∧ '/' ∉ part) :
    s.Names part ↔ s.Fits part ∧ nameLetter part = s.code := by
  by_cases hmarked : IsMarked part
  · have hletter : nameLetter part = 'v' := if_pos (isVariable_iff.mpr hmarked)
    rw [hletter]
    cases s with
    | literal text => simp [Segment.Names, Segment.code, hmarked]
    | placeholder => exact iff_of_true hmarked ⟨hpart, rfl⟩
  · have hletter : nameLetter part = 'c' := if_neg (mt isVariable_iff.mp hmarked)
    rw [hletter]
    cases s with
    | literal text => simp [Segment.Names, Segment.Fits, Segment.code, hmarked]
    | placeholder => simp [Segment.Names, Segment.code, hmarked]

theorem Segment.forall₂_names_iff {segments : List Segment} {parts : List (List Char)}
    (hparts : ∀ part ∈ parts, part ≠ [] ∧ '/' ∉ part) :
    List.Forall₂ Segment.Names segments parts ↔
      List.Forall₂ Segment.Fits segments parts ∧ parts.map nameLetter = segments.map Segment.code := by
  induction segments generalizing parts with
  | nil => cases parts <;> simp
  | cons s segments ih =>
    cases parts with
    | nil => simp
    | cons part parts =>
      have hfirst := hparts part List.mem_cons_self
      have hrest := fun p hp => hparts p (List.mem_cons_of_mem part hp)
      rw [List.forall₂_cons, List.forall₂_cons, Segment.names_iff hfirst, ih hrest, List.map_cons,
        List.map_cons, List.cons.injEq]
      tauto

/-! ## Names in normal form -/

/-- A name in normal form has no second slash behind its last part. -/
theorem IsNormalName.rest_eq_nil {name : String} (h : IsNormalName name) {parts : List (List Char)}
    {rest : List Char} (hne : parts ≠ []) (hname : name.toList = '/' :: Text.closed '/' parts ++ rest)
    (hrest : ∀ c ∈ rest, c = '/') : rest = [] := by
  have hclosed : (Text.closed '/' parts).getLast? = some '/' := Text.getLast?_closed hne
  rcases h with rfl | ⟨inner, -, htrimmed, rfl⟩
  · have hnil : Text.closed '/' parts ++ rest = [] := (List.cons.inj hname).2.symm
    exact (List.append_eq_nil_iff.mp hnil).2
  · rcases List.eq_nil_or_concat rest with hnil | ⟨init, last, hlast⟩
    · exact hnil
    · -- what is trimmed would still end in a slash
      rw [List.concat_eq_append] at hlast
      subst hlast
      obtain rfl : last = '/' := hrest last (by simp)
      rw [String.toList_ofList, List.cons_append, List.cons_append, List.cons.injEq,
        ← List.append_assoc] at hname
      have hinner : inner = Text.closed '/' parts ++ init := List.append_cancel_right hname.2
      have hend : inner.getLast? = some '/' := by
        rw [hinner, List.getLast?_append, hclosed]
        cases hinit : init.getLast? with
        | none => rfl
        | some c =>
          have hc : c = '/' := hrest c (List.mem_append_left _ (List.mem_of_getLast? hinit))
          rw [hc, Option.some_or]
      exact absurd (htrimmed.last '/' hend) (by decide)

/-! ## The lookup -/

theorem Segment.IsProper.part_of_fits {s : Segment} (h : s.IsProper) {part : List Char} (hfits : s.Fits part) :
    part ≠ [] ∧ '/' ∉ part := by
  cases s with
  | literal text =>
    obtain rfl : part = text.toList := hfits
    obtain ⟨hne, hslash⟩ := h
    exact ⟨by simpa using hne, hslash⟩
  | placeholder => exact hfits

/-- What proper segments fit are parts of names. -/
theorem Segment.parts_of_fits {segments : List Segment} {parts : List (List Char)}
    (hproper : ∀ s ∈ segments, s.IsProper) (h : List.Forall₂ Segment.Fits segments parts) :
    ∀ part ∈ parts, part ≠ [] ∧ '/' ∉ part := by
  induction h with
  | nil =>
    intro part hpart
    exact absurd hpart List.not_mem_nil
  | cons hfits _ ih =>
    obtain ⟨hfirst, hrest⟩ := List.forall_mem_cons.mp hproper
    exact List.forall_mem_cons.mpr ⟨hfirst.part_of_fits hfits, ih hrest⟩

/-- The segments that a URL is taken apart into are proper. -/
theorem Endpoint.isProper_ofUrl (url : Expr) : ∀ s ∈ (ofUrl url).segments, s.IsProper := by
  intro s hs
  have hcanonical := isCanonical_ofUrl url s hs
  cases s with
  | literal text => exact ⟨by simpa using hcanonical.ne_nil, hcanonical.no_slash⟩
  | placeholder => trivial

/-- **Code and expression together are exact.** A name in normal form has the code of an endpoint and begins
    with it exactly when the endpoint spells it. -/
theorem Endpoint.names_iff {e : Endpoint} {name : String} (hnormal : IsNormalName name)
    (hne : e.segments ≠ []) (hproper : ∀ s ∈ e.segments, s.IsProper) :
    e.Names name ↔ patternCode name = e.code ∧ e.startsName name = true := by
  have hcut : ∀ {parts rest}, (∀ part ∈ parts, part ≠ [] ∧ '/' ∉ part) →
      name.toList = '/' :: Text.closed '/' parts ++ rest →
      patternCode name = String.ofList (parts.map nameLetter ++ (Text.parts '/' rest).map nameLetter) := by
    intro parts rest hparts hname
    rw [patternCode_eq, hname, List.cons_append, Text.parts_cons_self, Text.parts_closed_append hparts,
      List.map_append]
  constructor
  · rintro ⟨parts, hname, hparts, hsegments⟩
    obtain ⟨hfits, hletters⟩ := (Segment.forall₂_names_iff hparts).mp hsegments
    rw [← List.append_nil ('/' :: _)] at hname
    refine ⟨?_, Endpoint.startsName_iff.mpr ⟨parts, [], hfits, hname⟩⟩
    rw [hcut hparts hname, hletters, Text.parts_nil, List.map_nil, List.append_nil, Endpoint.code]
  · rintro ⟨hcode, hstarts⟩
    obtain ⟨parts, rest, hfits, hname⟩ := Endpoint.startsName_iff.mp hstarts
    have hparts := Segment.parts_of_fits hproper hfits
    have hlength : parts.length = e.segments.length := hfits.length_eq.symm
    have hpartsne : parts ≠ [] := by
      rintro rfl
      exact hne (List.length_eq_zero_iff.mp hlength.symm)
    -- the letters of the parts are used up by the segments
    rw [hcut hparts hname, Endpoint.code, ← List.append_nil (e.segments.map _)] at hcode
    obtain ⟨hletters, hnone⟩ := List.append_inj (String.ofList_injective hcode) (by simpa using hlength)
    have hslashes := Text.parts_eq_nil_iff.mp (List.map_eq_nil_iff.mp hnone)
    obtain rfl := hnormal.rest_eq_nil hpartsne hname hslashes
    rw [List.append_nil] at hname
    exact ⟨parts, hname, hparts, (Segment.forall₂_names_iff hparts).mpr ⟨hfits, hletters⟩⟩

/-- **The lookup is exact.** In a catalog whose pattern codes follow from the names, a faithful engine finds
    the first route that accepts the method and has a name that the endpoint spells. -/
theorem Clients.find?_firstOf {engine : RegexEngine} (hengine : engine.IsFaithful) {clients : Clients}
    {routes : List Route} (hcatalog : clients.catalog = .ofRoutes routes)
    (hpatterns : ∀ r ∈ clients.catalog.routes, r.pattern = patternCode r.name) {e : Endpoint}
    (hne : e.segments ≠ []) (hproper : ∀ s ∈ e.segments, s.IsProper) (method : String) :
    clients.findBy engine method e = clients.find? method e ∧
      FirstOf (fun r => r.accepts method = true ∧ e.Names r.name) clients.catalog.routes
        (clients.find? method e) := by
  refine ⟨hengine.findBy_eq clients method e, ?_⟩
  rw [Clients.find?, if_neg hne]
  apply firstOf_find?
  intro r hr
  have hnormal : IsNormalName r.name := by
    rw [hcatalog] at hr
    obtain ⟨record, -, rfl⟩ := List.mem_map.mp hr
    exact record.isNormal_normalize.name
  rw [Endpoint.names_iff hnormal hne hproper, ← hpatterns r hr, Bool.and_eq_true, Bool.and_eq_true,
    decide_eq_true_eq, and_assoc]

/-- Clients with a catalog of routes that accept `GET` and have these names. -/
def Clients.ofRouteNames (names : List String) : Clients :=
  let routes : List Route := names.map fun name => ⟨name, ["GET"], "", "cart", "show", none, none, none⟩
  .ofNames (.ofRoutes routes) ["requests"]

/-- The items in the cart of a user. -/
def Endpoint.cartItems : Endpoint :=
  ⟨[.literal "cart", .literal "items", .placeholder]⟩

/-- Names that are longer or shorter, or that have a variable for a literal or a literal for a variable, stand
    in front of the name that is found. -/
theorem Clients.find?_cartItems :
    let clients := Clients.ofRouteNames ["/cart/items/<int:user_id>/notes", "/cart/items",
      "/cart/<section>/<id>", "/cart/items/all", "/cart/items/<int:user_id>", "/cart/items/\x7bid\x7d"]
    (clients.findBy .backtracking "GET" .cartItems = clients.find? "GET" .cartItems ∧
      FirstOf (fun r => r.accepts "GET" = true ∧ Endpoint.cartItems.Names r.name) clients.catalog.routes
        (clients.find? "GET" .cartItems)) ∧
      (clients.find? "GET" .cartItems).map (·.name) = some "/cart/items/<int:user_id>/" := by
  intro clients
  have hproper : ∀ s ∈ Endpoint.cartItems.segments, s.IsProper := by decide
  have hpatterns : ∀ r ∈ clients.catalog.routes, r.pattern = patternCode r.name := by decide +kernel
  have hfirst := Clients.find?_firstOf RegexEngine.backtracking_isFaithful rfl hpatterns
    (List.cons_ne_nil _ _) hproper "GET"
  exact ⟨hfirst, by decide +kernel⟩

end ServiceTrace
