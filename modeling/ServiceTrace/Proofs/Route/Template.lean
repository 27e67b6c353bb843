import ServiceTrace.Proofs.Route.Annotate
import ServiceTrace.Proofs.Route.Pieces
import ServiceTrace.Route.Client

/-!
# `ServiceTrace.Proofs.Route.Template` — calling a route by its template

A URL is taken apart by the code that walks expressions, the name of a route by the code that normalizes
records. The two meet in the pattern code and in the text that the name has to begin with. Here both are
computed for a template and for the URL that spells it, with a value for each variable: they agree segment
by segment (`RouteTemplate.ofUrl_url`, `RouteTemplate.patternCode_name`, `RouteTemplate.startsName_name`), so
a call of the URL reaches a route (`RouteTemplate.call_matched`).

They do not agree on every template. Text that looks like a value, a number or a UUID, is a variable of the
URL and none of the name, and a value in front of all text is no segment of the URL. A template is *plain*
when it has neither.
-/

namespace ServiceTrace

/-! ## Templates and the URLs that spell them -/

/-- One segment of a route template: fixed text, or a hole: a variable together with the value
    that a URL has for it. -/
inductive TemplateSegment where
  | fixed (text : List Char)
  | hole (text : List Char) (value : Expr)

/-- The characters of fixed text in a template. -/
def isFixedChar (c : Char) : Bool :=
  c.isAlphanum || c = '-' || c = '_' || c = '.'

namespace TemplateSegment

/-- The segment in the template. -/
def text : TemplateSegment → List Char
  | fixed text => text
  | hole text _ => text

/-- The segment in a string literal that spells the template. -/
def piece : TemplateSegment → StringPiece
  | fixed text => .text text
  | hole _ value => .value value

/-- The segment of the endpoint that it stands for. -/
def segment : TemplateSegment → Segment
  | fixed text => .literal (String.ofList text)
  | hole _ _ => .placeholder

/-- Fixed text is not empty and made of letters, digits, dashes, underscores and dots. A variable is marked
    as one, and does not end in a character that belongs to the margin of a template. -/
def WellFormed : TemplateSegment → Prop
  | fixed text => text ≠ [] ∧ ∀ c ∈ text, isFixedChar c = true
  | hole text _ =>
    isVariable text = true ∧ '/' ∉ text ∧ ∀ c ∈ text.getLast?, isTemplateMargin c = false

/-- Fixed text that does not look like a value. -/
def IsPlain : TemplateSegment → Prop
  | fixed text => text.all Char.isDigit = false ∧ looksLikeUuid text = false
  | hole _ _ => True

instance (s : TemplateSegment) : Decidable s.WellFormed :=
  match s with
  | fixed text =>
    decidable_of_iff (text ≠ [] ∧ text.all isFixedChar = true) (and_congr_right' List.all_eq_true)
  | hole text _ =>
    decidable_of_iff
      (isVariable text = true ∧ '/' ∉ text ∧ text.getLast?.all (!isTemplateMargin ·) = true)
      (by simp [WellFormed, Option.all_eq_true])

instance (s : TemplateSegment) : Decidable s.IsPlain :=
  match s with
  | fixed _ => inferInstanceAs (Decidable (_ ∧ _))
  | hole _ _ => inferInstanceAs (Decidable True)

/-- Segments with slashes between them. -/
def joined (first : TemplateSegment) (rest : List TemplateSegment) : List Char :=
  first.text ++ rest.flatMap fun s => '/' :: s.text

/-- Whether a segment is fixed text. -/
def isFixed : TemplateSegment → Bool
  | fixed _ => true
  | hole _ _ => false

end TemplateSegment

/-- A route template: at least one segment, with slashes between the segments and perhaps one in front and
    one at the end. -/
structure RouteTemplate where
  leading : Bool
  first : TemplateSegment
  rest : List TemplateSegment
  trailing : Bool

namespace RouteTemplate

/-- The slash at one end of a template, when it is there. -/
def margin (present : Bool) : List Char :=
  if present then ['/'] else []

def segments (t : RouteTemplate) : List TemplateSegment :=
  t.first :: t.rest

/-- The template without the slashes at its ends. -/
def inner (t : RouteTemplate) : List Char :=
  TemplateSegment.joined t.first t.rest

/-- The template as it is written. -/
def name (t : RouteTemplate) : String :=
  String.ofList (margin t.leading ++ t.inner ++ margin t.trailing)

/-- The string literal that spells the template, with the values in place of its variables. -/
def url (t : RouteTemplate) : Expr :=
  .ofPieces (.text (margin t.leading) :: t.first.piece ::
    t.rest.flatMap (fun s => [.text ['/'], s.piece]) ++ [.text (margin t.trailing)])

def WellFormed (t : RouteTemplate) : Prop :=
  ∀ s ∈ t.segments, s.WellFormed

instance (t : RouteTemplate) : Decidable t.WellFormed :=
  inferInstanceAs (Decidable (∀ s ∈ t.segments, s.WellFormed))

/-- No fixed text looks like a value, and some text, a slash at least, stands in front of each variable. -/
structure IsPlain (t : RouteTemplate) : Prop where
  segments : ∀ s ∈ t.segments, s.IsPlain
  text_first : t.leading = true ∨ t.first.isFixed = true

end RouteTemplate

/-! ## Fixed text -/

theorem ne_of_isFixedChar {c d : Char} (hc : isFixedChar c = true) (hd : isFixedChar d = false) : c ≠ d :=
  fun h => Bool.noConfusion (hc.symm.trans (h ▸ hd))

theorem not_mem_of_isFixedChar {cs : List Char} (h : ∀ c ∈ cs, isFixedChar c = true) {d : Char}
    (hd : isFixedChar d = false) : d ∉ cs :=
  fun hmem => ne_of_isFixedChar (h d hmem) hd rfl

theorem isBlank_of_isFixedChar {c : Char} (h : isFixedChar c = true) : Text.isBlank c = false := by
  have hrange : 33 ≤ c.toNat ∧ c.toNat ≤ 122 := by
    change (decide (c.val ≥ 65 ∧ c.val ≤ 90) || decide (c.val ≥ 97) && decide (c.val ≤ 122) ||
      decide (c.val ≥ 48) && decide (c.val ≤ 57) || decide (c = '-') || decide (c = '_') ||
      decide (c = '.')) = true at h
    simp only [Bool.or_eq_true, Bool.and_eq_true, decide_eq_true_eq, UInt32.le_iff_toNat_le,
      ge_iff_le] at h
    change (((((65 ≤ c.toNat ∧ c.toNat ≤ 90) ∨ (97 ≤ c.toNat ∧ c.toNat ≤ 122)) ∨
      (48 ≤ c.toNat ∧ c.toNat ≤ 57)) ∨ c = '-') ∨ c = '_') ∨ c = '.' at h
    rcases h with ((h | rfl) | rfl) | rfl
    · omega
    all_goals decide
  simp only [Text.isBlank, Bool.or_eq_false_iff, Bool.and_eq_false_iff, decide_eq_false_iff_not,
    beq_eq_false_iff_ne]
  omega

theorem isPathText_of_isFixedChar {cs : List Char} (h : ∀ c ∈ cs, isFixedChar c = true) :
    IsPathText cs := by
  intro c hc
  refine ⟨ne_of_isFixedChar (h c hc) rfl, ?_⟩
  rw [endsPath, Bool.or_eq_false_iff, decide_eq_false_iff_not, decide_eq_false_iff_not]
  exact ⟨ne_of_isFixedChar (h c hc) rfl, ne_of_isFixedChar (h c hc) rfl⟩

/-- Fixed text that does not look like a value is a literal segment. -/
theorem Segment.ofPart_fixed {text : List Char} (hw : (TemplateSegment.fixed text).WellFormed)
    (hp : (TemplateSegment.fixed text).IsPlain) : Segment.ofPart text = .literal (String.ofList text) := by
  obtain ⟨hne, hchars⟩ := hw
  obtain ⟨hdigits, huuid⟩ := hp
  have htrim : Text.trimBlank text = text :=
    Text.trimWhere_of_forall fun c hc => isBlank_of_isFixedChar (hchars c hc)
  have hpercent : text.contains '%' = false := by
    simpa using not_mem_of_isFixedChar hchars (d := '%') rfl
  have hplaceholder : isPlaceholderText text = false := by
    simp only [isPlaceholderText, htrim, hpercent, hdigits, huuid]
    cases text with
    | nil => exact absurd rfl hne
    | cons c cs =>
      have hc := hchars c List.mem_cons_self
      simp [ne_of_isFixedChar hc (d := '\x7b') rfl, ne_of_isFixedChar hc (d := '<') rfl,
        ne_of_isFixedChar hc (d := ':') rfl]
  rw [Segment.ofPart, hplaceholder]
  rfl

namespace TemplateSegment

variable {s : TemplateSegment}

theorem WellFormed.no_slash (h : s.WellFormed) : '/' ∉ s.text := by
  cases s with
  | fixed text => exact not_mem_of_isFixedChar h.2 rfl
  | hole text value => exact h.2.1

theorem WellFormed.text_ne_nil (h : s.WellFormed) : s.text ≠ [] := by
  cases s with
  | fixed text => exact h.1
  | hole text value =>
    rintro (rfl : text = [])
    exact Bool.noConfusion h.1

theorem isTemplateMargin_of_isFixedChar {c : Char} (h : isFixedChar c = true) :
    isTemplateMargin c = false := by
  simp [isTemplateMargin, ne_of_isFixedChar h (d := ' ') rfl, ne_of_isFixedChar h (d := '/') rfl,
    ne_of_isFixedChar h (d := '\\') rfl]

/-- A segment does not begin with a character of the margin. -/
theorem WellFormed.head (h : s.WellFormed) : ∃ c, s.text.head? = some c ∧ isTemplateMargin c = false := by
  cases s with
  | fixed text =>
    obtain ⟨hne, hchars⟩ := h
    cases text with
    | nil => exact absurd rfl hne
    | cons c cs => exact ⟨c, rfl, isTemplateMargin_of_isFixedChar (hchars c List.mem_cons_self)⟩
  | hole text value =>
    have hv := h.1
    cases text with
    | nil => exact Bool.noConfusion hv
    | cons c cs =>
      simp only [isVariable, Bool.or_eq_true, decide_eq_true_eq] at hv
      refine ⟨c, rfl, ?_⟩
      rcases hv with (rfl | rfl) | rfl <;> rfl

/-- A segment does not end with a character of the margin. -/
theorem WellFormed.last (h : s.WellFormed) :
    ∃ c, s.text.getLast? = some c ∧ isTemplateMargin c = false := by
  obtain ⟨c, hc⟩ := Option.isSome_iff_exists.mp (List.getLast?_isSome.mpr h.text_ne_nil)
  refine ⟨c, hc, ?_⟩
  cases s with
  | fixed text => exact isTemplateMargin_of_isFixedChar (h.2 c (List.mem_of_getLast? hc))
  | hole text value => exact h.2.2 c hc

/-- A segment has the same letter in the code of the template and in that of the endpoint. -/
theorem WellFormed.code_eq (h : s.WellFormed) :
    (if isVariable s.text = true then 'v' else 'c') = s.segment.code := by
  cases s with
  | fixed text =>
    have hfixed : isVariable text = false := by
      cases text with
      | nil => rfl
      | cons c cs =>
        have hc := h.2 c List.mem_cons_self
        simp [isVariable, ne_of_isFixedChar hc (d := '\x7b') rfl, ne_of_isFixedChar hc (d := '<') rfl,
          ne_of_isFixedChar hc (d := ':') rfl]
    exact if_neg (Bool.eq_false_iff.mp hfixed)
  | hole text value => exact if_pos h.1

end TemplateSegment

/-! ## The endpoint of the URL -/

namespace RouteTemplate

theorem pathSegments_margin {cs : List Char} (h : IsPathText cs) (present : Bool) :
    Endpoint.pathSegments (cs ++ margin present) = Endpoint.pathSegments cs := by
  cases present with
  | false => exact congrArg Endpoint.pathSegments (List.append_nil cs)
  | true => exact (Endpoint.pathSegments_append_cons h []).trans (List.append_nil _)

theorem isPathText_margin (present : Bool) : IsPathText (margin present) := by
  cases present <;> decide

theorem isPathText_slash : IsPathText ['/'] :=
  isPathText_margin true

/-- The walk over the pieces that spell some segments, each with a slash in front, and over the end of the
    template: `pending` is the text since the last value. -/
theorem walkAll_segments {ss : List TemplateSegment} (hw : ∀ s ∈ ss, s.WellFormed)
    (hp : ∀ s ∈ ss, s.IsPlain) (trailing : Bool) {w : UrlWalk} (hended : w.ended = false)
    {pending : List Char} (htext : IsPathText pending)
    (hhost : w.seenLiteral = true ∨ ':' ∉ pending ∧ (pending ≠ [] ∨ ss ≠ [])) :
    (w.walkAll (StringPiece.spelled pending
      (ss.flatMap (fun s => [.text ['/'], s.piece]) ++ [.text (margin trailing)]))).segments =
      w.segments ++ (Endpoint.pathSegments pending ++ ss.map TemplateSegment.segment) := by
  induction ss generalizing w pending with
  | nil =>
    show (w.walkAll (StringPiece.flushText (pending ++ margin trailing))).segments = _
    have hcolon : ':' ∉ margin trailing := by cases trailing <;> decide
    rw [UrlWalk.walkAll_flushText hended (htext.append (isPathText_margin trailing)),
      pathSegments_margin htext, List.map_nil, List.append_nil]
    refine hhost.imp_right fun ⟨hno, hne⟩ => ⟨?_, ?_⟩
    · exact fun hmem => (List.mem_append.mp hmem).elim hno hcolon
    · exact fun hnil => hne.elim (· (List.append_eq_nil_iff.mp hnil).1) (· rfl)
  | cons s ss ih =>
    have hws := fun r hr => hw r (List.mem_cons_of_mem _ hr)
    have hps := fun r hr => hp r (List.mem_cons_of_mem _ hr)
    have hslashed := htext.append isPathText_slash
    cases s with
    | fixed text =>
      have hs := hw _ List.mem_cons_self
      have hchars := isPathText_of_isFixedChar hs.2
      have hcolon : ':' ∉ text := not_mem_of_isFixedChar hs.2 rfl
      rw [List.flatMap_cons, List.append_assoc, List.cons_append, List.cons_append, List.nil_append]
      show (w.walkAll (StringPiece.spelled (pending ++ ['/'] ++ text) (_ ++ _))).segments = _
      rw [ih hws hps hended (hslashed.append hchars)
        (hhost.imp_right fun ⟨hno, _⟩ => ⟨by simp [hno, hcolon], .inl (by simp)⟩)]
      rw [List.append_assoc, List.singleton_append, Endpoint.pathSegments_append_cons htext,
        Endpoint.pathSegments_slash hchars (TemplateSegment.WellFormed.no_slash hs) hs.1,
        Segment.ofPart_fixed hs (hp _ List.mem_cons_self), List.append_assoc]
      rfl
    | hole text value =>
      rw [List.flatMap_cons, List.append_assoc, List.cons_append, List.cons_append, List.nil_append]
      show (w.walkAll (StringPiece.flushText (pending ++ ['/']) ++ Expr.formatted value ::
        StringPiece.spelled [] (_ ++ _))).segments = _
      rw [UrlWalk.walkAll_append, UrlWalk.walkAll_flushText hended hslashed
          (hhost.imp_right fun ⟨hno, _⟩ => ⟨by simp [hno], by simp⟩),
        UrlWalk.walkAll, UrlWalk.walk_formatted rfl, UrlWalk.placeholder_of_seenLiteral rfl,
        ih hws hps rfl .nil (.inl rfl)]
      have hslash : Endpoint.pathSegments (pending ++ ['/']) = Endpoint.pathSegments pending :=
        pathSegments_margin htext true
      simp [TemplateSegment.segment, hslash]

/-- The endpoint of the URL has the segments of the template. -/
theorem ofUrl_url {t : RouteTemplate} (ht : t.WellFormed) (hp : t.IsPlain) :
    Endpoint.ofUrl t.url = ⟨t.segments.map TemplateSegment.segment⟩ := by
  obtain ⟨leading, first, rest, trailing⟩ := t
  have hfirst : first.WellFormed := ht first List.mem_cons_self
  have hrest : ∀ s ∈ rest, s.WellFormed := fun s hs => ht s (List.mem_cons_of_mem _ hs)
  have hplain : ∀ s ∈ rest, s.IsPlain := fun s hs => hp.segments s (List.mem_cons_of_mem _ hs)
  rw [url, Endpoint.ofUrl_ofPieces]
  congr 1
  cases leading with
  | true =>
    exact walkAll_segments ht hp.segments trailing rfl .nil
      (.inr ⟨List.not_mem_nil, .inr (List.cons_ne_nil _ _)⟩)
  | false =>
    cases first with
    | hole text value => exact (hp.text_first.elim Bool.noConfusion Bool.noConfusion)
    | fixed text =>
      have hchars := isPathText_of_isFixedChar hfirst.2
      have hwalk := walkAll_segments hrest hplain trailing (w := .start) rfl hchars
        (.inr ⟨not_mem_of_isFixedChar hfirst.2 rfl, .inl hfirst.1⟩)
      rw [Endpoint.pathSegments_of_not_mem hchars hfirst.no_slash, if_neg hfirst.1,
        Segment.ofPart_fixed hfirst (hp.segments _ List.mem_cons_self)] at hwalk
      exact hwalk

end RouteTemplate

/-! ## The name of the route -/

namespace TemplateSegment

variable {first : TemplateSegment} {rest : List TemplateSegment}

theorem joined_cons (first s : TemplateSegment) (rest : List TemplateSegment) :
    joined first (s :: rest) = first.text ++ '/' :: joined s rest := by
  rw [joined, joined, List.flatMap_cons, List.cons_append]

theorem joined_concat (first : TemplateSegment) (init : List TemplateSegment) (last : TemplateSegment) :
    joined first (init ++ [last]) = joined first init ++ '/' :: last.text := by
  rw [joined, joined, List.flatMap_append, List.flatMap_singleton, List.append_assoc]

/-- Cutting segments that are joined gives them back. -/
theorem parts_joined (hw : ∀ s ∈ first :: rest, s.WellFormed) :
    Text.parts '/' (joined first rest) = (first :: rest).map text := by
  have hfirst := hw first List.mem_cons_self
  have hcut := Text.parts_of_not_mem hfirst.no_slash hfirst.text_ne_nil
  induction rest generalizing first with
  | nil => rwa [joined, List.flatMap_nil, List.append_nil]
  | cons s rest ih =>
    have htail := fun r hr => hw r (List.mem_cons_of_mem _ hr)
    have hs := htail s List.mem_cons_self
    rw [joined_cons, Text.parts_append_cons, hcut,
      ih htail hs (Text.parts_of_not_mem hs.no_slash hs.text_ne_nil)]
    rfl

/-- Slashes after the segments instead of between them. -/
theorem joined_append_slash (first : TemplateSegment) (rest : List TemplateSegment) :
    joined first rest ++ ['/'] = (first :: rest).flatMap fun s => s.text ++ ['/'] := by
  induction rest generalizing first with
  | nil => rw [joined, List.flatMap_nil, List.append_nil, List.flatMap_singleton]
  | cons s rest ih =>
    rw [joined_cons, List.flatMap_cons, List.append_assoc, List.cons_append, ih, List.append_assoc,
      List.singleton_append]

theorem joined_head (h : first.WellFormed) (rest : List TemplateSegment) :
    ∃ c, (joined first rest).head? = some c ∧ isTemplateMargin c = false := by
  obtain ⟨c, hc, hmargin⟩ := h.head
  refine ⟨c, ?_, hmargin⟩
  rw [joined, List.head?_append, hc]
  rfl

theorem joined_last (hw : ∀ s ∈ first :: rest, s.WellFormed) :
    ∃ c, (joined first rest).getLast? = some c ∧ isTemplateMargin c = false := by
  rcases List.eq_nil_or_concat rest with rfl | ⟨init, last, hrest⟩
  · rw [joined, List.flatMap_nil, List.append_nil]
    exact (hw first List.mem_cons_self).last
  · rw [List.concat_eq_append] at hrest
    subst hrest
    obtain ⟨c, hc, hmargin⟩ := (hw last (by simp)).last
    refine ⟨c, ?_, hmargin⟩
    rw [joined_concat, List.getLast?_append, List.getLast?_cons, hc]
    rfl

/-- A text begins with the segments of the endpoint when it begins with those of the template. -/
theorem startText_segments {ss : List TemplateSegment} (hw : ∀ s ∈ ss, s.WellFormed) :
    Segment.startText (ss.map segment) (ss.flatMap fun s => s.text ++ ['/']) = true := by
  induction ss with
  | nil => rfl
  | cons s ss ih =>
    have htail := ih fun r hr => hw r (List.mem_cons_of_mem _ hr)
    have hs := hw s List.mem_cons_self
    have hslash : '/' ∉ s.text := hs.no_slash
    rw [List.flatMap_cons, List.map_cons]
    cases s with
    | fixed text =>
      show Segment.startText (.literal (String.ofList text) :: _) (text ++ ['/'] ++ _) = true
      rw [Segment.startText, String.toList_ofList, Text.dropInitial?_append]
      exact htail
    | hole text value =>
      obtain ⟨c, cs, rfl⟩ := List.exists_cons_of_ne_nil hs.text_ne_nil
      have hspan := Text.span_append_cons (show '/' ∉ c :: cs from hslash)
        (ss.flatMap fun s => s.text ++ ['/'])
      show Segment.startText (.placeholder :: _) (c :: cs ++ ['/'] ++ _) = true
      rw [Segment.startText, List.append_assoc, List.singleton_append, hspan]
      exact htail

end TemplateSegment

namespace RouteTemplate

variable {t : RouteTemplate}

/-- The name of the route has one slash on each side of the template. -/
theorem normalizeName_name (ht : t.WellFormed) :
    normalizeName t.name = String.ofList ('/' :: t.inner ++ ['/']) := by
  have hmargin : ∀ present, ∀ c ∈ margin present, isTemplateMargin c = true := fun present =>
    List.all_eq_true.mp (by cases present <;> rfl)
  obtain ⟨first, hfirst, hpf⟩ := TemplateSegment.joined_head (ht t.first List.mem_cons_self) t.rest
  obtain ⟨last, hlast, hpl⟩ := TemplateSegment.joined_last ht
  have htrim : Text.trimWhere isTemplateMargin t.name.toList = t.inner := by
    rw [name, String.toList_ofList]
    exact Text.trimWhere_append (hmargin _) (hmargin _) hfirst hlast hpf hpl
  rw [normalizeName, htrim]
  cases hinner : t.inner with
  | nil =>
    rw [inner] at hinner
    rw [hinner] at hfirst
    cases hfirst
  | cons c cs => rfl

/-- The pattern code of the name is that of the endpoint with the segments of the template. -/
theorem patternCode_name (ht : t.WellFormed) :
    patternCode (normalizeName t.name) = Endpoint.code ⟨t.segments.map TemplateSegment.segment⟩ := by
  have hparts : Text.parts '/' ('/' :: t.inner ++ ['/']) = t.segments.map TemplateSegment.text := by
    rw [Text.parts_append_self, Text.parts_cons_self]
    exact TemplateSegment.parts_joined ht
  rw [normalizeName_name ht, patternCode, String.toList_ofList]
  show String.ofList ((Text.parts '/' ('/' :: t.inner ++ ['/'])).map _) = String.ofList _
  rw [hparts, List.map_map, List.map_map]
  exact congrArg String.ofList (List.map_congr_left fun s hs => (ht s hs).code_eq)

/-- The name of the route begins with that endpoint. -/
theorem startsName_name (ht : t.WellFormed) :
    Endpoint.startsName ⟨t.segments.map TemplateSegment.segment⟩ (normalizeName t.name) = true := by
  rw [normalizeName_name ht, Endpoint.startsName, String.toList_ofList]
  show (decide ('/' = '/') && Segment.startText _ (t.inner ++ ['/'])) = true
  rw [inner, TemplateSegment.joined_append_slash]
  exact TemplateSegment.startText_segments ht

end RouteTemplate

/-! ## Calling a route -/

/-- A call of a client that sends a request with a verb to a URL: by the method named after the verb, or by
    `request` with the verb as a string. -/
inductive Clients.Requests (clients : Clients) (verb : String) (url : Expr) (c : Call) : Prop where
  | verb {receiver : Expr} {attr : String} (callee : c.func = .attribute receiver attr)
      (client : clients.isClient receiver = true) (called : Text.lower attr = verb)
      (target : c.args[0]?.or (c.keyword? "url") = some url)
  | request {receiver : Expr} {attr method : String} (callee : c.func = .attribute receiver attr)
      (client : clients.isClient receiver = true) (called : Text.lower attr = "request")
      (sent : c.args[0]?.or (c.keyword? "method") = some (.str method))
      (method_eq : Text.upper (Text.trim method) = Text.upper verb)
      (target : c.args[1]?.or (c.keyword? "url") = some url)

theorem Clients.Requests.candidate? {clients : Clients} {verb : String} {url : Expr} {c : Call}
    (h : clients.Requests verb url c) (hverb : verb ∈ routeVerbs) :
    clients.candidate? c = some (Text.upper verb, url) := by
  cases h with
  | verb callee client called target =>
    have hne : verb ≠ "request" := by
      rintro rfl
      exact absurd hverb (by decide)
    rw [Clients.candidate?, callee]
    simp only [client, called, hne, hverb, target]
    rfl
  | request callee client called sent method_eq target =>
    have htarget : c.requestTarget? = some (Text.upper verb, url) := by
      rw [Call.requestTarget?, sent, target]
      show some (Text.upper (Text.trim _), url) = _
      rw [method_eq]
    rw [Clients.candidate?, callee]
    simp only [client, called, htarget]
    rfl

/-- The case of a verb does not matter to a route. -/
theorem Route.accepts_upper (r : Route) {verb : String} (h : verb ∈ routeVerbs) :
    r.accepts (Text.upper verb) = r.accepts verb := by
  have hlower : ∀ v ∈ routeVerbs, Text.lower (Text.upper v) = Text.lower v := by decide
  rw [Route.accepts, Route.accepts, hlower verb h]

namespace RouteTemplate

variable {t : RouteTemplate} {routes : List Route} {r : Route} {clients : Clients} {verb : String}

/-- The catalog has a route for the URL that spells a plain template. -/
theorem exists_find?_url (ht : t.WellFormed) (hp : t.IsPlain) (hr : r ∈ routes) (hname : r.name = t.name)
    (hblank : Text.trim r.pattern = "") (haccepts : r.normalize.accepts verb = true)
    (hcatalog : clients.catalog = .ofRoutes routes) :
    ∃ m, clients.find? verb (Endpoint.ofUrl t.url) = some m ∧ m ∈ clients.catalog.routes ∧
      m.accepts verb = true ∧ m.pattern = r.normalize.pattern := by
  have hmem : r.normalize ∈ clients.catalog.routes := by
    rw [hcatalog]
    exact List.mem_map_of_mem hr
  have hpattern : r.normalize.pattern = Endpoint.code ⟨t.segments.map TemplateSegment.segment⟩ := by
    rw [← patternCode_name ht, ← hname]
    exact if_pos hblank
  have hstarts : Endpoint.startsName ⟨t.segments.map TemplateSegment.segment⟩ r.normalize.name = true := by
    rw [← startsName_name ht, ← hname]
    rfl
  rw [ofUrl_url ht hp]
  obtain ⟨m, hm⟩ := Option.isSome_iff_exists.mp (List.find?_isSome.mpr
    (⟨r.normalize, hmem, by simp [haccepts, hpattern, hstarts]⟩ : ∃ m ∈ clients.catalog.routes,
      (m.accepts verb && m.pattern = Endpoint.code ⟨t.segments.map TemplateSegment.segment⟩ &&
        Endpoint.startsName ⟨t.segments.map TemplateSegment.segment⟩ m.name) = true))
  have hfound := List.find?_some hm
  simp only [Bool.and_eq_true, decide_eq_true_eq] at hfound
  refine ⟨m, ?_, List.mem_of_find?_eq_some hm, hfound.1.1, hfound.1.2.trans hpattern.symm⟩
  have hne : t.segments.map TemplateSegment.segment ≠ [] := List.cons_ne_nil _ _
  rw [Clients.find?, if_neg hne]
  exact hm

/-- **A route can be called by its own template.** In a body that is annotated with a catalog, every request
    whose URL spells a plain template is given a route, when the catalog has a route of that name which
    accepts the verb of the request and whose pattern code follows from its name. -/
theorem call_matched (ht : t.WellFormed) (hp : t.IsPlain) (hr : r ∈ routes) (hname : r.name = t.name)
    (hblank : Text.trim r.pattern = "") (hverb : verb ∈ routeVerbs)
    (haccepts : r.normalize.accepts verb = true) (hcatalog : clients.catalog = .ofRoutes routes)
    {body : List Stmt} {i : Nat} {c : Call} (hc : (Stmt.callsIn body)[i]? = some c)
    (hrequest : clients.Requests verb t.url c) :
    ∃ annotated routing m, (Stmt.callsIn (clients.annotate body))[i]? = some annotated ∧
      annotated.route = some routing ∧ routing.method = Text.upper verb ∧ routing.matched = some m ∧
      m ∈ clients.catalog.routes ∧ m.accepts verb = true ∧ m.pattern = r.normalize.pattern := by
  have hupper : r.normalize.accepts (Text.upper verb) = true := (r.normalize.accepts_upper hverb).trans haccepts
  obtain ⟨m, hfind, hm, hmaccepts, hmpattern⟩ := exists_find?_url ht hp hr hname hblank hupper hcatalog
  have hrouting : ∃ routing, clients.routing? c = some routing ∧ routing.method = Text.upper verb ∧
      routing.matched = some m := by
    rw [Clients.routing?, hrequest.candidate? hverb]
    exact ⟨_, rfl, rfl, hfind⟩
  obtain ⟨routing, hrouting, hmethod, hmatched⟩ := hrouting
  have hroutes := congrArg (·[i]?) (clients.annotates_annotate body).routes
  simp only [List.getElem?_map, hc, Option.map_some, hrouting, Option.some_or] at hroutes
  obtain ⟨annotated, hannotated, hroute⟩ := Option.map_eq_some_iff.mp hroutes
  exact ⟨annotated, routing, m, hannotated, hroute, hmethod, hmatched, hm,
    (m.accepts_upper hverb).symm.trans hmaccepts, hmpattern⟩

/-- A route with the name of a template, which accepts `GET`. Its pattern code follows from its name. -/
def route (t : RouteTemplate) : Route :=
  ⟨t.name, ["GET"], "", "cart", "items", none, none, none⟩

/-- Clients with a catalog of just that route. -/
def soleClients (t : RouteTemplate) : Clients :=
  .ofNames (.ofRoutes [t.route]) ["requests"]

/-- The call `requests.get(url)` of the URL that spells a template. -/
def get (t : RouteTemplate) : Call :=
  ⟨.attribute (.name "requests") "get", [t.url], [], 3, none⟩

/-- The template `/cart/items/<int:user_id>`. -/
def cartItems : RouteTemplate :=
  ⟨true, .fixed "cart".toList,
    [.fixed "items".toList, .hole "<int:user_id>".toList (.name "user_id")], false⟩

/-- The call of the cart's items reaches the cart. -/
theorem cartItems_matched :
    ∃ annotated routing m,
      (Stmt.callsIn (cartItems.soleClients.annotate [.expr (.call cartItems.get) 3]))[0]? = some annotated ∧
      annotated.route = some routing ∧ routing.method = Text.upper "get" ∧ routing.matched = some m ∧
      m ∈ cartItems.soleClients.catalog.routes ∧ m.accepts "get" = true ∧
      m.pattern = cartItems.route.normalize.pattern :=
  call_matched (t := cartItems) (by decide) ⟨by decide, .inl rfl⟩
    (List.mem_singleton_self cartItems.route) rfl rfl (by decide) rfl rfl (c := cartItems.get) rfl
    (.verb rfl rfl rfl rfl)

/-- A template whose own call is not matched, although the route accepts the verb. -/
def IsUnmatched (t : RouteTemplate) : Prop :=
  t.WellFormed ∧ t.soleClients.Requests "get" t.url t.get ∧ t.route.normalize.accepts "get" = true ∧
    (t.soleClients.routing? t.get).map (·.matched) = some none

/-- **Templates that cannot be called.** In `/items/5/<user_id>` the number is a variable of the URL, in the
    second template the UUID, and in `<shop>/items` the URL begins with a variable, which does not count. -/
theorem unmatched_templates :
    IsUnmatched ⟨true, .fixed "items".toList,
      [.fixed "5".toList, .hole "<user_id>".toList (.name "user_id")], false⟩ ∧
    IsUnmatched ⟨true, .fixed "items".toList,
      [.fixed "00000000-0000-0000-0000-000000000001".toList], false⟩ ∧
    IsUnmatched ⟨false, .hole "<shop>".toList (.name "shop"), [.fixed "items".toList], false⟩ := by
  refine ⟨?_, ?_, ?_⟩
  all_goals exact ⟨by decide, .verb rfl rfl rfl rfl, rfl, rfl⟩

end RouteTemplate

end ServiceTrace
