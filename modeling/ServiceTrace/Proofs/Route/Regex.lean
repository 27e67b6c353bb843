import ServiceTrace.Proofs.Text.Split
import ServiceTrace.Route.Client

/-!
# `ServiceTrace.Proofs.Route.Regex` — the regular expressions of endpoints

The lookup of a route tests its name with `Endpoint.startsName`, which says what the regular expression of
the endpoint means. The expression itself is a text (`Endpoint.regexSource`), and what a text means is up
to the engine that compiles it. Here an engine is a parameter, and it is *faithful* when it does what every
manual says about the few things these texts are made of: escaped characters, the group `([^/]+)`, and the
anchor `^` in front. With a faithful engine the test is the one of `Endpoint.startsName`, so the lookup that
compiles the text is `Clients.find?` (`RegexEngine.IsFaithful.findBy_eq`).

## Contents
- **`RegexItem`**, **`RegexItem.source`**, **`RegexItem.Reads`** — the expressions and what they match.
- **`RegexEngine`**, **`RegexEngine.IsFaithful`**, **`Clients.findBy`** — engines, and the lookup by one.
- **`Segment.Fits`** — what one segment matches, with `reads_items_iff` and `startText_iff`.
- **`RegexEngine.backtracking`** — an engine that is faithful.
-/

namespace ServiceTrace

/-! ## Expressions -/

/-- The items of the regular expressions of endpoints: a character, or the group of one or more characters
    that are no slashes. -/
inductive RegexItem where
  | char (c : Char)
  | run
deriving DecidableEq

namespace RegexItem

/-- An item as it is written. -/
def source : RegexItem → List Char
  | char c => (regexEscape (String.ofList [c])).toList
  | run => ['(', '[', '^', '/', ']', '+', ')']

/-- The expression of the items, anchored at the beginning of the text. -/
def anchored (items : List RegexItem) : String :=
  String.ofList ('^' :: items.flatMap source)

/-- The texts that items match one after the other. -/
inductive Reads : List RegexItem → List Char → Prop where
  | nil : Reads [] []
  | char {c : Char} {items : List RegexItem} {cs : List Char} (tail : Reads items cs) :
      Reads (char c :: items) (c :: cs)
  | run {text : List Char} {items : List RegexItem} {cs : List Char} (ne_nil : text ≠ [])
      (no_slash : '/' ∉ text) (tail : Reads items cs) : Reads (run :: items) (text ++ cs)

/-- Whether a text begins with one that the items match. -/
def Starts (items : List RegexItem) (cs : List Char) : Prop :=
  ∃ read rest, cs = read ++ rest ∧ Reads items read

end RegexItem

/-! ## Engines -/

/-- An engine for regular expressions: the test that a text is compiled to, when it is compiled. -/
structure RegexEngine where
  compile? : String → Option (String → Bool)

/-- An engine that compiles every anchored expression, to the test whether a text begins with one that the
    items match. -/
def RegexEngine.IsFaithful (engine : RegexEngine) : Prop :=
  ∀ items, ∃ isMatch, engine.compile? (RegexItem.anchored items) = some isMatch ∧
    ∀ text, isMatch text = true ↔ RegexItem.Starts items text.toList

/-- The route that a request reaches, when the names of routes are tested by an engine. -/
def Clients.findBy (engine : RegexEngine) (clients : Clients) (method : String) (e : Endpoint) :
    Option Route :=
  if e.segments = [] then none
  else
    match engine.compile? e.regexSource with
    | none => none
    | some isMatch =>
      clients.catalog.routes.find? fun r => r.accepts method && r.pattern = e.code && isMatch r.name

/-! ## The expression of an endpoint -/

/-- The items of a segment. -/
def Segment.items : Segment → List RegexItem
  | .literal text => text.toList.map .char
  | .placeholder => [.run]

/-- The items of an endpoint: a slash in front, and one behind each segment. -/
def Endpoint.items (e : Endpoint) : List RegexItem :=
  .char '/' :: Text.closed (.char '/') (e.segments.map Segment.items)

namespace RegexItem

/-- A character is escaped when it has a meaning of its own. -/
theorem source_char (c : Char) : source (.char c) = if c ∈ regexSpecial then ['\\', c] else [c] := by
  rw [source, regexEscape, String.toList_ofList, String.toList_ofList, List.flatMap_singleton]

theorem source_slash : source (.char '/') = ['/'] := by
  rw [source_char]
  rfl

theorem flatMap_source_items (s : Segment) : s.items.flatMap source = s.regex.toList := by
  cases s with
  | literal text =>
    rw [Segment.items, Segment.regex, regexEscape, String.toList_ofList, List.flatMap_map]
    simp only [source_char]
  | placeholder => rfl

theorem flatMap_source_closed (segments : List Segment) :
    (Text.closed (.char '/') (segments.map Segment.items)).flatMap source =
      Text.closed '/' (segments.map fun s => s.regex.toList) := by
  induction segments with
  | nil => rfl
  | cons s segments ih =>
    rw [List.map_cons, List.map_cons, Text.closed_cons, Text.closed_cons, List.flatMap_append,
      List.flatMap_cons, flatMap_source_items, source_slash, ih]
    rfl

end RegexItem

/-- The regular expression of an endpoint is that of its items. -/
theorem Endpoint.regexSource_eq {e : Endpoint} (h : e.segments ≠ []) :
    e.regexSource = RegexItem.anchored e.items := by
  have hne : e.segments.map Segment.regex ≠ [] := mt List.map_eq_nil_iff.mp h
  have hbody := Text.toList_intercalate_append (s := "/") (by rfl) hne
  apply String.toList_injective
  rw [RegexItem.anchored, String.toList_ofList, Endpoint.items, List.flatMap_cons, RegexItem.source_slash,
    RegexItem.flatMap_source_closed, Endpoint.regexSource, String.toList_append, String.toList_append,
    List.append_assoc]
  rw [List.map_map] at hbody
  exact congrArg ('^' :: '/' :: ·) hbody

/-! ## What it matches -/

/-- What one segment matches: a literal its own text, a placeholder any text without slashes but the empty
    one. -/
def Segment.Fits : Segment → List Char → Prop
  | .literal text, part => part = text.toList
  | .placeholder, part => part ≠ [] ∧ '/' ∉ part

namespace RegexItem

theorem reads_char_iff {c : Char} {items : List RegexItem} {cs : List Char} :
    Reads (.char c :: items) cs ↔ ∃ tail, cs = c :: tail ∧ Reads items tail := by
  constructor
  · intro h
    cases h with
    | char tail => exact ⟨_, rfl, tail⟩
  · rintro ⟨tail, rfl, htail⟩
    exact .char htail

theorem reads_chars_iff {text : List Char} {items : List RegexItem} {cs : List Char} :
    Reads (text.map .char ++ items) cs ↔ ∃ tail, cs = text ++ tail ∧ Reads items tail := by
  induction text generalizing cs with
  | nil => simp
  | cons c text ih =>
    rw [List.map_cons, List.cons_append, reads_char_iff]
    constructor
    · rintro ⟨read, rfl, hread⟩
      obtain ⟨tail, rfl, htail⟩ := ih.mp hread
      exact ⟨tail, rfl, htail⟩
    · rintro ⟨tail, rfl, htail⟩
      exact ⟨text ++ tail, rfl, ih.mpr ⟨tail, rfl, htail⟩⟩

theorem reads_run_iff {items : List RegexItem} {cs : List Char} :
    Reads (.run :: items) cs ↔
      ∃ part tail, cs = part ++ tail ∧ (part ≠ [] ∧ '/' ∉ part) ∧ Reads items tail := by
  constructor
  · intro h
    cases h with
    | run hne hslash htail => exact ⟨_, _, rfl, ⟨hne, hslash⟩, htail⟩
  · rintro ⟨part, tail, rfl, ⟨hne, hslash⟩, htail⟩
    exact .run hne hslash htail

/-- The items of a segment match what the segment matches. -/
theorem reads_segment_iff {s : Segment} {items : List RegexItem} {cs : List Char} :
    Reads (s.items ++ items) cs ↔ ∃ part tail, cs = part ++ tail ∧ s.Fits part ∧ Reads items tail := by
  cases s with
  | literal text =>
    rw [Segment.items, reads_chars_iff]
    constructor
    · rintro ⟨tail, hcut, htail⟩
      exact ⟨text.toList, tail, hcut, rfl, htail⟩
    · rintro ⟨part, tail, hcut, rfl, htail⟩
      exact ⟨tail, hcut, htail⟩
  | placeholder => exact reads_run_iff

/-- The items of segments match one part for each segment, with a slash behind it. -/
theorem reads_closed_iff {segments : List Segment} {cs : List Char} :
    Reads (Text.closed (.char '/') (segments.map Segment.items)) cs ↔
      ∃ parts, List.Forall₂ Segment.Fits segments parts ∧ cs = Text.closed '/' parts := by
  induction segments generalizing cs with
  | nil =>
    constructor
    · intro h
      cases h
      exact ⟨[], .nil, rfl⟩
    · rintro ⟨parts, ⟨⟩, rfl⟩
      exact .nil
  | cons s segments ih =>
    rw [List.map_cons, Text.closed_cons, reads_segment_iff]
    constructor
    · rintro ⟨part, tail, rfl, hpart, htail⟩
      obtain ⟨read, rfl, hread⟩ := reads_char_iff.mp htail
      obtain ⟨parts, hparts, rfl⟩ := ih.mp hread
      exact ⟨part :: parts, .cons hpart hparts, (Text.closed_cons part parts).symm⟩
    · rintro ⟨parts, hparts, rfl⟩
      cases hparts with
      | cons hpart hparts =>
        exact ⟨_, _, Text.closed_cons _ _, hpart, reads_char_iff.mpr ⟨_, rfl, ih.mpr ⟨_, hparts, rfl⟩⟩⟩

end RegexItem

namespace Segment

/-- The test of `startText` takes a part that the first segment fits, and its slash. -/
theorem startText_cons_iff {s : Segment} {segments : List Segment} {cs : List Char} :
    startText (s :: segments) cs = true ↔
      ∃ part tail, cs = part ++ '/' :: tail ∧ s.Fits part ∧ startText segments tail = true := by
  cases s with
  | literal text =>
    constructor
    · intro h
      rw [startText] at h
      split at h
      · next tail htail =>
        have hcs := Text.dropInitial?_eq_some_iff.mp htail
        rw [List.append_assoc] at hcs
        exact ⟨text.toList, tail, hcs, rfl, h⟩
      · exact absurd h Bool.false_ne_true
    · rintro ⟨part, tail, rfl, rfl, htail⟩
      have hdrop := Text.dropInitial?_append (text.toList ++ ['/']) tail
      rw [List.append_assoc, List.singleton_append] at hdrop
      rw [startText, hdrop]
      exact htail
  | placeholder =>
    constructor
    · intro h
      rw [startText] at h
      split at h
      · next c before d tail hspan =>
        obtain ⟨hslash, hcs⟩ := Text.of_span hspan
        exact ⟨c :: before, tail, hcs, ⟨List.cons_ne_nil _ _, hslash⟩, h⟩
      · exact absurd h Bool.false_ne_true
    · rintro ⟨part, tail, rfl, ⟨hne, hslash⟩, htail⟩
      obtain ⟨c, before, rfl⟩ := List.exists_cons_of_ne_nil hne
      rw [startText, Text.span_append_cons hslash]
      exact htail

/-- So it finds one part for each segment. -/
theorem startText_iff {segments : List Segment} {cs : List Char} :
    startText segments cs = true ↔
      ∃ parts rest, List.Forall₂ Segment.Fits segments parts ∧ cs = Text.closed '/' parts ++ rest := by
  induction segments generalizing cs with
  | nil =>
    constructor
    · intro _
      exact ⟨[], cs, .nil, rfl⟩
    · intro _
      rw [startText]
  | cons s segments ih =>
    rw [startText_cons_iff]
    constructor
    · rintro ⟨part, tail, rfl, hpart, htail⟩
      obtain ⟨parts, rest, hparts, rfl⟩ := ih.mp htail
      refine ⟨part :: parts, rest, .cons hpart hparts, ?_⟩
      rw [Text.closed_cons, List.append_assoc]
      rfl
    · rintro ⟨parts, rest, hparts, rfl⟩
      cases hparts with
      | @cons _ part _ parts hpart hparts =>
        refine ⟨part, Text.closed '/' parts ++ rest, ?_, hpart, ih.mpr ⟨parts, rest, hparts, rfl⟩⟩
        rw [Text.closed_cons, List.append_assoc]
        rfl

end Segment

/-- A name begins with an endpoint when it begins with a slash and a part for each segment. -/
theorem Endpoint.startsName_iff {e : Endpoint} {name : String} :
    e.startsName name = true ↔ ∃ parts rest, List.Forall₂ Segment.Fits e.segments parts ∧
      name.toList = '/' :: Text.closed '/' parts ++ rest := by
  rw [Endpoint.startsName]
  cases name.toList with
  | nil => simp
  | cons c cs =>
    rw [Bool.and_eq_true, decide_eq_true_eq, Segment.startText_iff]
    constructor
    · rintro ⟨rfl, parts, rest, hparts, rfl⟩
      exact ⟨parts, rest, hparts, rfl⟩
    · rintro ⟨parts, rest, hparts, hcut⟩
      rw [List.cons_append, List.cons.injEq] at hcut
      exact ⟨hcut.1, parts, rest, hparts, hcut.2⟩

/-- **`startsName` is the meaning of the regular expression.** -/
theorem Endpoint.starts_items_iff {e : Endpoint} {name : String} :
    RegexItem.Starts e.items name.toList ↔ e.startsName name = true := by
  rw [Endpoint.startsName_iff]
  constructor
  · rintro ⟨read, rest, hcut, hread⟩
    obtain ⟨tail, rfl, htail⟩ := RegexItem.reads_char_iff.mp hread
    obtain ⟨parts, hparts, rfl⟩ := RegexItem.reads_closed_iff.mp htail
    exact ⟨parts, rest, hparts, hcut⟩
  · rintro ⟨parts, rest, hparts, hcut⟩
    have hread : RegexItem.Reads e.items ('/' :: Text.closed '/' parts) :=
      .char (RegexItem.reads_closed_iff.mpr ⟨parts, hparts, rfl⟩)
    exact ⟨_, rest, hcut, hread⟩

/-- The lookup by a faithful engine is the lookup. -/
theorem RegexEngine.IsFaithful.findBy_eq {engine : RegexEngine} (h : engine.IsFaithful) (clients : Clients)
    (method : String) (e : Endpoint) : clients.findBy engine method e = clients.find? method e := by
  rw [Clients.findBy, Clients.find?]
  by_cases hnil : e.segments = []
  · rw [if_pos hnil, if_pos hnil]
  · obtain ⟨isMatch, hcompile, hmatch⟩ := h e.items
    have hname : ∀ name, isMatch name = e.startsName name := by
      intro name
      apply Bool.eq_iff_iff.mpr
      exact (hmatch name).trans Endpoint.starts_items_iff
    rw [if_neg hnil, if_neg hnil, Endpoint.regexSource_eq hnil, hcompile]
    simp only [hname]

/-! ## An engine -/

namespace RegexItem

/-- The items of a text that is written in them. -/
def scan? : List Char → Option (List RegexItem)
  | [] => some []
  | '\\' :: c :: cs => (scan? cs).map (.char c :: ·)
  | '(' :: '[' :: '^' :: '/' :: ']' :: '+' :: ')' :: cs => (scan? cs).map (.run :: ·)
  | c :: cs => if c ∈ regexSpecial then none else (scan? cs).map (.char c :: ·)

/-- Whether a text begins with one that the items match. A run takes as much as the items behind it
    leave. -/
def starts : List RegexItem → List Char → Bool
  | [], _ => true
  | _ :: _, [] => false
  | .char c :: items, d :: cs => c = d && starts items cs
  | .run :: items, d :: cs => d ≠ '/' && (starts items cs || starts (.run :: items) cs)

/-- What items are written as is read back. -/
theorem scan?_source (items : List RegexItem) : scan? (items.flatMap source) = some items := by
  induction items with
  | nil => rfl
  | cons item items ih =>
    rw [List.flatMap_cons]
    cases item with
    | run =>
      show (scan? (items.flatMap source)).map (RegexItem.run :: ·) = some (.run :: items)
      rw [ih]
      rfl
    | char c =>
      rw [source_char]
      by_cases hspecial : c ∈ regexSpecial
      · rw [if_pos hspecial]
        show (scan? (items.flatMap source)).map (RegexItem.char c :: ·) = some (.char c :: items)
        rw [ih]
        rfl
      · have hback : c ≠ '\\' := fun h => hspecial (h ▸ by decide)
        have hgroup : c ≠ '(' := fun h => hspecial (h ▸ by decide)
        rw [if_neg hspecial, List.singleton_append, scan?, if_neg hspecial, ih]
        · rfl
        · intro _ _ h
          exact absurd h hback
        · intro _ h
          exact absurd h hgroup

theorem not_starts_nil (item : RegexItem) (items : List RegexItem) : ¬ Starts (item :: items) [] := by
  rintro ⟨read, rest, hcut, hread⟩
  obtain ⟨rfl, rfl⟩ := List.append_eq_nil_iff.mp hcut.symm
  cases item with
  | char c => exact nomatch hread
  | run =>
    obtain ⟨part, tail, hnil, ⟨hne, -⟩, -⟩ := reads_run_iff.mp hread
    exact hne (List.append_eq_nil_iff.mp hnil.symm).1

theorem starts_char_cons_iff {c d : Char} {items : List RegexItem} {cs : List Char} :
    Starts (.char c :: items) (d :: cs) ↔ c = d ∧ Starts items cs := by
  constructor
  · rintro ⟨read, rest, hcut, hread⟩
    obtain ⟨tail, rfl, htail⟩ := reads_char_iff.mp hread
    rw [List.cons_append, List.cons.injEq] at hcut
    exact ⟨hcut.1.symm, tail, rest, hcut.2, htail⟩
  · rintro ⟨rfl, read, rest, rfl, hread⟩
    exact ⟨c :: read, rest, rfl, .char hread⟩

/-- A run is over after its first character, or goes on. -/
theorem starts_run_cons_iff {d : Char} {items : List RegexItem} {cs : List Char} :
    Starts (.run :: items) (d :: cs) ↔ d ≠ '/' ∧ (Starts items cs ∨ Starts (.run :: items) cs) := by
  constructor
  · rintro ⟨read, rest, hcut, hread⟩
    obtain ⟨part, tail, rfl, ⟨hne, hslash⟩, htail⟩ := reads_run_iff.mp hread
    obtain ⟨c, part, rfl⟩ := List.exists_cons_of_ne_nil hne
    obtain ⟨rfl, rfl⟩ : d = c ∧ cs = part ++ tail ++ rest := by simpa using hcut
    refine ⟨(List.ne_of_not_mem_cons hslash).symm, ?_⟩
    by_cases hover : part = []
    · subst hover
      exact .inl ⟨tail, rest, rfl, htail⟩
    · exact .inr ⟨part ++ tail, rest, rfl, .run hover (List.not_mem_of_not_mem_cons hslash) htail⟩
  · rintro ⟨hd, ⟨read, rest, rfl, hread⟩ | ⟨read, rest, rfl, hread⟩⟩
    · have hslash : '/' ∉ [d] := by simpa using hd.symm
      exact ⟨[d] ++ read, rest, rfl, .run (List.cons_ne_nil _ _) hslash hread⟩
    · obtain ⟨part, tail, rfl, ⟨-, hslash⟩, htail⟩ := reads_run_iff.mp hread
      have hslash : '/' ∉ d :: part := List.not_mem_cons_of_ne_of_not_mem hd.symm hslash
      exact ⟨d :: part ++ tail, rest, rfl, .run (List.cons_ne_nil _ _) hslash htail⟩

theorem starts_iff {items : List RegexItem} {cs : List Char} :
    starts items cs = true ↔ Starts items cs := by
  induction cs generalizing items with
  | nil =>
    cases items with
    | nil => exact iff_of_true rfl ⟨[], [], rfl, .nil⟩
    | cons item items => exact iff_of_false Bool.false_ne_true (not_starts_nil item items)
  | cons d cs ih =>
    match items with
    | [] => exact iff_of_true rfl ⟨[], d :: cs, rfl, .nil⟩
    | .char c :: items => rw [starts, Bool.and_eq_true, decide_eq_true_eq, ih, starts_char_cons_iff]
    | .run :: items =>
      rw [starts, Bool.and_eq_true, decide_eq_true_eq, Bool.or_eq_true, ih, ih, starts_run_cons_iff]

end RegexItem

/-- An engine that reads a source item by item, and then tries all the ways to match them. -/
def RegexEngine.backtracking : RegexEngine where
  compile? source :=
    match source.toList with
    | '^' :: cs => (RegexItem.scan? cs).map fun items text => RegexItem.starts items text.toList
    | _ => none

theorem RegexEngine.backtracking_isFaithful : backtracking.IsFaithful := by
  intro items
  refine ⟨fun text => RegexItem.starts items text.toList, ?_, fun text => RegexItem.starts_iff⟩
  show (match (RegexItem.anchored items).toList with | '^' :: cs => _ | _ => none) = _
  rw [RegexItem.anchored, String.toList_ofList]
  show (RegexItem.scan? (items.flatMap RegexItem.source)).map _ = _
  rw [RegexItem.scan?_source]
  rfl

end ServiceTrace
