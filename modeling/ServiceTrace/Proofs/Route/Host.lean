import ServiceTrace.Proofs.Route.Pieces

/-!
# `ServiceTrace.Proofs.Route.Host` — hosts of URLs

The first literal of a URL loses its scheme and what follows up to the next slash. For a URL that is one
literal this is the host. When the host is interpolated, the first literal ends inside it: everything up to
there is lost, but what follows is walked like the rest of the path, so each interpolation of the host is a
segment, and so is each run of text behind one. `Endpoint.hostSegments` lists these segments, and
`Endpoint.ofUrl_host_path` says that they stand in front of the endpoint of the path.
-/

namespace ServiceTrace

/-- A piece of a host: an interpolation, or text that neither leaves the host nor ends the path. -/
def StringPiece.IsHostPart : StringPiece → Prop
  | .text chars => IsPathText chars ∧ '/' ∉ chars
  | .value _ => True

instance (part : StringPiece) : Decidable part.IsHostPart :=
  match part with
  | .text _ => inferInstanceAs (Decidable (_ ∧ _))
  | .value _ => inferInstanceAs (Decidable True)

/-- Whether a piece is an interpolation. -/
def StringPiece.isValue : StringPiece → Bool
  | .text _ => false
  | .value _ => true

namespace Endpoint

/-- The segments of the parts of a host after an interpolation: `pending` is the text since then. -/
def hostRuns (pending : List Char) : List StringPiece → List Segment
  | [] => pathSegments pending
  | .text chars :: rest => hostRuns (pending ++ chars) rest
  | .value _ :: rest => pathSegments pending ++ .placeholder :: hostRuns [] rest

/-- The segments that a host after a scheme leaves in front of the path. -/
def hostSegments : List StringPiece → List Segment
  | [] => []
  | .text _ :: rest => hostSegments rest
  | .value _ :: rest => .placeholder :: hostRuns [] rest

/-- A host leaves no segments when all of it is text. -/
theorem hostSegments_eq_nil_iff (host : List StringPiece) :
    hostSegments host = [] ↔ ∀ part ∈ host, part.isValue = false := by
  induction host with
  | nil => exact ⟨fun _ _ h => absurd h List.not_mem_nil, fun _ => rfl⟩
  | cons part rest ih =>
    cases part with
    | text chars =>
      rw [hostSegments, ih, List.forall_mem_cons]
      exact ⟨fun h => ⟨rfl, h⟩, And.right⟩
    | value e =>
      rw [List.forall_mem_cons]
      exact ⟨fun h => absurd h (List.cons_ne_nil _ _), fun h => Bool.noConfusion h.1⟩

end Endpoint

/-! ## Text with a scheme -/

theorem slashed_append (cs ds : List Char) : slashed (cs ++ ds) = slashed cs ++ slashed ds :=
  List.map_append

/-- A path in which the backslashes are slashes still begins with a slash. -/
theorem slashed_path {path : List Char} (h : path.head? = some '/') :
    ∃ rest, slashed path = '/' :: rest := by
  obtain ⟨rest, rfl⟩ := List.head?_eq_some_iff.mp h
  exact ⟨slashed rest, rfl⟩

/-- The letters of a scheme stand in a URL as they are, and none is the colon behind it. -/
theorem isPathText_scheme {scheme : List Char} (h : ∀ c ∈ scheme, c.isAlpha = true) :
    IsPathText (scheme ++ [':', '/', '/']) ∧ ':' ∉ scheme := by
  have hother : ∀ d : Char, d.isAlpha = false → d ∉ scheme := fun d hd hmem =>
    absurd (h d hmem) (Bool.eq_false_iff.mp hd)
  have hends : ∀ c ∈ scheme, endsPath c = false := by
    intro c hc
    rw [endsPath, Bool.or_eq_false_iff, decide_eq_false_iff_not, decide_eq_false_iff_not]
    exact ⟨fun heq => hother '?' rfl (heq ▸ hc), fun heq => hother '#' rfl (heq ▸ hc)⟩
  refine ⟨IsPathText.append (fun c hc => ⟨fun heq => hother '\\' rfl (heq ▸ hc), hends c hc⟩) ?_,
    hother ':' rfl⟩
  decide

theorem dropHost_scheme {scheme : List Char} (h : ':' ∉ scheme) (rest : List Char) :
    dropHost (scheme ++ [':', '/', '/'] ++ rest) = rest.dropWhile (· ≠ '/') := by
  rw [dropHost, List.append_assoc, Text.findSub?_append h]

/-- The host text up to the path is lost, and the path is kept. -/
theorem dropWhile_host {cs : List Char} (h : '/' ∉ cs) (rest : List Char) :
    (cs ++ rest).dropWhile (· ≠ '/') = rest.dropWhile (· ≠ '/') :=
  List.dropWhile_append_of_pos fun c hc => by
    simpa using fun heq : c = '/' => h (heq ▸ hc)

/-! ## The walk over a host and a path -/

namespace UrlWalk

/-- Between an interpolation and the path, the parts of a host add their segments. -/
theorem walkAll_hostRuns {path : List Char} (hpath : path.head? = some '/') {host : List StringPiece}
    (hhost : ∀ part ∈ host, part.IsHostPart) {pending : List Char} (hp : IsPathText pending)
    (hslash : '/' ∉ pending) (segments : List Segment) :
    (walkAll ⟨segments, true, false⟩ (StringPiece.spelled pending (host ++ [.text path]))).segments =
      segments ++ (Endpoint.hostRuns pending host ++ Endpoint.pathSegments (slashed path)) := by
  induction host generalizing pending segments with
  | nil =>
    obtain ⟨rest, hrest⟩ := slashed_path hpath
    have hne : pending ++ path ≠ [] := fun h => by
      rw [(List.append_eq_nil_iff.mp h).2] at hpath
      cases hpath
    show (walkAll _ (StringPiece.flushText (pending ++ path))).segments = _
    rw [StringPiece.flushText, if_neg hne, walkAll, walk_str rfl, literal_seen, slashed_append,
      hp.slashed_eq, hrest, Endpoint.pathSegments_append_cons hp]
    rfl
  | cons part host ih =>
    have hrest := fun q hq => hhost q (List.mem_cons_of_mem _ hq)
    cases part with
    | text chars =>
      obtain ⟨hchars, hno⟩ := hhost _ List.mem_cons_self
      exact ih hrest (hp.append hchars) (fun h => (List.mem_append.mp h).elim hslash hno) segments
    | value e =>
      show (walkAll _ (StringPiece.flushText pending ++ Expr.formatted e ::
        StringPiece.spelled [] (host ++ [.text path]))).segments = _
      rw [walkAll_append, walkAll_flushText rfl hp (.inl rfl), walkAll, walk_formatted rfl,
        placeholder_of_seenLiteral rfl, ih hrest .nil List.not_mem_nil, Endpoint.hostRuns]
      simp only [List.append_assoc, List.cons_append, List.nil_append]

/-- From the scheme to the path, the parts of a host leave the segments that `hostSegments` lists.
    `pending` is the host text read so far, which is still in the first literal. -/
theorem walkAll_scheme {path : List Char} (hpath : path.head? = some '/') {scheme : List Char}
    (hscheme : ∀ c ∈ scheme, c.isAlpha = true) {host : List StringPiece}
    (hhost : ∀ part ∈ host, part.IsHostPart) {pending : List Char} (hp : IsPathText pending)
    (hslash : '/' ∉ pending) :
    (start.walkAll (StringPiece.spelled (scheme ++ [':', '/', '/'] ++ pending)
      (host ++ [.text path]))).segments =
      Endpoint.hostSegments host ++ Endpoint.pathSegments (slashed path) := by
  obtain ⟨htext, hcolon⟩ := isPathText_scheme hscheme
  have hne : ∀ cs, scheme ++ [':', '/', '/'] ++ cs ≠ [] := fun cs h => by
    simp at h
  induction host generalizing pending with
  | nil =>
    obtain ⟨rest, hrest⟩ := slashed_path hpath
    show (walkAll _ (StringPiece.flushText (scheme ++ [':', '/', '/'] ++ pending ++ path))).segments = _
    rw [StringPiece.flushText, List.append_assoc, if_neg (hne _), walkAll, walk_str rfl, literal_start,
      slashed_append, htext.slashed_eq, slashed_append, hp.slashed_eq, hrest, dropHost_scheme hcolon,
      dropWhile_host hslash]
    rfl
  | cons part host ih =>
    have hrest := fun q hq => hhost q (List.mem_cons_of_mem _ hq)
    cases part with
    | text chars =>
      obtain ⟨hchars, hno⟩ := hhost _ List.mem_cons_self
      have htail := ih hrest (hp.append hchars) fun h => (List.mem_append.mp h).elim hslash hno
      rwa [← List.append_assoc] at htail
    | value e =>
      have hliteral : start.literal (String.ofList (scheme ++ [':', '/', '/'] ++ pending)) =
          ⟨[], true, false⟩ := by
        have hlost : dropHost (scheme ++ [':', '/', '/'] ++ pending) = [] := by
          have hdrop := dropWhile_host hslash []
          rw [List.append_nil] at hdrop
          rw [dropHost_scheme hcolon, hdrop, List.dropWhile_nil]
        rw [literal_start, (htext.append hp).slashed_eq, hlost]
        rfl
      show (walkAll start (StringPiece.flushText (scheme ++ [':', '/', '/'] ++ pending) ++
        Expr.formatted e :: StringPiece.spelled [] (host ++ [.text path]))).segments = _
      rw [StringPiece.flushText, if_neg (hne _), List.singleton_append, walkAll, walk_str rfl, hliteral,
        walkAll, walk_formatted rfl, placeholder_of_seenLiteral rfl,
        walkAll_hostRuns hpath hrest .nil List.not_mem_nil]
      rfl

end UrlWalk

/-! ## Hosts do not count as path -/

namespace Endpoint

/-- The endpoint of a text without a scheme is that of its path. -/
theorem ofUrl_str {path : List Char} (h : Text.findSub? [':', '/', '/'] (slashed path) = none) :
    ofUrl (.str (String.ofList path)) = ⟨pathSegments (slashed path)⟩ := by
  have hkept : dropHost (slashed path) = slashed path := by rw [dropHost, h]
  rw [ofUrl, UrlWalk.walk_str rfl, UrlWalk.literal_ofList]
  show (⟨[] ++ pathSegments (dropHost _)⟩ : Endpoint) = _
  rw [hkept, List.nil_append]

/-- A scheme and a host in front of a path leave the endpoint of the path as it is, but for the segments of
    the host from its first interpolation on. In particular, a host without interpolations never counts as
    path, and a host with one always does. -/
theorem ofUrl_host_path {scheme path : List Char} {host : List StringPiece}
    (hscheme : ∀ c ∈ scheme, c.isAlpha = true) (hhost : ∀ part ∈ host, part.IsHostPart)
    (hpath : path.head? = some '/')
    (hplain : Text.findSub? [':', '/', '/'] (slashed path) = none) :
    let url := Expr.ofPieces (.text (scheme ++ [':', '/', '/']) :: host ++ [.text path])
    ofUrl url = ⟨hostSegments host ++ (ofUrl (.str (String.ofList path))).segments⟩ ∧
      (ofUrl url = ofUrl (.str (String.ofList path)) ↔ ∀ part ∈ host, part.isValue = false) := by
  intro url
  have hwalk := UrlWalk.walkAll_scheme hpath hscheme hhost .nil List.not_mem_nil
  rw [List.append_nil] at hwalk
  have hurl : ofUrl url = ⟨hostSegments host ++ (ofUrl (.str (String.ofList path))).segments⟩ := by
    rw [ofUrl_str hplain, ofUrl_ofPieces]
    exact congrArg Endpoint.mk hwalk
  refine ⟨hurl, ?_⟩
  rw [hurl, ← hostSegments_eq_nil_iff]
  generalize ofUrl (.str (String.ofList path)) = e
  obtain ⟨segments⟩ := e
  rw [Endpoint.mk.injEq]
  exact List.append_left_eq_self

/-- The URL `https://api.{stage}.example.com/cart/7`: behind the interpolation the host adds two segments. -/
theorem ofUrl_staged_host :
    ofUrl (.ofPieces [.text "https://".toList, .text "api.".toList, .value (.name "stage"),
      .text ".example.com".toList, .text "/cart/7".toList]) =
      ⟨[.placeholder, .literal ".example.com", .literal "cart", .placeholder]⟩ := by
  have hscheme : ∀ c ∈ "https".toList, c.isAlpha = true := List.all_eq_true.mp rfl
  have hhost : ∀ part ∈ [.text "api.".toList, .value (.name "stage"), .text ".example.com".toList],
      StringPiece.IsHostPart part := by decide
  have hpath : "/cart/7".toList.head? = some '/' := rfl
  exact (ofUrl_host_path hscheme hhost hpath rfl).1

/-- **Hosts that count as path**: with the host interpolated, `http://{host}/cart` names another endpoint
    than `/cart`. And where a backslash makes a scheme of the path itself, the path alone loses its first
    segments as a host, and behind a host it keeps them. -/
theorem ofUrl_host_counts :
    ofUrl (.ofPieces [.text "http://".toList, .value (.name "host"), .text "/cart".toList]) ≠
      ofUrl (.str "/cart") ∧
    ofUrl (.ofPieces [.text "http://".toList, .text "api".toList, .text "/a:\\/b".toList]) ≠
      ofUrl (.str "/a:\\/b") := by
  decide

end Endpoint

end ServiceTrace
