import ServiceTrace.ParseTree.Lowering
import ServiceTrace.Proofs.Text.Split
import ServiceTrace.Route.Endpoint

/-!
# `ServiceTrace.Proofs.Route.Pieces` — walking over a string literal

A string literal is made of pieces, text and interpolated expressions, and its expression merges adjacent
pieces of text (`Expr.ofPieces`, `Lowered.stringOf_eq_ofPieces`). The walk over its URL sees the merged text.
So laws about the endpoint of a literal go by recursion over the pieces with the text since the last
interpolation as a parameter: `StringPiece.spelled`, and `Endpoint.ofUrl_ofPieces` to get there.

What one merged text adds to a walk is `Endpoint.pathSegments`; `UrlWalk.walkAll_flushText` says so for text
that is part of a path as it stands.
-/

namespace ServiceTrace

/-! ## Pieces of a string literal -/

/-- One piece of a string literal: decoded text, or an interpolated expression. -/
inductive StringPiece where
  | text (chars : List Char)
  | value (e : Expr)

namespace Lowered

/-- A string literal with one more piece. -/
def StringParts.push (p : StringParts) : StringPiece → StringParts
  | .text chars => { p with text := p.text ++ chars }
  | .value e => ⟨p.flush ++ [.formatted e], [], true⟩

/-- The expression of a string literal that is finished. -/
def StringParts.close (p : StringParts) : Expr :=
  if p.interpolated then .joined p.flush else .str (String.ofList p.text)

end Lowered

/-- Once a literal has an interpolation it keeps it; until then it has no finished parts. -/
theorem Lowered.StringParts.foldl_push_cases (pieces : List StringPiece) (p : Lowered.StringParts) :
    (pieces.foldl push p).interpolated = true ∨
      (pieces.foldl push p).parts = p.parts ∧ (pieces.foldl push p).interpolated = p.interpolated := by
  induction pieces generalizing p with
  | nil => exact .inr ⟨rfl, rfl⟩
  | cons piece pieces ih =>
    cases piece with
    | text chars => exact ih _
    | value e => exact .inl ((ih _).elim id (·.2))

/-- The expression of a string literal with the given pieces. -/
def Expr.ofPieces (pieces : List StringPiece) : Expr :=
  (pieces.foldl Lowered.StringParts.push ⟨[], [], false⟩).close

namespace Lowered

/-- The piece of a literal that one of its children stands for. Quotes stand for none. -/
def piece? (src : Source) (isRaw : Bool) (n : Lowered) : Option StringPiece :=
  if n.kind = "string_content" ∨ n.kind = "escape_sequence" then
    some (.text (if isRaw then raw src n.label else unescape (raw src n.label)))
  else if n.kind = "interpolation" then
    ((at? "expression" n.children).or (first? n.children)).map fun e => .value e.expr
  else none

/-- Whether the children of a literal say that it is raw. -/
def isRawLiteral (src : Source) (children : List Lowered) : Bool :=
  match (named children).find? (·.kind = "string_start") with
  | some opening => isRawOpening (raw src opening.label)
  | none => false

theorem StringParts.add_eq_push {src : Source} {isRaw : Bool} {n : Lowered}
    (h : n.kind = "interpolation" → (n.piece? src isRaw).isSome) (p : StringParts) :
    p.add src isRaw n = (n.piece? src isRaw).elim p p.push := by
  unfold StringParts.add piece? at *
  split
  · rfl
  · next hcontent =>
    rw [if_neg hcontent] at h
    split
    · next hkind =>
      rw [if_pos hkind] at h
      obtain ⟨_, hpiece⟩ := Option.isSome_iff_exists.mp (h hkind)
      obtain ⟨e, he, rfl⟩ := Option.map_eq_some_iff.mp hpiece
      rw [he]
      rfl
    · rfl

/-- A string literal whose interpolations all hold an expression is lowered piece by piece. -/
theorem stringOf_eq_ofPieces {src : Source} {children : List Lowered}
    (h : ∀ n ∈ named children, n.kind = "interpolation" →
      (n.piece? src (isRawLiteral src children)).isSome) :
    stringOf src children =
      Expr.ofPieces ((named children).filterMap (piece? src (isRawLiteral src children))) := by
  have hfold : ∀ (nodes : List Lowered) (p : StringParts),
      (∀ n ∈ nodes, n.kind = "interpolation" → (n.piece? src (isRawLiteral src children)).isSome) →
      nodes.foldl (StringParts.add src (isRawLiteral src children)) p =
        (nodes.filterMap (piece? src (isRawLiteral src children))).foldl StringParts.push p := by
    intro nodes
    induction nodes with
    | nil => exact fun _ _ => rfl
    | cons n nodes ih =>
      intro p hn
      rw [List.foldl_cons, StringParts.add_eq_push (hn n List.mem_cons_self),
        ih _ fun m hm => hn m (List.mem_cons_of_mem _ hm), List.filterMap_cons]
      cases n.piece? src (isRawLiteral src children) <;> rfl
  unfold Expr.ofPieces
  rw [← hfold _ _ h]
  rfl

end Lowered

namespace StringPiece

/-- The part of a string with interpolations that a text becomes, when there is any. -/
def flushText (chars : List Char) : List Expr :=
  if chars = [] then [] else [.str (String.ofList chars)]

/-- The parts of a string with interpolations, from its pieces: `pending` is the text before them. -/
def spelled (pending : List Char) : List StringPiece → List Expr
  | [] => flushText pending
  | .text chars :: rest => spelled (pending ++ chars) rest
  | .value e :: rest => flushText pending ++ .formatted e :: spelled [] rest

theorem flush_eq (p : Lowered.StringParts) : p.flush = p.parts ++ flushText p.text := by
  rw [Lowered.StringParts.flush, flushText]
  split
  · exact (List.append_nil _).symm
  · rfl

theorem flush_foldl_push (pieces : List StringPiece) (p : Lowered.StringParts) :
    (pieces.foldl Lowered.StringParts.push p).flush = p.parts ++ spelled p.text pieces := by
  induction pieces generalizing p with
  | nil => exact flush_eq p
  | cons piece pieces ih =>
    rw [List.foldl_cons, ih]
    cases piece with
    | text chars => rfl
    | value e =>
      show (p.flush ++ [_]) ++ _ = _
      rw [flush_eq, spelled, List.append_assoc, List.append_assoc]
      rfl

end StringPiece

/-! ## Text in a path -/

/-- A text with its backslashes turned into slashes. -/
def slashed (cs : List Char) : List Char :=
  cs.map fun c => if c = '\\' then '/' else c

/-- The segments that a text without a host names. -/
def Endpoint.pathSegments (text : List Char) : List Segment :=
  (Text.parts '/' (text.takeWhile fun c => !endsPath c)).map Segment.ofPart

/-- Text that stands in a path as it is: nothing in it is a backslash or ends the path. -/
def IsPathText (cs : List Char) : Prop :=
  ∀ c ∈ cs, c ≠ '\\' ∧ endsPath c = false

-- along the list: characters are finitely many, and the instance for that would go through all of them
instance (cs : List Char) : Decidable (IsPathText cs) :=
  List.decidableBAll _ cs

namespace IsPathText

variable {cs ds : List Char}

theorem nil : IsPathText [] :=
  fun _ h => absurd h List.not_mem_nil

theorem append (hcs : IsPathText cs) (hds : IsPathText ds) : IsPathText (cs ++ ds) :=
  fun c hc => (List.mem_append.mp hc).elim (hcs c) (hds c)

theorem slashed_eq (h : IsPathText cs) : slashed cs = cs := by
  unfold slashed
  conv => rhs; rw [← List.map_id cs]
  exact List.map_congr_left fun c hc => if_neg (h c hc).1

theorem any_endsPath (h : IsPathText cs) : cs.any endsPath = false :=
  List.any_eq_false.mpr fun c hc => Bool.eq_false_iff.mp (h c hc).2

theorem takeWhile_append (h : IsPathText cs) (rest : List Char) :
    (cs ++ rest).takeWhile (fun c => !endsPath c) = cs ++ rest.takeWhile fun c => !endsPath c :=
  List.takeWhile_append_of_pos fun c hc => by rw [(h c hc).2]; rfl

end IsPathText

namespace Endpoint

@[simp] theorem pathSegments_nil : pathSegments [] = [] :=
  rfl

/-- At a slash the segments of a text are those before it and those after it. -/
theorem pathSegments_append_cons {cs : List Char} (h : IsPathText cs) (rest : List Char) :
    pathSegments (cs ++ '/' :: rest) = pathSegments cs ++ pathSegments ('/' :: rest) := by
  have hcs := h.takeWhile_append []
  rw [List.append_nil, List.takeWhile_nil, List.append_nil] at hcs
  have hslash : ('/' :: rest).takeWhile (fun c => !endsPath c) =
      '/' :: rest.takeWhile fun c => !endsPath c := rfl
  unfold pathSegments
  rw [h.takeWhile_append, hslash, hcs, Text.parts_append_cons, Text.parts_cons_self,
    List.map_append]

/-- A text without a slash is one segment, unless it is empty. -/
theorem pathSegments_of_not_mem {cs : List Char} (h : IsPathText cs) (hslash : '/' ∉ cs) :
    pathSegments cs = if cs = [] then [] else [Segment.ofPart cs] := by
  have hcs := h.takeWhile_append []
  rw [List.append_nil, List.takeWhile_nil, List.append_nil] at hcs
  unfold pathSegments
  rw [hcs]
  split
  · next hnil => rw [hnil]; rfl
  · next hne => rw [Text.parts_of_not_mem hslash hne]; rfl

/-- A slash and a text without one are one segment. -/
theorem pathSegments_slash {cs : List Char} (h : IsPathText cs) (hslash : '/' ∉ cs) (hne : cs ≠ []) :
    pathSegments ('/' :: cs) = [Segment.ofPart cs] := by
  have hcs := pathSegments_of_not_mem h hslash
  rw [if_neg hne] at hcs
  rw [← hcs]
  unfold pathSegments
  rw [List.takeWhile_cons_of_pos rfl, Text.parts_cons_self]

end Endpoint

/-! ## The walk over the parts of a literal -/

namespace UrlWalk

theorem walkAll_append (w : UrlWalk) (es fs : List Expr) :
    w.walkAll (es ++ fs) = (w.walkAll es).walkAll fs := by
  induction es generalizing w with
  | nil => rfl
  | cons e es ih => rw [List.cons_append, walkAll, walkAll, ih]

/-- A literal adds the segments of its text, without the host when it is the first literal. -/
theorem literal_ofList (w : UrlWalk) (cs : List Char) :
    w.literal (String.ofList cs) =
      let text := if w.seenLiteral then slashed cs else dropHost (slashed cs)
      ⟨w.segments ++ Endpoint.pathSegments text, true, text.any endsPath⟩ := by
  unfold literal
  rw [String.toList_ofList]
  rfl

theorem literal_start (cs : List Char) :
    start.literal (String.ofList cs) =
      ⟨Endpoint.pathSegments (dropHost (slashed cs)), true, (dropHost (slashed cs)).any endsPath⟩ := by
  rw [literal_ofList]
  rfl

theorem literal_seen (segments : List Segment) (cs : List Char) :
    literal ⟨segments, true, false⟩ (String.ofList cs) =
      ⟨segments ++ Endpoint.pathSegments (slashed cs), true, (slashed cs).any endsPath⟩ := by
  rw [literal_ofList]
  rfl

/-- The walk after an interpolated expression. -/
theorem walk_formatted {w : UrlWalk} (hended : w.ended = false) (e : Expr) :
    w.walk (.formatted e) = w.placeholder := by
  show (if w.ended = true then w else w.placeholder) = w.placeholder
  rw [hended, if_neg Bool.false_ne_true]

theorem walk_str {w : UrlWalk} (hended : w.ended = false) (value : String) :
    w.walk (.str value) = w.literal value := by
  rw [walk, hended, if_neg Bool.false_ne_true]

theorem placeholder_of_seenLiteral {w : UrlWalk} (h : w.seenLiteral = true) :
    w.placeholder = { w with segments := w.segments ++ [.placeholder] } := by
  rw [placeholder, if_pos h]

end UrlWalk

theorem dropHost_of_not_mem {cs : List Char} (h : ':' ∉ cs) : dropHost cs = cs := by
  rw [dropHost, Text.findSub?_of_not_mem h]

/-- Text that stands in a path as it is adds its own segments to the walk: either a literal was seen before,
    or the text holds no scheme. -/
theorem UrlWalk.literal_of_isPathText {w : UrlWalk} {cs : List Char} (h : IsPathText cs)
    (hhost : w.seenLiteral = true ∨ ':' ∉ cs) :
    w.literal (String.ofList cs) = ⟨w.segments ++ Endpoint.pathSegments cs, true, false⟩ := by
  have htext : (if w.seenLiteral = true then cs else dropHost cs) = cs := by
    rcases hhost with hseen | hcolon
    · exact if_pos hseen
    · rw [dropHost_of_not_mem hcolon, ite_self]
  rw [literal_ofList, h.slashed_eq]
  simp only [htext, h.any_endsPath]

/-- Text between the interpolations of a path adds its own segments to the walk, and none when it is empty.
    Either a literal was seen before, or the text is there and holds no scheme. -/
theorem UrlWalk.walkAll_flushText {w : UrlWalk} (hended : w.ended = false) {cs : List Char}
    (h : IsPathText cs) (hhost : w.seenLiteral = true ∨ ':' ∉ cs ∧ cs ≠ []) :
    w.walkAll (StringPiece.flushText cs) = ⟨w.segments ++ Endpoint.pathSegments cs, true, false⟩ := by
  rw [StringPiece.flushText]
  split
  · next hnil =>
    have hseen : w.seenLiteral = true := hhost.resolve_right fun hh => hh.2 hnil
    rw [hnil, Endpoint.pathSegments_nil, List.append_nil, ← hseen, ← hended]
    rfl
  · rw [walkAll, walk_str hended, literal_of_isPathText h (hhost.imp_right And.left)]
    rfl

/-- The endpoint of a string literal is that of its parts in order. -/
theorem Endpoint.ofUrl_ofPieces (pieces : List StringPiece) :
    Endpoint.ofUrl (Expr.ofPieces pieces) =
      ⟨(UrlWalk.start.walkAll (StringPiece.spelled [] pieces)).segments⟩ := by
  have hflush := StringPiece.flush_foldl_push pieces ⟨[], [], false⟩
  rw [List.nil_append] at hflush
  have hcases := Lowered.StringParts.foldl_push_cases pieces ⟨[], [], false⟩
  rw [← hflush]
  unfold Expr.ofPieces Lowered.StringParts.close
  generalize pieces.foldl Lowered.StringParts.push ⟨[], [], false⟩ = p at hcases ⊢
  rcases hcases with hp | ⟨hparts, hp⟩
  · rw [if_pos hp]
    rfl
  · rw [if_neg (by simp [hp]), StringPiece.flush_eq, hparts, List.nil_append, StringPiece.flushText]
    split
    · next hnil => rw [hnil]; rfl
    · rfl

end ServiceTrace
