import ServiceTrace.Proofs.Route.Query
import ServiceTrace.Route.Discovery

/-!
# `ServiceTrace.Proofs.Route.Leaves` — the endpoint depends on the leaves of a URL

How a URL is put together does not count. Its leaves, from left to right, are what the walk looks at: it
descends through the parts of a string with interpolations, both sides of `+`, the left side of `%` and the
template of a `format`, and everything else is one leaf (`Expr.urlLeaves`). Of a leaf it learns the text of
a string, or that there is none. So the walk over an expression is a fold over the texts of its leaves
(`UrlWalk.walk_eq_foldl`), also when the path ends in the middle of a part, and the endpoint is a function of
these texts that needs no state (`Endpoint.ofTexts`).

The ways to write the same leaves are given by laws as well: regrouping sums, writing a string with
interpolations as a sum or inside another one, filling a template, exchanging one unknown value for another
(`Expr.Respells`). These laws are all there is: they lead from every expression to the string made of its
leaves, and so between any two expressions with the same ones (`Expr.respells_iff_sameLeaves`).
-/

namespace ServiceTrace

namespace Expr

/-! ## Leaves -/

/-- Whether an expression is a template that `format` fills: a string, with interpolations or without. -/
def isTemplate : Expr → Bool
  | .str _ | .joined _ => true
  | _ => false

mutual

/-- The leaves of a URL expression. -/
def urlLeaves : Expr → List Expr
  | .joined parts => urlLeavesIn parts
  | .binary left op right =>
    if op = "+" then left.urlLeaves ++ right.urlLeaves
    else if op = "%" then left.urlLeaves
    else [.binary left op right]
  | .call ⟨.attribute value attr, args, keywords, line, route⟩ =>
    if attr = "format" ∧ value.isTemplate then value.urlLeaves
    else [.call ⟨.attribute value attr, args, keywords, line, route⟩]
  | e => [e]

/-- The leaves of the parts of a string with interpolations. -/
def urlLeavesIn : List Expr → List Expr
  | [] => []
  | e :: es => e.urlLeaves ++ urlLeavesIn es

end

/-- Whether an expression is a leaf itself: it has no parts that the walk descends into. -/
def isUrlLeaf : Expr → Bool
  | .joined _ => false
  | .binary _ op _ => op ≠ "+" ∧ op ≠ "%"
  | .call ⟨.attribute value attr, _, _, _, _⟩ => ¬ (attr = "format" ∧ value.isTemplate)
  | _ => true

/-- A leaf that is no string. -/
def IsUrlValue (e : Expr) : Prop :=
  e.isUrlLeaf = true ∧ e.text? = none

/-- The texts of the leaves, with nothing for a leaf that is no string. -/
def urlTexts (e : Expr) : List (Option String) :=
  e.urlLeaves.map text?

/-- Expressions with the same leaves, where any leaf that is no string may stand for any other. -/
def SameLeaves (u v : Expr) : Prop :=
  u.urlTexts = v.urlTexts

instance (u v : Expr) : Decidable (u.SameLeaves v) :=
  inferInstanceAs (Decidable (u.urlTexts = v.urlTexts))

/-- Ways to write a URL. The laws hold in the parts of a string with interpolations and on both sides of
    `+`; a filled template is as good as the template itself. -/
inductive Respells : Expr → Expr → Prop where
  | refl (e : Expr) : Respells e e
  | symm {e f : Expr} : Respells e f → Respells f e
  | trans {e f g : Expr} : Respells e f → Respells f g → Respells e g
  | part (before : List Expr) {e f : Expr} (after : List Expr) :
      Respells e f → Respells (.joined (before ++ e :: after)) (.joined (before ++ f :: after))
  | sum {e e' f f' : Expr} :
      Respells e e' → Respells f f' → Respells (.binary e "+" f) (.binary e' "+" f')
  | regroup (e f g : Expr) :
      Respells (.binary (.binary e "+" f) "+" g) (.binary e "+" (.binary f "+" g))
  | nest (before parts after : List Expr) :
      Respells (.joined (before ++ .joined parts :: after)) (.joined (before ++ parts ++ after))
  | single (e : Expr) : Respells (.joined [e]) e
  | concat (es fs : List Expr) : Respells (.joined (es ++ fs)) (.binary (.joined es) "+" (.joined fs))
  | fill (template values : Expr) : Respells (.binary template "%" values) template
  | format {template : Expr} (h : template.isTemplate = true) (args : List Expr)
      (keywords : List Keyword) (line : Nat) (route : Option Routing) :
      Respells (.call ⟨.attribute template "format", args, keywords, line, route⟩) template
  | value {e f : Expr} (he : e.IsUrlValue) (hf : f.IsUrlValue) : Respells e f

/-! ## Leaves of the composite expressions -/

theorem urlLeavesIn_eq_flatMap (es : List Expr) : urlLeavesIn es = es.flatMap urlLeaves := by
  induction es with
  | nil => rfl
  | cons e es ih => rw [urlLeavesIn, ih, List.flatMap_cons]

theorem urlLeaves_of_isUrlLeaf {e : Expr} (h : e.isUrlLeaf = true) : e.urlLeaves = [e] := by
  unfold isUrlLeaf at h
  split at h
  · exact absurd h Bool.false_ne_true
  · obtain ⟨hplus, hpercent⟩ := of_decide_eq_true h
    rw [urlLeaves, if_neg hplus, if_neg hpercent]
  · rw [urlLeaves, if_neg (of_decide_eq_true h)]
  · rw [urlLeaves] <;> assumption

theorem urlLeaves_sum (left right : Expr) :
    (binary left "+" right).urlLeaves = left.urlLeaves ++ right.urlLeaves := by
  rw [urlLeaves, if_pos rfl]

theorem urlLeaves_fill (template values : Expr) :
    (binary template "%" values).urlLeaves = template.urlLeaves := by
  rw [urlLeaves, if_neg (by decide), if_pos rfl]

theorem urlLeaves_format {template : Expr} (h : template.isTemplate = true) (args : List Expr)
    (keywords : List Keyword) (line : Nat) (route : Option Routing) :
    (call ⟨.attribute template "format", args, keywords, line, route⟩).urlLeaves =
      template.urlLeaves := by
  rw [urlLeaves, if_pos ⟨rfl, h⟩]

@[simp] theorem urlTexts_joined (es : List Expr) : (joined es).urlTexts = es.flatMap urlTexts := by
  rw [urlTexts, urlLeaves, urlLeavesIn_eq_flatMap, List.map_flatMap]
  rfl

@[simp] theorem urlTexts_sum (left right : Expr) :
    (binary left "+" right).urlTexts = left.urlTexts ++ right.urlTexts := by
  rw [urlTexts, urlLeaves_sum, List.map_append]
  rfl

@[simp] theorem urlTexts_fill (template values : Expr) :
    (binary template "%" values).urlTexts = template.urlTexts := by
  rw [urlTexts, urlLeaves_fill, urlTexts]

theorem urlTexts_format {template : Expr} (h : template.isTemplate = true) (args : List Expr)
    (keywords : List Keyword) (line : Nat) (route : Option Routing) :
    (call ⟨.attribute template "format", args, keywords, line, route⟩).urlTexts = template.urlTexts := by
  rw [urlTexts, urlLeaves_format h, urlTexts]

theorem IsUrlValue.urlTexts {e : Expr} (h : e.IsUrlValue) : e.urlTexts = [none] := by
  rw [Expr.urlTexts, urlLeaves_of_isUrlLeaf h.1, List.map_singleton, h.2]

theorem text?_eq_some_iff {e : Expr} {value : String} : e.text? = some value ↔ e = .str value := by
  cases e <;> simp [text?]

/-- Induction along the descent to the leaves of a URL. -/
theorem url_induction (motiveIn : List Expr → Prop) {motive : Expr → Prop}
    (joined : ∀ parts, motiveIn parts → motive (.joined parts))
    (sum : ∀ left right, motive left → motive right → motive (.binary left "+" right))
    (fill : ∀ template values, motive template → motive (.binary template "%" values))
    (format : ∀ template args keywords line route, template.isTemplate = true → motive template →
      motive (.call ⟨.attribute template "format", args, keywords, line, route⟩))
    (leaf : ∀ e, e.isUrlLeaf = true → motive e)
    (nil : motiveIn [])
    (cons : ∀ e es, motive e → motiveIn es → motiveIn (e :: es)) (e : Expr) : motive e := by
  apply urlLeaves.induct motive motiveIn joined sum
  · intro template values _ ih
    exact fill template values ih
  · intro left op right hplus hpercent
    exact leaf _ (decide_eq_true ⟨hplus, hpercent⟩)
  · rintro template attr args keywords line route ⟨rfl, h⟩ ih
    exact format template args keywords line route h ih
  · intro value attr args keywords line route h
    exact leaf _ (decide_eq_true h)
  · intro e hjoined hbinary hcall
    apply leaf
    rw [isUrlLeaf] <;> assumption
  · exact nil
  · exact cons

/-- A leaf is not looked into any further. -/
theorem isUrlLeaf_of_mem (e : Expr) : ∀ f ∈ e.urlLeaves, f.isUrlLeaf = true := by
  induction e using url_induction fun es => ∀ f ∈ urlLeavesIn es, f.isUrlLeaf = true with
  | joined parts ih => exact ih
  | sum left right ihleft ihright =>
    rw [urlLeaves_sum]
    exact List.forall_mem_append.mpr ⟨ihleft, ihright⟩
  | fill template values ih =>
    rw [urlLeaves_fill]
    exact ih
  | format template args keywords line route h ih =>
    rw [urlLeaves_format h]
    exact ih
  | leaf e he =>
    rw [urlLeaves_of_isUrlLeaf he]
    exact List.forall_mem_singleton.mpr he
  | nil f hf => exact absurd hf List.not_mem_nil
  | cons e es ihe ihes f hf => exact (List.mem_append.mp hf).elim (ihe f) (ihes f)

/-! ## Laws of spelling -/

/-- What respells a URL keeps the texts of its leaves. -/
theorem Respells.sameLeaves {u v : Expr} (h : u.Respells v) : u.SameLeaves v := by
  unfold SameLeaves
  induction h with
  | refl e => rfl
  | symm _ ih => exact ih.symm
  | trans _ _ ih ih' => exact ih.trans ih'
  | part before after _ ih => simp [ih]
  | sum _ _ ih ih' => rw [urlTexts_sum, urlTexts_sum, ih, ih']
  | regroup e f g => simp
  | nest before parts after => simp
  | single e => simp
  | concat es fs => simp
  | fill template values => exact urlTexts_fill template values
  | format h args keywords line route => exact urlTexts_format h args keywords line route
  | value he hf => rw [he.urlTexts, hf.urlTexts]

/-- The first part of a string with interpolations, written in front of it. -/
theorem respells_cons (e : Expr) (es : List Expr) :
    (joined (e :: es)).Respells (.binary e "+" (.joined es)) :=
  (Respells.concat [e] es).trans ((Respells.single e).sum (.refl _))

/-- Every URL is respelled by the string that is made of its leaves. -/
theorem respells_urlLeaves (e : Expr) : e.Respells (.joined e.urlLeaves) := by
  induction e using url_induction fun es => (joined es).Respells (.joined (urlLeavesIn es)) with
  | joined parts ih => exact ih
  | sum left right ihleft ihright =>
    rw [urlLeaves_sum]
    exact (ihleft.sum ihright).trans (.symm (.concat _ _))
  | fill template values ih =>
    rw [urlLeaves_fill]
    exact (Respells.fill template values).trans ih
  | format template args keywords line route h ih =>
    rw [urlLeaves_format h]
    exact (Respells.format h args keywords line route).trans ih
  | leaf e he =>
    rw [urlLeaves_of_isUrlLeaf he]
    exact .symm (.single e)
  | nil => exact .refl _
  | cons e es ihe ihes =>
    exact (respells_cons e es).trans ((ihe.sum ihes).trans (.symm (.concat _ _)))

/-- Leaves of the same texts may stand for each other. -/
theorem respells_of_texts_eq {es fs : List Expr} (hes : ∀ e ∈ es, e.isUrlLeaf = true)
    (hfs : ∀ f ∈ fs, f.isUrlLeaf = true) (h : es.map text? = fs.map text?) :
    (joined es).Respells (.joined fs) := by
  induction es generalizing fs with
  | nil =>
    rw [List.map_nil, eq_comm, List.map_eq_nil_iff] at h
    rw [h]
    exact .refl _
  | cons e es ih =>
    cases fs with
    | nil => exact absurd h (by simp)
    | cons f fs =>
      rw [List.map_cons, List.map_cons, List.cons.injEq] at h
      obtain ⟨he, hes⟩ := List.forall_mem_cons.mp hes
      obtain ⟨hf, hfs⟩ := List.forall_mem_cons.mp hfs
      have hhead : e.Respells f := by
        cases htext : e.text? with
        | none => exact .value ⟨he, htext⟩ ⟨hf, h.1.symm.trans htext⟩
        | some value =>
          -- strings of the same text are the same expression
          rw [text?_eq_some_iff.mp htext, text?_eq_some_iff.mp (h.1.symm.trans htext)]
          exact .refl _
      exact (respells_cons e es).trans ((hhead.sum (ih hes hfs h.2)).trans (respells_cons f fs).symm)

/-- The laws lead from a URL to exactly those with the same leaves. -/
theorem respells_iff_sameLeaves {u v : Expr} : u.Respells v ↔ u.SameLeaves v := by
  constructor
  · exact Respells.sameLeaves
  · intro h
    have hmiddle := respells_of_texts_eq (isUrlLeaf_of_mem u) (isUrlLeaf_of_mem v) h
    exact (respells_urlLeaves u).trans (hmiddle.trans (respells_urlLeaves v).symm)

end Expr

/-! ## The walk over the leaves -/

/-- The walk after one leaf, of which only the text counts. -/
def UrlWalk.leaf (w : UrlWalk) (text : Option String) : UrlWalk :=
  if w.ended then w else text.elim w.placeholder w.literal

namespace Endpoint

/-- The segments of leaves behind the first text. -/
def segmentsBehind : List (Option String) → List Segment
  | [] => []
  | none :: rest => .placeholder :: segmentsBehind rest
  | some value :: rest =>
    let text := slashed value.toList
    pathSegments text ++ if text.any endsPath then [] else segmentsBehind rest

/-- The endpoint of leaves: values in front of the first text do not count, and this text may have a
    host. -/
def ofTexts : List (Option String) → Endpoint
  | [] => ⟨[]⟩
  | none :: rest => ofTexts rest
  | some value :: rest =>
    let text := dropHost (slashed value.toList)
    ⟨pathSegments text ++ if text.any endsPath then [] else segmentsBehind rest⟩

end Endpoint

namespace UrlWalk

theorem walk_fill (w : UrlWalk) (template values : Expr) :
    w.walk (.binary template "%" values) = w.walk template := by
  cases hended : w.ended with
  | true => rw [walk_of_ended hended, walk_of_ended hended]
  | false => rw [walk, hended, if_neg Bool.false_ne_true, if_neg (by decide), if_pos rfl]

theorem walk_format (w : UrlWalk) {template : Expr} (h : template.isTemplate = true) (args : List Expr)
    (keywords : List Keyword) (line : Nat) (route : Option Routing) :
    w.walk (.call ⟨.attribute template "format", args, keywords, line, route⟩) = w.walk template := by
  cases hended : w.ended with
  | true => rw [walk_of_ended hended, walk_of_ended hended]
  | false =>
    rw [walk, hended, if_neg Bool.false_ne_true, walkCall, walkFormat, if_pos rfl]
    cases template with
    | str value => exact (walk_str hended value).symm
    | joined parts => rfl
    | _ => exact absurd h Bool.false_ne_true

/-- Only templates are looked into behind `format`. -/
theorem walkTemplate_of_not_isTemplate (w : UrlWalk) {e : Expr} (h : ¬ e.isTemplate = true) :
    w.walkTemplate e = w.placeholder := by
  cases e with
  | str _ | joined _ => exact absurd rfl h
  | _ => rfl

theorem walkCall_of_isUrlLeaf (w : UrlWalk) :
    ∀ c : Call, (Expr.call c).isUrlLeaf = true → w.walkCall c = w.placeholder
  | ⟨.attribute value attr, _, _, _, _⟩, h => by
    have hformat : ¬ (attr = "format" ∧ value.isTemplate = true) := of_decide_eq_true h
    rw [walkCall, walkFormat]
    split
    · next hattr => exact walkTemplate_of_not_isTemplate w fun hvalue => hformat ⟨hattr, hvalue⟩
    · rfl
  | ⟨.name _, _, _, _, _⟩, _ | ⟨.call _, _, _, _, _⟩, _ | ⟨.str _, _, _, _, _⟩, _
  | ⟨.constant _, _, _, _, _⟩, _ | ⟨.joined _, _, _, _, _⟩, _ | ⟨.formatted _, _, _, _, _⟩, _
  | ⟨.binary _ _ _, _, _, _, _⟩, _ | ⟨.other _ _, _, _, _, _⟩, _ => rfl

theorem walk_of_isUrlLeaf (w : UrlWalk) {e : Expr} (h : e.isUrlLeaf = true) :
    w.walk e = w.leaf e.text? := by
  unfold leaf
  cases hended : w.ended with
  | true => exact walk_of_ended hended e
  | false =>
    rw [if_neg Bool.false_ne_true]
    cases e with
    | str value => exact walk_str hended value
    | joined parts => exact absurd h Bool.false_ne_true
    | binary left op right =>
      obtain ⟨hplus, hpercent⟩ := of_decide_eq_true h
      rw [walk, hended, if_neg Bool.false_ne_true, if_neg hplus, if_neg hpercent]
      rfl
    | call c =>
      rw [walk, hended, if_neg Bool.false_ne_true]
      exact walkCall_of_isUrlLeaf w c h
    | _ => exact if_neg (by rw [hended]; exact Bool.false_ne_true)

/-- The walk over an expression is the walk over the texts of its leaves. -/
theorem walk_eq_foldl (w : UrlWalk) (e : Expr) : w.walk e = e.urlTexts.foldl leaf w := by
  -- for any walk so far: the path may have ended in front of the expression, or end in its first part
  induction e using Expr.url_induction (fun es => ∀ w : UrlWalk,
    w.walkAll es = (es.flatMap Expr.urlTexts).foldl leaf w) generalizing w with
  | joined parts ih => rw [walk, ih, Expr.urlTexts_joined]
  | sum left right ihleft ihright => rw [walk_add, ihleft, ihright, Expr.urlTexts_sum, List.foldl_append]
  | fill template values ih => rw [walk_fill, ih, Expr.urlTexts_fill]
  | format template args keywords line route h ih => rw [walk_format w h, ih, Expr.urlTexts_format h]
  | leaf e he =>
    rw [walk_of_isUrlLeaf w he, Expr.urlTexts, Expr.urlLeaves_of_isUrlLeaf he]
    rfl
  | nil w => rfl
  | cons e es ihe ihes w => rw [walkAll, ihe, ihes, List.flatMap_cons, List.foldl_append]

theorem foldl_leaf_of_ended {w : UrlWalk} (h : w.ended = true) (texts : List (Option String)) :
    texts.foldl leaf w = w := by
  induction texts with
  | nil => rfl
  | cons text texts ih => rw [List.foldl_cons, leaf, if_pos h, ih]

/-- Behind the first text the leaves add their own segments, up to the end of the path. -/
theorem segments_foldl_leaf (segments : List Segment) (texts : List (Option String)) :
    (texts.foldl leaf ⟨segments, true, false⟩).segments = segments ++ Endpoint.segmentsBehind texts := by
  induction texts generalizing segments with
  | nil => exact (List.append_nil segments).symm
  | cons text texts ih =>
    cases text with
    | none => exact (ih (segments ++ [.placeholder])).trans (List.append_assoc ..)
    | some value =>
      have hleaf : leaf ⟨segments, true, false⟩ (some value) =
          ⟨segments ++ Endpoint.pathSegments (slashed value.toList), true,
            (slashed value.toList).any endsPath⟩ := rfl
      rw [List.foldl_cons, hleaf, Endpoint.segmentsBehind]
      cases (slashed value.toList).any endsPath with
      | true => rw [foldl_leaf_of_ended rfl, if_pos rfl, List.append_nil]
      | false => rw [ih, if_neg Bool.false_ne_true, List.append_assoc]

theorem segments_foldl_start (texts : List (Option String)) :
    (texts.foldl leaf start).segments = (Endpoint.ofTexts texts).segments := by
  induction texts with
  | nil => rfl
  | cons text texts ih =>
    cases text with
    | none => exact ih
    | some value =>
      have hleaf : leaf start (some value) =
          ⟨Endpoint.pathSegments (dropHost (slashed value.toList)), true,
            (dropHost (slashed value.toList)).any endsPath⟩ := rfl
      rw [List.foldl_cons, hleaf, Endpoint.ofTexts]
      cases (dropHost (slashed value.toList)).any endsPath with
      | true => rw [foldl_leaf_of_ended rfl, if_pos rfl, List.append_nil]
      | false => rw [segments_foldl_leaf, if_neg Bool.false_ne_true]

end UrlWalk

namespace Endpoint

/-- The endpoint of a URL is the endpoint of its leaves. -/
theorem ofUrl_eq_ofTexts (url : Expr) : ofUrl url = ofTexts url.urlTexts := by
  rw [ofUrl, UrlWalk.walk_eq_foldl, UrlWalk.segments_foldl_start]

/-- **The endpoint of a URL depends on its leaves only**, and of a leaf that is no string only on there being
    one. URLs with the same leaves are those that the laws of spelling lead to, and all of them name the same
    endpoint. -/
theorem ofUrl_leaves (url : Expr) :
    ofUrl url = ofTexts url.urlTexts ∧
      ∀ other : Expr, (url.Respells other ↔ url.SameLeaves other) ∧
        (url.SameLeaves other → ofUrl other = ofUrl url) := by
  refine ⟨ofUrl_eq_ofTexts url, ?_⟩
  intro other
  refine ⟨Expr.respells_iff_sameLeaves, ?_⟩
  intro hsame
  rw [ofUrl_eq_ofTexts, ofUrl_eq_ofTexts, hsame]

/-- The URL `f"http://{host}/cart/{item}?next="`, as one string. -/
def cartUrl : Expr :=
  .joined [.str "http://", .formatted (.name "host"), .str "/cart/", .formatted (.name "item"),
    .str "?next="]

/-- The same leaves in a filled template, behind a call that gives the host. -/
def cartUrlFilled : Expr :=
  .binary (.binary (.str "http://") "+" (.binary (.call ⟨.name "host", [], [], 7, none⟩) "+"
    (.call ⟨.attribute (.joined [.str "/cart/", .joined [.formatted (.name "item"), .str "?next="]])
      "format", [.name "page"], [], 7, none⟩))) "%" (.name "page")

/-- Both name a segment for the interpolated host, `cart` and a segment for the item. -/
theorem cartUrl_respelled :
    cartUrl.SameLeaves cartUrlFilled ∧ ofUrl cartUrlFilled = ofUrl cartUrl ∧
      cartUrl.Respells cartUrlFilled ∧
      ofUrl cartUrl = ⟨[.placeholder, .literal "cart", .placeholder]⟩ := by
  have hsame : cartUrl.SameLeaves cartUrlFilled := by decide
  obtain ⟨hspell, hofUrl⟩ := (ofUrl_leaves cartUrl).2 cartUrlFilled
  exact ⟨hsame, hofUrl hsame, hspell.mpr hsame, by decide⟩

end Endpoint

end ServiceTrace
