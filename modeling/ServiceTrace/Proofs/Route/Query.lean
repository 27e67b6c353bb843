import Mathlib.Data.List.TakeWhile
import ServiceTrace.Proofs.Route.Pieces

/-!
# `ServiceTrace.Proofs.Route.Query` — queries and fragments of URLs

A `?` or a `#` ends the path of a URL: nothing that is walked behind it adds a segment
(`UrlWalk.walk_of_ended`), whether it stands in the same literal or in a later expression. But the scheme
and the host are taken off first, and they are looked for in the whole literal. Where the path does not
close its host with a slash of its own, a `://` or a slash in the query is taken for that of the URL.

`Endpoint.Apart` says when a query cannot be mistaken in this way, and `Endpoint.ofUrl_query` that it then
does not count as path. No query at all can be mistaken exactly behind a host that is closed
(`Endpoint.ClosesHost`).
-/

namespace ServiceTrace

/-! ## Texts with a character that cannot be matched -/

namespace Text

/-- A segment that does not hold `sep` is at the front of a text when it is at the front of what stands
    before `sep`. -/
theorem dropInitial?_append_cons {sep : Char} {sub : List Char} (h : sep ∉ sub) (cs ds : List Char) :
    dropInitial? sub (cs ++ sep :: ds) = (dropInitial? sub cs).map (· ++ sep :: ds) := by
  induction sub generalizing cs with
  | nil => rfl
  | cons d sub ih =>
    obtain ⟨hne, hsub⟩ := not_or.mp (mt List.mem_cons.mpr h)
    cases cs with
    | nil => exact dropInitial?_cons_of_ne (Ne.symm hne) sub ds
    | cons c cs =>
      rw [List.cons_append, dropInitial?, dropInitial?]
      split
      · exact ih hsub cs
      · rfl

/-- A segment that does not hold `sep` occurs before it or behind it. -/
theorem findSub?_append_cons {sep d : Char} {sub : List Char} (h : sep ∉ d :: sub)
    (cs ds : List Char) :
    findSub? (d :: sub) (cs ++ sep :: ds) =
      ((findSub? (d :: sub) cs).map (· ++ sep :: ds)).or (findSub? (d :: sub) ds) := by
  induction cs with
  | nil =>
    have hne : d ≠ sep := fun heq => h (heq ▸ List.mem_cons_self)
    show findSub? (d :: sub) (sep :: ds) = findSub? (d :: sub) ds
    rw [findSub?, dropInitial?_cons_of_ne hne]
  | cons c cs ih =>
    rw [List.cons_append, findSub?, ← List.cons_append, dropInitial?_append_cons h, findSub?]
    cases dropInitial? (d :: sub) (c :: cs) with
    | some rest => rfl
    | none => exact ih

/-- What follows a segment is the end of the text. -/
theorem findSub?_suffix {sub cs rest : List Char} (h : findSub? sub cs = some rest) : rest <:+ cs := by
  obtain ⟨before, rfl⟩ := of_findSub? h
  exact (List.suffix_append sub rest).trans (List.suffix_append before _)

end Text

/-! ## Behind the end of a path -/

/-- An expression that goes on behind a given one: with further expressions added by `+`, or with later
    parts of a string with interpolations. -/
inductive Expr.Continues (first : Expr) : Expr → Prop
  | refl : Continues first first
  | add {url : Expr} (more : Expr) : Continues first url → Continues first (.binary url "+" more)
  | part {url : Expr} (parts : List Expr) : Continues first url →
      Continues first (.joined (url :: parts))

namespace UrlWalk

mutual

/-- Once the path has ended, an expression adds nothing. -/
theorem walk_of_ended {w : UrlWalk} (h : w.ended = true) : ∀ e : Expr, w.walk e = w
  | .joined parts => by
    rw [walk]
    exact walkAll_of_ended h parts
  | .str _ | .binary _ _ _ | .call _ | .name _ | .attribute _ _ | .constant _ | .formatted _
  | .other _ _ => if_pos h

theorem walkAll_of_ended {w : UrlWalk} (h : w.ended = true) : ∀ es : List Expr, w.walkAll es = w
  | [] => rfl
  | e :: es => by rw [walkAll, walk_of_ended h e, walkAll_of_ended h es]

end

/-- The walk over a concatenation. -/
theorem walk_add (w : UrlWalk) (left right : Expr) :
    w.walk (.binary left "+" right) = (w.walk left).walk right := by
  cases hended : w.ended with
  | true => rw [walk_of_ended hended, walk_of_ended hended, walk_of_ended hended]
  | false => rw [walk, hended, if_neg Bool.false_ne_true, if_pos rfl]

/-- When an expression ends the path, whatever goes on behind it adds nothing. -/
theorem walk_of_continues {first url : Expr} (h : first.Continues url) {w : UrlWalk}
    (hended : (w.walk first).ended = true) : w.walk url = w.walk first := by
  induction h with
  | refl => rfl
  | add more _ ih => rw [walk_add, ih, walk_of_ended hended]
  | part parts _ ih => rw [walk, walkAll, ih, walkAll_of_ended hended]

end UrlWalk

/-! ## Hosts and queries -/

namespace Endpoint

/-- What stands behind the `://` of a text, backslashes being slashes. -/
def afterScheme? (cs : List Char) : Option (List Char) :=
  Text.findSub? [':', '/', '/'] (slashed cs)

/-- A text has a host and closes it with a slash. -/
def ClosesHost (path : List Char) : Prop :=
  ∃ rest, afterScheme? path = some rest ∧ '/' ∈ rest

/-- The host of a URL cannot be looked for in its query: the path closes a host, or neither of them has a
    scheme. -/
def Apart (path query : List Char) : Prop :=
  ClosesHost path ∨ afterScheme? path = none ∧ afterScheme? query = none

theorem slashed_append_cons {sep : Char} (hsep : endsPath sep = true) (path query : List Char) :
    slashed (path ++ sep :: query) = slashed path ++ sep :: slashed query := by
  have hne : sep ≠ '\\' := by
    rintro rfl
    exact Bool.noConfusion hsep
  unfold slashed
  rw [List.map_append, List.map_cons, if_neg hne]

theorem afterScheme?_append_cons {sep : Char} (hsep : endsPath sep = true) (path query : List Char) :
    afterScheme? (path ++ sep :: query) =
      ((afterScheme? path).map (· ++ sep :: slashed query)).or (afterScheme? query) := by
  have hnot : sep ∉ [':', '/', '/'] := by
    intro hmem
    simp only [List.mem_cons, List.not_mem_nil, or_false] at hmem
    rcases hmem with rfl | rfl | rfl <;> exact Bool.noConfusion hsep
  unfold afterScheme?
  rw [slashed_append_cons hsep, Text.findSub?_append_cons hnot]

/-- Where a text has a scheme, dropping the host leaves what the host is closed with. -/
theorem dropHost_slashed {cs rest : List Char} (h : afterScheme? cs = some rest) :
    dropHost (slashed cs) = rest.dropWhile (· ≠ '/') := by
  rw [dropHost, show Text.findSub? _ (slashed cs) = some rest from h]

theorem dropHost_slashed_of_none {cs : List Char} (h : afterScheme? cs = none) :
    dropHost (slashed cs) = slashed cs := by
  rw [dropHost, show Text.findSub? _ (slashed cs) = none from h]

/-- A query apart from its path stays behind the path when the host is dropped. -/
theorem dropHost_append_cons {sep : Char} (hsep : endsPath sep = true) {path query : List Char}
    (h : Apart path query) :
    dropHost (slashed (path ++ sep :: query)) = dropHost (slashed path) ++ sep :: slashed query := by
  have hscheme := afterScheme?_append_cons hsep path query
  rcases h with ⟨rest, hrest, hslash⟩ | ⟨hpath, hquery⟩
  · rw [hrest] at hscheme
    rw [dropHost_slashed hscheme, dropHost_slashed hrest, List.dropWhile_append, if_neg]
    intro hempty
    have hall := List.dropWhile_eq_nil_iff.mp (List.isEmpty_iff.mp hempty)
    exact absurd (hall '/' hslash) (by simp)
  · rw [hpath, hquery] at hscheme
    rw [dropHost_slashed_of_none hscheme, dropHost_slashed_of_none hpath, slashed_append_cons hsep]

/-- Without its host a text holds no other characters. -/
theorem dropHost_suffix (cs : List Char) : dropHost cs <:+ cs := by
  unfold dropHost
  split
  · exact List.suffix_refl cs
  · next rest hrest => exact (List.dropWhile_suffix _).trans (Text.findSub?_suffix hrest)

/-- No character of a path ends it, with its backslashes turned into slashes and without its host. -/
theorem endsPath_dropHost {path : List Char} (h : ∀ c ∈ path, endsPath c = false) :
    ∀ c ∈ dropHost (slashed path), endsPath c = false := by
  intro c hc
  obtain ⟨b, hb, rfl⟩ := List.mem_map.mp ((dropHost_suffix _).subset hc)
  split
  · rfl
  · exact h b hb

/-- The segments of a text are those in front of a character that ends the path. -/
theorem pathSegments_append_of_endsPath {path : List Char} (h : ∀ c ∈ path, endsPath c = false)
    {sep : Char} (hsep : endsPath sep = true) (query : List Char) :
    pathSegments (path ++ sep :: query) = pathSegments path := by
  have hpath : ∀ c ∈ path, (!endsPath c) = true := by
    intro c hc
    rw [h c hc]
    rfl
  have hself : path.takeWhile (fun c => !endsPath c) = path := List.takeWhile_eq_self_iff.mpr hpath
  unfold pathSegments
  rw [List.takeWhile_append_of_pos hpath, List.takeWhile_cons_of_neg (by simp [hsep]),
    List.append_nil, hself]

/-! ## Queries do not count as path -/

/-- A query counts for nothing: neither it nor what goes on behind it changes the endpoint of the path. -/
def IgnoresQuery (path : List Char) (sep : Char) (query : List Char) : Prop :=
  ∀ url, (Expr.str (String.ofList (path ++ sep :: query))).Continues url →
    ofUrl url = ofUrl (.str (String.ofList path))

theorem ofUrl_literal (cs : List Char) :
    ofUrl (.str (String.ofList cs)) = ⟨pathSegments (dropHost (slashed cs))⟩ := by
  rw [ofUrl, UrlWalk.walk_str rfl, UrlWalk.literal_start]

/-- A query that is apart from its path counts for nothing. -/
theorem Apart.ignoresQuery {path query : List Char} (hpath : ∀ c ∈ path, endsPath c = false)
    {sep : Char} (hsep : endsPath sep = true) (h : Apart path query) :
    IgnoresQuery path sep query := by
  intro url hurl
  have hdrop := dropHost_append_cons hsep h
  have hended : (UrlWalk.start.walk (.str (String.ofList (path ++ sep :: query)))).ended = true := by
    rw [UrlWalk.walk_str rfl, UrlWalk.literal_start, hdrop, List.any_append, List.any_cons, hsep,
      Bool.true_or, Bool.or_true]
  have hwalk : ofUrl url = ofUrl (.str (String.ofList (path ++ sep :: query))) := by
    rw [ofUrl, UrlWalk.walk_of_continues hurl hended]
    rfl
  rw [hwalk, ofUrl_literal, ofUrl_literal, hdrop,
    pathSegments_append_of_endsPath (endsPath_dropHost hpath) hsep]

/-- The query that is mistaken for a host behind every path that does not close its own. -/
theorem not_ignoresQuery_scheme {path : List Char} (h : ¬ ClosesHost path) :
    ¬ IgnoresQuery path '?' [':', '/', '/'] := by
  intro hignores
  -- nothing is left of the literal, and its path does not end
  have hlost : UrlWalk.start.walk (.str (String.ofList (path ++ '?' :: [':', '/', '/']))) =
      ⟨[], true, false⟩ := by
    have hsep : endsPath '?' = true := rfl
    have hscheme := afterScheme?_append_cons hsep path [':', '/', '/']
    rw [UrlWalk.walk_str rfl, UrlWalk.literal_start]
    cases hrest : afterScheme? path with
    | none =>
      rw [hrest] at hscheme
      rw [dropHost_slashed hscheme]
      rfl
    | some rest =>
      have hhost : ∀ c ∈ rest, decide (c ≠ '/') = true := by
        intro c hc
        apply decide_eq_true
        rintro rfl
        exact h ⟨rest, hrest, hc⟩
      rw [hrest] at hscheme
      rw [dropHost_slashed hscheme, List.dropWhile_append_of_pos hhost]
      rfl
  have hself := hignores _ .refl
  have hmore := hignores _ (.add (.name "x") .refl)
  rw [← hself, ofUrl, ofUrl, UrlWalk.walk_add, hlost] at hmore
  exact absurd hmore (by decide)

/-- **Queries and fragments do not count as path** where they are apart from it. Where the path closes its
    host, all queries are; and nowhere else. -/
theorem ofUrl_query {path : List Char} (hpath : ∀ c ∈ path, endsPath c = false) :
    (∀ sep query, endsPath sep = true → Apart path query → IgnoresQuery path sep query) ∧
      ((∀ sep query, endsPath sep = true → IgnoresQuery path sep query) ↔ ClosesHost path) := by
  constructor
  · intro sep query hsep h
    exact h.ignoresQuery hpath hsep
  · constructor
    · intro hall
      by_contra hopen
      exact not_ignoresQuery_scheme hopen (hall '?' _ rfl)
    · intro h sep query hsep
      apply Apart.ignoresQuery hpath hsep
      exact .inl h

/-- The URL `https://shop/cart?next=http://shop/home`, with expressions behind it: its query holds a URL of
    its own, which does not count. -/
theorem ofUrl_cart_query :
    ofUrl (.binary (.joined [.str (String.ofList ("https://shop/cart".toList ++ '?' ::
        "next=http://shop/home".toList)), .formatted (.name "page")]) "+" (.str "/more")) =
      ofUrl (.str (String.ofList "https://shop/cart".toList)) := by
  have hpath : ∀ c ∈ "https://shop/cart".toList, endsPath c = false := by
    intro c hc
    have hall : "https://shop/cart".toList.all (fun c => !endsPath c) = true := rfl
    simpa using List.all_eq_true.mp hall c hc
  have hcloses : ClosesHost "https://shop/cart".toList := ⟨"shop/cart".toList, rfl, by decide⟩
  exact (ofUrl_query hpath).1 '?' _ rfl (.inl hcloses) _ (.add _ (.part _ .refl))

/-- **Queries that count as path**: the URL in the query of `/search` is taken for the URL itself, and a query
    right behind a host is lost with it, so that what follows counts. -/
theorem ofUrl_query_counts :
    ofUrl (.str "/search?next=http://shop/cart") ≠ ofUrl (.str "/search") ∧
    ofUrl (.joined [.str "http://shop?page=", .formatted (.name "page")]) ≠
      ofUrl (.str "http://shop") := by
  decide

end Endpoint

end ServiceTrace
