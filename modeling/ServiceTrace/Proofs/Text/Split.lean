import Mathlib.Data.List.TakeDrop
import Mathlib.Data.List.TakeWhile
import ServiceTrace.Text.Blank
import ServiceTrace.Text.Split

/-!
# `ServiceTrace.Proofs.Text.Split` — laws of cutting texts

A text with a separator in the middle is cut into the pieces on its left and those on its right, whatever
stands there (`splitAt_append_cons`). Together with `splitAt_of_not_mem` this computes the pieces of any text
that is put together from parts, and `parts`, the pieces that are not empty, takes concatenation at a
separator to concatenation.

The other functions that cut are given here on texts put together from a margin and a middle: `trimWhere`
drops the margins and nothing else, `findSub?` finds what was put in.
-/

namespace ServiceTrace.Text

/-! ## Pieces between separators -/

/-- Parts with a separator behind each. -/
def closed {α : Type} (sep : α) (texts : List (List α)) : List α :=
  texts.flatMap (· ++ [sep])

theorem closed_cons {α : Type} {sep : α} (text : List α) (texts : List (List α)) :
    closed sep (text :: texts) = text ++ sep :: closed sep texts := by
  rw [closed, List.flatMap_cons, List.append_assoc]
  rfl

theorem getLast?_closed {α : Type} {sep : α} {texts : List (List α)} (h : texts ≠ []) :
    (closed sep texts).getLast? = some sep := by
  induction texts with
  | nil => exact absurd rfl h
  | cons text texts ih =>
    rw [closed_cons, List.getLast?_append, List.getLast?_cons]
    cases texts with
    | nil => rfl
    | cons text' texts => rw [ih (List.cons_ne_nil _ _), Option.some_or, Option.getD_some]

section Pieces

variable {α : Type} [DecidableEq α] {sep : α}

theorem splitAt_ne_nil (cs : List α) : splitAt sep cs ≠ [] := by
  cases cs with
  | nil => exact List.cons_ne_nil _ _
  | cons c cs =>
    rw [splitAt]
    split
    · exact List.cons_ne_nil _ _
    · split <;> exact List.cons_ne_nil _ _

theorem splitAt_cons_self (cs : List α) : splitAt sep (sep :: cs) = [] :: splitAt sep cs := by
  rw [splitAt, if_pos rfl]

/-- A character that is no separator belongs to the first piece. -/
theorem splitAt_cons_of_ne {c : α} (h : c ≠ sep) (cs : List α) :
    splitAt sep (c :: cs) = (splitAt sep cs).modifyHead (c :: ·) := by
  rw [splitAt, if_neg h]
  cases hcs : splitAt sep cs with
  | nil => exact absurd hcs (splitAt_ne_nil cs)
  | cons piece rest => rfl

theorem splitAt_of_not_mem {cs : List α} (h : sep ∉ cs) : splitAt sep cs = [cs] := by
  induction cs with
  | nil => rfl
  | cons c cs ih =>
    have hne : sep ≠ c := List.ne_of_not_mem_cons h
    rw [splitAt_cons_of_ne hne.symm, ih (List.not_mem_of_not_mem_cons h)]
    rfl

/-- At a separator the pieces of a text are those before it and those after it. -/
theorem splitAt_append_cons (cs ds : List α) :
    splitAt sep (cs ++ sep :: ds) = splitAt sep cs ++ splitAt sep ds := by
  induction cs with
  | nil => exact splitAt_cons_self ds
  | cons c cs ih =>
    rw [List.cons_append]
    by_cases h : c = sep
    · subst h
      rw [splitAt_cons_self, splitAt_cons_self, ih, List.cons_append]
    · rw [splitAt_cons_of_ne h, splitAt_cons_of_ne h, ih]
      cases hcs : splitAt sep cs with
      | nil => exact absurd hcs (splitAt_ne_nil cs)
      | cons piece rest => rfl

/-- The last of the separators behind the parts has an empty piece behind it. -/
theorem splitAt_closed {texts : List (List α)} (h : ∀ text ∈ texts, sep ∉ text) :
    splitAt sep (closed sep texts) = texts ++ [[]] := by
  induction texts with
  | nil => rfl
  | cons text texts ih =>
    have hrest := ih fun t ht => h t (List.mem_cons_of_mem _ ht)
    rw [closed_cons, splitAt_append_cons, splitAt_of_not_mem (h text List.mem_cons_self), hrest]
    rfl

/-- A text goes up to the first separator. -/
theorem span_append_cons {cs : List α} (h : sep ∉ cs) (ds : List α) :
    (cs ++ sep :: ds).span (· ≠ sep) = (cs, sep :: ds) := by
  have hne : ∀ c ∈ cs, decide (c ≠ sep) = true := fun c hc => by
    simpa using fun heq : c = sep => h (heq ▸ hc)
  rw [List.span_eq_takeWhile_dropWhile, List.takeWhile_append_of_pos hne, List.dropWhile_append_of_pos hne]
  simp

/-- A text is cut at its first separator. -/
theorem of_span {cs before after : List α} {c : α} (h : cs.span (· ≠ sep) = (before, c :: after)) :
    sep ∉ before ∧ cs = before ++ sep :: after := by
  rw [List.span_eq_takeWhile_dropWhile, Prod.mk.injEq] at h
  obtain ⟨hbefore, hafter⟩ := h
  have hc : c = sep := by
    have hhead := List.head?_dropWhile_not (fun c => decide (c ≠ sep)) cs
    rw [hafter, List.head?_cons] at hhead
    simpa using hhead
  constructor
  · intro hmem
    rw [← hbefore] at hmem
    simpa using List.mem_takeWhile_imp hmem
  · rw [← hc, ← hafter, ← hbefore, List.takeWhile_append_dropWhile]

/-- The pieces of a text that are not empty. -/
def parts (sep : α) (cs : List α) : List (List α) :=
  (splitAt sep cs).filter (· ≠ [])

@[simp] theorem parts_nil : parts sep [] = [] :=
  rfl

theorem parts_append_cons (cs ds : List α) :
    parts sep (cs ++ sep :: ds) = parts sep cs ++ parts sep ds := by
  rw [parts, splitAt_append_cons, List.filter_append]
  rfl

theorem parts_cons_self (cs : List α) : parts sep (sep :: cs) = parts sep cs :=
  parts_append_cons [] cs

/-- A separator at the end closes the last piece, which is there without it. -/
theorem parts_append_self (cs : List α) : parts sep (cs ++ [sep]) = parts sep cs := by
  rw [parts_append_cons, parts_nil, List.append_nil]

theorem parts_of_not_mem {cs : List α} (h : sep ∉ cs) (hne : cs ≠ []) : parts sep cs = [cs] := by
  rw [parts, splitAt_of_not_mem h, List.filter_cons_of_pos (by simpa using hne), List.filter_nil]

/-- Only a text of separators has no piece that is not empty. -/
theorem parts_eq_nil_iff {cs : List α} : parts sep cs = [] ↔ ∀ c ∈ cs, c = sep := by
  induction cs with
  | nil => simp
  | cons c cs ih =>
    by_cases h : c = sep
    · rw [h, parts_cons_self, ih]
      simp
    · have hpiece : parts sep (c :: cs) ≠ [] := by
        rw [parts, splitAt_cons_of_ne h]
        cases hcs : splitAt sep cs with
        | nil => exact absurd hcs (splitAt_ne_nil cs)
        | cons piece rest => simp
      simp [hpiece, h]

/-- Parts with a separator behind each are the pieces of the text that they make up. -/
theorem parts_closed_append {texts : List (List α)} (h : ∀ text ∈ texts, text ≠ [] ∧ sep ∉ text)
    (rest : List α) : parts sep (closed sep texts ++ rest) = texts ++ parts sep rest := by
  induction texts with
  | nil => rfl
  | cons text texts ih =>
    obtain ⟨hne, hsep⟩ := h text List.mem_cons_self
    rw [closed_cons, List.append_assoc, List.cons_append, parts_append_cons, parts_of_not_mem hsep hne,
      ih fun t ht => h t (List.mem_cons_of_mem _ ht)]
    rfl

/-- No piece has a separator in it, nor characters that the text does not have. -/
theorem mem_splitAt {cs piece : List α} (h : piece ∈ splitAt sep cs) :
    sep ∉ piece ∧ ∀ c ∈ piece, c ∈ cs := by
  induction cs generalizing piece with
  | nil =>
    obtain rfl := List.mem_singleton.mp h
    exact ⟨List.not_mem_nil, fun c hc => hc⟩
  | cons c cs ih =>
    have hrest : ∀ {piece}, piece ∈ splitAt sep cs → sep ∉ piece ∧ ∀ d ∈ piece, d ∈ c :: cs :=
      fun hpiece => ⟨(ih hpiece).1, fun d hd => List.mem_cons_of_mem c ((ih hpiece).2 d hd)⟩
    by_cases hsep : c = sep
    · rw [hsep, splitAt_cons_self] at h
      rcases List.mem_cons.mp h with rfl | h
      · exact ⟨List.not_mem_nil, fun d hd => absurd hd List.not_mem_nil⟩
      · exact hrest h
    · rw [splitAt_cons_of_ne hsep] at h
      cases hcs : splitAt sep cs with
      | nil => exact absurd hcs (splitAt_ne_nil cs)
      | cons first rest =>
        rw [hcs, List.modifyHead_cons] at h
        rcases List.mem_cons.mp h with rfl | h
        · obtain ⟨hno, hsub⟩ := hrest (hcs ▸ List.mem_cons_self)
          exact ⟨fun hc => (List.mem_cons.mp hc).elim (Ne.symm hsep) hno,
            fun d hd => (List.mem_cons.mp hd).elim (fun heq => heq ▸ List.mem_cons_self) (hsub d)⟩
        · exact hrest (hcs ▸ List.mem_cons_of_mem first h)

end Pieces

/-! ## Pieces of strings -/

section Strings

variable {sep : Char}

theorem split_append {s left right : String} (h : s.toList = [sep]) :
    split sep (left ++ s ++ right) = split sep left ++ split sep right := by
  unfold split
  rw [String.toList_append, String.toList_append, h, List.append_assoc, List.singleton_append,
    splitAt_append_cons, List.map_append]

/-- A piece in front of a separator does not change the last piece of a text. -/
theorem getLast?_split_append {s left right : String} (h : s.toList = [sep]) :
    (split sep (left ++ s ++ right)).getLast? = (split sep right).getLast? := by
  have hne : split sep right ≠ [] := mt List.map_eq_nil_iff.mp (splitAt_ne_nil _)
  obtain ⟨last, hlast⟩ := Option.isSome_iff_exists.mp (List.getLast?_isSome.mpr hne)
  rw [split_append h, List.getLast?_append, hlast, Option.some_or]

theorem not_mem_of_mem_split {text piece : String} (h : piece ∈ split sep text) : sep ∉ piece.toList := by
  obtain ⟨cs, hcs, rfl⟩ := List.mem_map.mp h
  rw [String.toList_ofList]
  exact (mem_splitAt hcs).1

theorem split_of_not_mem {text : String} (h : sep ∉ text.toList) : split sep text = [text] := by
  rw [split, splitAt_of_not_mem h, List.map_singleton, String.ofList_toList]

/-- Joined texts without separators are taken apart again. -/
theorem split_intercalate {s : String} (h : s.toList = [sep]) {texts : List String} (hne : texts ≠ [])
    (hsep : ∀ text ∈ texts, sep ∉ text.toList) : split sep (s.intercalate texts) = texts := by
  induction texts with
  | nil => exact absurd rfl hne
  | cons text texts ih =>
    have hfirst := split_of_not_mem (hsep text List.mem_cons_self)
    by_cases hlast : texts = []
    · subst hlast
      rw [String.intercalate_singleton, hfirst]
    · rw [String.intercalate_cons_of_ne_nil hlast, split_append h, hfirst,
        ih hlast fun text htext => hsep text (List.mem_cons_of_mem _ htext)]
      rfl

/-- Joined texts are closed by one more separator. -/
theorem toList_intercalate_append {s : String} (h : s.toList = [sep]) {texts : List String}
    (hne : texts ≠ []) : (s.intercalate texts).toList ++ [sep] = closed sep (texts.map String.toList) := by
  induction texts with
  | nil => exact absurd rfl hne
  | cons text texts ih =>
    rw [List.map_cons, closed_cons]
    by_cases hlast : texts = []
    · subst hlast
      rw [String.intercalate_singleton]
      rfl
    · rw [String.intercalate_cons_of_ne_nil hlast, String.toList_append, String.toList_append, h,
        List.append_assoc, List.append_assoc, ih hlast]
      rfl

theorem pieces_append {s left right : String} (h : s.toList = [sep]) :
    pieces sep (left ++ s ++ right) = pieces sep left ++ pieces sep right := by
  rw [pieces, split_append h, List.filter_append]
  rfl

theorem pieces_of_not_mem {text : String} (h : sep ∉ text.toList) (hne : text ≠ "") :
    pieces sep text = [text] := by
  rw [pieces, split_of_not_mem h]
  simp [hne]

/-- Joined texts have the pieces of all of them. -/
theorem pieces_intercalate {s : String} (h : s.toList = [sep]) (texts : List String) :
    pieces sep (s.intercalate texts) = texts.flatMap (pieces sep) := by
  induction texts with
  | nil => rfl
  | cons text texts ih =>
    by_cases hne : texts = []
    · subst hne
      simp
    · rw [String.intercalate_cons_of_ne_nil hne, pieces_append h, ih, List.flatMap_cons]

theorem flatMap_pieces_of_forall {texts : List String}
    (h : ∀ text ∈ texts, text ≠ "" ∧ sep ∉ text.toList) : texts.flatMap (pieces sep) = texts := by
  induction texts with
  | nil => rfl
  | cons text texts ih =>
    obtain ⟨hne, hsep⟩ := h text List.mem_cons_self
    rw [List.flatMap_cons, pieces_of_not_mem hsep hne,
      ih fun text htext => h text (List.mem_cons_of_mem _ htext)]
    rfl

theorem mem_pieces {text piece : String} (h : piece ∈ pieces sep text) :
    piece ≠ "" ∧ sep ∉ piece.toList ∧ ∀ c ∈ piece.toList, c ∈ text.toList := by
  obtain ⟨hmem, hne⟩ := List.mem_filter.mp h
  obtain ⟨cs, hcs, rfl⟩ := List.mem_map.mp hmem
  rw [String.toList_ofList]
  exact ⟨by simpa using hne, mem_splitAt hcs⟩

end Strings

/-! ## The last separator -/

theorem splitLast?_of_not_mem {sep : Char} {cs : List Char} (h : sep ∉ cs) : splitLast? sep cs = none := by
  induction cs with
  | nil => rfl
  | cons c cs ih =>
    rw [splitLast?, ih (List.not_mem_of_not_mem_cons h)]
    exact if_neg (List.ne_of_not_mem_cons h).symm

theorem of_splitLast? {sep : Char} {cs before after : List Char}
    (h : splitLast? sep cs = some (before, after)) : cs = before ++ sep :: after := by
  induction cs generalizing before with
  | nil => exact absurd h nofun
  | cons c cs ih =>
    rw [splitLast?] at h
    split at h
    · rename_i before' after' hrest
      obtain ⟨rfl, rfl⟩ : c :: before' = before ∧ after' = after := by simpa using h
      rw [ih hrest, List.cons_append]
    · obtain ⟨hc, hsome⟩ := Option.ite_none_right_eq_some.mp h
      obtain ⟨rfl, rfl⟩ : [] = before ∧ cs = after := by simpa using hsome
      rw [hc, List.nil_append]

theorem splitLast?_append_cons {sep : Char} {after : List Char} (h : sep ∉ after) (before : List Char) :
    splitLast? sep (before ++ sep :: after) = some (before, after) := by
  induction before with
  | nil =>
    rw [List.nil_append, splitLast?, splitLast?_of_not_mem h]
    exact if_pos rfl
  | cons c before ih => rw [List.cons_append, splitLast?, ih]

theorem splitLast?_eq_none_iff {sep : Char} {cs : List Char} : splitLast? sep cs = none ↔ sep ∉ cs := by
  constructor
  · intro h hmem
    induction cs with
    | nil => exact absurd hmem List.not_mem_nil
    | cons c cs ih =>
      rw [splitLast?] at h
      split at h
      · exact absurd h nofun
      · next hrest =>
        rcases List.mem_cons.mp hmem with rfl | hmem
        · exact absurd h (by simp)
        · exact ih hrest hmem
  · exact splitLast?_of_not_mem

/-- The text behind the last separator holds no other. -/
theorem not_mem_of_splitLast? {sep : Char} {cs before after : List Char}
    (h : splitLast? sep cs = some (before, after)) : sep ∉ after := by
  induction cs generalizing before with
  | nil => exact absurd h nofun
  | cons c cs ih =>
    rw [splitLast?] at h
    split at h
    · next before' after' hrest =>
      obtain ⟨-, rfl⟩ : c :: before' = before ∧ after' = after := by simpa using h
      exact ih hrest
    · next hrest =>
      obtain ⟨-, hsome⟩ := Option.ite_none_right_eq_some.mp h
      obtain ⟨-, rfl⟩ : [] = before ∧ cs = after := by simpa using hsome
      exact splitLast?_eq_none_iff.mp hrest

/-! ## Margins -/

/-- Margins on both sides are dropped, and nothing between them when it neither begins nor ends with a
    character of the margin. -/
theorem trimWhere_append {p : Char → Bool} {left middle right : List Char} {first last : Char}
    (hleft : ∀ c ∈ left, p c = true) (hright : ∀ c ∈ right, p c = true)
    (hfirst : middle.head? = some first) (hlast : middle.getLast? = some last)
    (hpf : p first = false) (hpl : p last = false) :
    trimWhere p (left ++ middle ++ right) = middle := by
  obtain ⟨tail, rfl⟩ := List.head?_eq_some_iff.mp hfirst
  obtain ⟨init, hinit⟩ := List.getLast?_eq_some_iff.mp hlast
  unfold trimWhere
  rw [List.append_assoc, List.dropWhile_append_of_pos hleft, List.cons_append,
    List.dropWhile_cons_of_neg (by simp [hpf]), ← List.cons_append, List.reverse_append,
    List.dropWhile_append_of_pos (fun c hc => hright c (List.mem_reverse.mp hc)), hinit,
    List.reverse_append, List.reverse_singleton, List.singleton_append,
    List.dropWhile_cons_of_neg (by simp [hpl]), List.reverse_cons, List.reverse_reverse]

/-- A text that neither begins nor ends with a character of the margin. -/
structure Trimmed (p : Char → Bool) (cs : List Char) : Prop where
  first : ∀ c, cs.head? = some c → p c = false
  last : ∀ c, cs.getLast? = some c → p c = false

/-- A text without margins is left as it is. -/
theorem Trimmed.trimWhere_eq {p : Char → Bool} {cs : List Char} (h : Trimmed p cs) :
    trimWhere p cs = cs := by
  cases hfirst : cs.head? with
  | none =>
    rw [List.head?_eq_none_iff.mp hfirst]
    rfl
  | some first =>
    have hne : cs ≠ [] := List.ne_nil_of_mem (List.mem_of_head? hfirst)
    obtain ⟨last, hlast⟩ := Option.isSome_iff_exists.mp (List.getLast?_isSome.mpr hne)
    have htrim : trimWhere p ([] ++ cs ++ []) = cs := trimWhere_append (by simp) (by simp) hfirst hlast
      (h.first first hfirst) (h.last last hlast)
    rwa [List.nil_append, List.append_nil] at htrim

/-- A text without characters of the margin is left as it is. -/
theorem trimWhere_of_forall {p : Char → Bool} {cs : List Char} (h : ∀ c ∈ cs, p c = false) :
    trimWhere p cs = cs := by
  apply Trimmed.trimWhere_eq
  exact ⟨fun c hc => h c (List.mem_of_head? hc), fun c hc => h c (List.mem_of_getLast? hc)⟩

/-- Nothing of the margins is left on either side. -/
theorem trimmed_trimWhere (p : Char → Bool) (cs : List Char) : Trimmed p (trimWhere p cs) := by
  have hnot : ∀ (ds : List Char) (c : Char), (ds.dropWhile p).head? = some c → p c = false := by
    intro ds c hc
    have h := List.head?_dropWhile_not p ds
    rwa [hc] at h
  constructor
  · intro c hc
    apply hnot cs
    -- what is dropped on the right does not reach the first character
    obtain ⟨dropped, hdropped⟩ := List.dropWhile_suffix p (l := (cs.dropWhile p).reverse)
    rw [trimWhere, List.head?_reverse] at hc
    rw [← List.getLast?_reverse, ← hdropped, List.getLast?_append, hc, Option.some_or]
  · intro c hc
    apply hnot (cs.dropWhile p).reverse
    rwa [trimWhere, List.getLast?_reverse] at hc

/-! ## Finding a segment -/

theorem dropInitial?_append (start rest : List Char) :
    dropInitial? start (start ++ rest) = some rest :=
  dropInitial?_eq_some_iff.mpr rfl

/-- A segment is not at the front of a text that begins with another character. -/
theorem dropInitial?_cons_of_ne {d c : Char} (h : d ≠ c) (ds cs : List Char) :
    dropInitial? (d :: ds) (c :: cs) = none := by
  rw [dropInitial?, if_neg h]

/-- A segment is found where it was put, when its first character does not occur before. -/
theorem findSub?_append {d : Char} {ds before : List Char} (h : d ∉ before) (rest : List Char) :
    findSub? (d :: ds) (before ++ (d :: ds ++ rest)) = some rest := by
  induction before with
  | nil =>
    show findSub? (d :: ds) (d :: (ds ++ rest)) = some rest
    rw [findSub?, ← List.cons_append, dropInitial?_append]
  | cons c before ih =>
    rw [List.cons_append, findSub?, dropInitial?_cons_of_ne (List.ne_of_not_mem_cons h)]
    exact ih (List.not_mem_of_not_mem_cons h)

/-- What follows a segment that is found follows it in the text. -/
theorem of_findSub? {sub cs rest : List Char} (h : findSub? sub cs = some rest) :
    ∃ before, cs = before ++ (sub ++ rest) := by
  induction cs with
  | nil =>
    have hcut := dropInitial?_eq_some_iff.mp h
    exact ⟨[], hcut⟩
  | cons c cs ih =>
    rw [findSub?] at h
    split at h
    · next rest' hstart =>
      obtain rfl := Option.some.inj h
      have hcut := dropInitial?_eq_some_iff.mp hstart
      exact ⟨[], hcut⟩
    · obtain ⟨before, rfl⟩ := ih h
      exact ⟨c :: before, rfl⟩

/-- A segment does not occur where its first character does not. -/
theorem findSub?_of_not_mem {d : Char} {ds cs : List Char} (h : d ∉ cs) :
    findSub? (d :: ds) cs = none := by
  induction cs with
  | nil => rfl
  | cons c cs ih =>
    rw [findSub?, dropInitial?_cons_of_ne (List.ne_of_not_mem_cons h)]
    exact ih (List.not_mem_of_not_mem_cons h)

end ServiceTrace.Text
