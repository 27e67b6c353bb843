import ServiceTrace.Proofs.Ast.Listing
import ServiceTrace.Proofs.ParseTree.Grammar
import ServiceTrace.Proofs.ParseTree.Layout

/-!
# `ServiceTrace.Proofs.ParseTree.Kept` — expressions keep their calls

A call node is *kept* by a reading of a node above it when the call that it is lowered to is among the calls
of that reading (`ParseTree.KeptIn`). `ParseTree.Keeps` says of a node that all the readings that rules make
of it keep the calls below it. Its children are assumed to do so, and then there is one lemma for each rule:
the grammar names the child where a call can stand (`ParseTree.places`), and the rule reads that child.

This module has the rules for expressions and assignments.
-/

namespace ServiceTrace

/-! ## Lists -/

/-- A property that one element of a list brings about, and that the others keep, holds after a fold. -/
theorem foldl_of_mem {σ α : Type} {step : σ → α → σ} {q : σ → Prop} {a : α} {l : List α} (h : a ∈ l)
    (hstep : ∀ s b, q s → q (step s b)) (ha : ∀ s, q (step s a)) (s : σ) : q (l.foldl step s) := by
  -- what comes after the element keeps the property, what comes before it does not matter
  have hkept : ∀ (l : List α) (s : σ), q s → q (l.foldl step s) := by
    intro l
    induction l with
    | nil => exact fun _ hs => hs
    | cons b l ih => exact fun s hs => ih _ (hstep s b hs)
  obtain ⟨before, after, rfl⟩ := List.append_of_mem h
  rw [List.foldl_append, List.foldl_cons]
  exact hkept after _ (ha _)

/-- Where at most one element satisfies a test, filtering leaves just it. -/
theorem filter_eq_singleton {α : Type} {p : α → Bool} {a : α} {l : List α} (hl : l.countP p ≤ 1)
    (ha : a ∈ l) (hp : p a = true) : l.filter p = [a] := by
  have hmem : a ∈ l.filter p := List.mem_filter.mpr ⟨ha, hp⟩
  rw [List.countP_eq_length_filter] at hl
  match hf : l.filter p, hl with
  | [], _ =>
    rw [hf] at hmem
    cases hmem
  | [b], _ =>
    rw [hf, List.mem_singleton] at hmem
    rw [hmem]
  | _ :: _ :: _, hlen => simp at hlen

theorem find?_eq_some {α : Type} {p : α → Bool} {a : α} {l : List α} (hl : l.countP p ≤ 1) (ha : a ∈ l)
    (hp : p a = true) : l.find? p = some a := by
  rw [← List.head?_filter, filter_eq_singleton hl ha hp]
  rfl

namespace ParseTree

variable {src : Source} {t c n : ParseTree} {calls : List Call}

/-! ## Lowered children -/

theorem lowerAll_eq_map (src : Source) (ts : List ParseTree) : lowerAll src ts = ts.map (lower src) := by
  induction ts with
  | nil => rfl
  | cons t ts ih => rw [lowerAll, ih, List.map_cons]

theorem lower_eq_of (src : Source) (t : ParseTree) :
    t.lower src = Lowered.of src t.label (t.children.map (lower src)) := by
  obtain ⟨label, children⟩ := t
  rw [lower, lowerAll_eq_map]

@[simp] theorem kind_lower (src : Source) (t : ParseTree) : (t.lower src).kind = t.kind := by
  rw [Lowered.kind, label_lower, kind]

@[simp] theorem children_lower (src : Source) (t : ParseTree) :
    (t.lower src).children = t.children.map (lower src) := by
  rw [lower_eq_of]
  rfl

/-! ## Calls that are kept -/

/-- The calls that the call nodes of a tree are lowered to are among the given ones. -/
def KeptIn (src : Source) (t : ParseTree) (calls : List Call) : Prop :=
  ∀ n ∈ t.keptCalls, n.call src ∈ calls

theorem KeptIn.mono {calls' : List Call} (h : KeptIn src t calls) (hsub : calls ⊆ calls') :
    KeptIn src t calls' :=
  fun n hn => hsub (h n hn)

/-- The calls below a node are kept when its own call is, if it is one, and those of its children are. -/
theorem keptIn_of_self_children (hself : t.kind = "call" → t.call src ∈ calls)
    (h : ∀ c ∈ t.children, holdsCalls t c = true → KeptIn src c calls) : KeptIn src t calls := by
  intro n hn
  rcases mem_callNodes.mp hn with ⟨hkind, rfl⟩ | ⟨c, hc, hskip, hn⟩
  · exact hself hkind
  · refine h c hc ?_ n hn
    have hne : c.keptCalls ≠ [] := List.ne_nil_of_mem hn
    simpa [holdsCalls, hskip] using hne

theorem keptIn_of_children (hkind : t.kind ≠ "call")
    (h : ∀ c ∈ t.children, holdsCalls t c = true → KeptIn src c calls) : KeptIn src t calls :=
  keptIn_of_self_children (fun hcall => absurd hcall hkind) h

/-! ## What the grammar says -/

namespace Fits

variable {field : String} {ps : List Place}

/-- Below a node without places no call is kept. -/
theorem keptCalls_eq_nil (ht : t.Fits) (hps : places t.kind = some []) : t.keptCalls = [] := by
  have hkind : t.kind ≠ "call" := by
    intro h
    have hcall : places "call" = some [.expr "function", .expr "arguments"] := rfl
    rw [h, hcall] at hps
    cases hps
  have hnone : KeptIn (.ofString "") t [] := by
    refine keptIn_of_children hkind fun c hc hk => ?_
    obtain ⟨p, hp, -⟩ := ht.placed c hc hk [] hps
    cases hp
  exact List.eq_nil_iff_forall_not_mem.mpr fun n hn => List.not_mem_nil (hnone n hn)

theorem keptIn_of_no_places (ht : t.Fits) (hps : places t.kind = some []) : KeptIn src t calls := by
  rw [KeptIn, ht.keptCalls_eq_nil hps]
  exact fun n hn => absurd hn List.not_mem_nil

/-- A child with calls is among the named nodes. -/
theorem mem_named (src : Source) (ht : t.Fits) (hc : c ∈ t.children) (hk : holdsCalls t c = true) :
    c.lower src ∈ Lowered.named (t.children.map (lower src)) :=
  List.mem_filter.mpr ⟨List.mem_map_of_mem hc, by simpa using (ht.shown c hc hk).1⟩

/-- The child in a place that is for one child, with a field, is the one that the field gives. -/
theorem at?_eq (src : Source) (ht : t.Fits) (hps : places t.kind = some ps) {p : Place} (hp : p ∈ ps)
    (hsingle : p.single = true) (hfield : p.field = some field) (hc : c ∈ t.children)
    (hcf : c.label.field = some field) :
    Lowered.at? field (t.children.map (lower src)) = some (c.lower src) := by
  have hcount := ht.single ps hps p hp hsingle
  have hfound : t.children.find? (fun c => p.isTakenBy c.label) = some c :=
    find?_eq_some hcount hc (by simp [Place.isTakenBy, hfield, hcf])
  have htaken : (fun c : ParseTree => p.isTakenBy c.label) =
      (fun n : Lowered => decide (n.label.field = some field)) ∘ lower src := by
    funext u
    simp [Place.isTakenBy, hfield]
  rw [Lowered.at?, List.find?_map, ← htaken, hfound, Option.map_some]

theorem at?_expr (src : Source) (ht : t.Fits) (hps : places t.kind = some ps) (hp : .expr field ∈ ps)
    (hc : c ∈ t.children) (hcf : c.label.field = some field) :
    Lowered.at? field (t.children.map (lower src)) = some (c.lower src) :=
  ht.at?_eq src hps hp rfl rfl hc hcf

theorem at?_block (src : Source) (ht : t.Fits) (hps : places t.kind = some ps) (hp : .block field ∈ ps)
    (hc : c ∈ t.children) (hcf : c.label.field = some field) :
    Lowered.at? field (t.children.map (lower src)) = some (c.lower src) :=
  ht.at?_eq src hps hp rfl rfl hc hcf

/-- The clause in a place that is for one of its kind is the only named child of that kind. -/
theorem filter_kind_eq {k : String} (ht : t.Fits) (hps : places t.kind = some ps) (hp : .clause k ∈ ps)
    (hc : c ∈ t.children) (hk : holdsCalls t c = true) (hck : c.kind = k) :
    (Lowered.named (t.children.map (lower src))).filter (·.kind = k) = [c.lower src] := by
  have hcount := ht.single ps hps _ hp rfl
  have htaken : (fun c : ParseTree => (Place.clause k).isTakenBy c.label) = fun c => decide (c.kind = k) := by
    funext u
    exact decide_eq_decide.mpr List.mem_singleton
  rw [htaken] at hcount
  have hle : (t.children.filter (·.label.named)).countP (fun c => c.kind = k) ≤ 1 :=
    Nat.le_trans (List.Sublist.countP_le List.filter_sublist) hcount
  have hmap : (Lowered.named (t.children.map (lower src))).filter (·.kind = k) =
      ((t.children.filter (·.label.named)).filter (·.kind = k)).map (lower src) := by
    rw [Lowered.named, List.filter_map, List.filter_map]
    simp only [Function.comp_def, label_lower, kind_lower]
  rw [hmap, filter_eq_singleton hle (List.mem_filter.mpr ⟨hc, (ht.shown c hc hk).1⟩)
    (decide_eq_true hck)]
  rfl

/-- The expression of a node that has just one is the first one that it finds, unless a continued line is
    in front of it. -/
theorem first?_eq (ht : t.Fits) (hsole : t.kind ∈ soleKinds) (hsevered : t.isSevered = false)
    (hc : c ∈ t.children) (hshown : c.isExpression = true) :
    Lowered.first? (t.children.map (lower src)) = some (c.lower src) := by
  have hcount := ht.sole hsole
  simp only [isExpression, Bool.and_eq_true, decide_eq_true_eq] at hshown
  have hfirst : Lowered.first? (t.children.map (lower src)) =
      ((t.children.filter (·.label.named)).find? (·.kind ≠ "comment")).map (lower src) := by
    rw [Lowered.first?, Lowered.named, List.filter_map, List.find?_map]
    simp only [Function.comp_def, label_lower, kind_lower]
  obtain ⟨d, hd⟩ := Option.isSome_iff_exists.mp (List.find?_isSome.mpr
    (⟨c, List.mem_filter.mpr ⟨hc, hshown.1.1⟩, decide_eq_true hshown.1.2⟩ :
      ∃ u ∈ t.children.filter (·.label.named), decide (u.kind ≠ "comment") = true))
  have hdmem := List.mem_filter.mp (List.mem_of_find?_eq_some hd)
  have hdkind : d.kind ≠ "line_continuation" := by
    rw [isSevered, hd] at hsevered
    simpa using hsevered
  -- both are expressions, of which there is one
  have hfound : ∀ u ∈ t.children, u.isExpression = true → t.children.find? isExpression = some u :=
    fun u hu hshown => find?_eq_some hcount hu hshown
  have hcd : some c = some d :=
    (hfound c hc (by simp [isExpression, hshown])).symm.trans (hfound d hdmem.1 (by
      have hnocomment := List.find?_some hd
      simp_all [isExpression]))
  rw [hfirst, hd, ← hcd]
  rfl

end Fits

/-! ## Readings that keep calls -/

/-- The calls of the arguments so far. -/
def argumentCalls (given : Lowered.Arguments) : List Call :=
  Expr.callsIn given.args ++ Keyword.callsIn given.keywords

/-- The expression that an interpolation is about. -/
def interpolated? (n : Lowered) : Option Expr :=
  ((Lowered.at? "expression" n.children).or (Lowered.first? n.children)).map (·.expr)

/-- The item of a `with` that a node stands for. -/
def itemOf (n : Lowered) : Expr :=
  ((Lowered.at? "value" n.children).getD n).expr

/-- The guard that a node stands for. -/
def guardOf (n : Lowered) : Expr :=
  if n.kind = "if_clause" then ((Lowered.first? n.children).getD n).expr else n.expr

/-- In all of its readings, as far as they are for nodes of its kind, a node keeps the calls that are kept
    below it. -/
structure Keeps (src : Source) (t : ParseTree) : Prop where
  fits : t.Fits
  expr : KeptIn src t (t.lower src).expr.calls
  stmt : t.kind ≠ "call" → t.kind ∉ definitionKinds → KeptIn src t ((t.lower src).stmt.elim [] Stmt.calls)
  block : t.kind = "block" ∨ t.kind = "module" → KeptIn src t (Stmt.callsIn (t.lower src).block)
  binding : t.kind = "assignment" →
    KeptIn src t (Expr.callsIn? (t.lower src).binding.2 ++ Expr.callsIn (t.lower src).binding.1)
  update : t.kind = "augmented_assignment" →
    KeptIn src t (Expr.callsIn? ((Lowered.at? "right" (t.lower src).children).map (·.expr)) ++
      (Lowered.exprAt "left" (t.lower src).children).calls)
  argument : (t.kind = "dictionary_splat" → t.isSevered = false) →
    ∀ given, KeptIn src t (argumentCalls (Lowered.Arguments.add src given (t.lower src)))
  arguments : t.kind = "argument_list" → KeptIn src t (argumentCalls
    ((Lowered.named (t.lower src).children).foldl (Lowered.Arguments.add src) ⟨[], []⟩))
  interpolation : t.kind = "interpolation" → KeptIn src t (Expr.callsIn? (interpolated? (t.lower src)))
  alternative : t.kind = "elif_clause" ∨ t.kind = "else_clause" →
    ∀ orelse, KeptIn src t (Stmt.callsIn (Lowered.alternative src (t.lower src) orelse))
  item : t.kind = "with_item" → KeptIn src t (itemOf (t.lower src)).calls
  items : t.kind = "with_clause" →
    KeptIn src t (Expr.callsIn ((Lowered.named (t.lower src).children).map itemOf))
  handler : t.kind = "except_clause" ∨ t.kind = "except_group_clause" →
    KeptIn src t (Lowered.handlerOf src (t.lower src)).calls
  finals : t.kind = "finally_clause" →
    KeptIn src t (((Lowered.named (t.lower src).children).find? (·.kind = "block")).elim []
      (Stmt.callsIn ·.block))
  guard : (t.kind = "if_clause" → t.isSevered = false) → KeptIn src t (guardOf (t.lower src)).calls
  arm : t.kind = "case_clause" → KeptIn src t (Lowered.caseOf src (t.lower src)).calls
  arms : t.kind = "block" → (∀ c ∈ t.children, holdsCalls t c = true → c.kind = "case_clause") →
    KeptIn src t (MatchCase.callsIn (((Lowered.named (t.lower src).children).filter
      (·.kind = "case_clause")).map (Lowered.caseOf src)))

/-! ## Places -/

/-- The calls of the children in a place are kept. -/
def KeptAt (src : Source) (t : ParseTree) (calls : List Call) (p : Place) : Prop :=
  ∀ c ∈ t.children, holdsCalls t c = true → p.Admits c.label → KeptIn src c calls

theorem KeptAt.mono {calls' : List Call} {p : Place} (h : KeptAt src t calls p) (hsub : calls ⊆ calls') :
    KeptAt src t calls' p :=
  fun c hc hk hadmits => (h c hc hk hadmits).mono hsub

/-- The calls below a node are kept when its own call is, if it is one, and those in each of its places
    are. -/
theorem keptIn_of_self_places {ps : List Place} (ht : t.Fits) (hself : t.kind = "call" → t.call src ∈ calls)
    (hps : places t.kind = some ps) (h : ps.Forall (KeptAt src t calls)) : KeptIn src t calls := by
  refine keptIn_of_self_children hself fun c hc hk => ?_
  obtain ⟨p, hp, hadmits⟩ := ht.placed c hc hk ps hps
  exact List.forall_iff_forall_mem.mp h p hp c hc hk hadmits

theorem keptIn_of_places {ps : List Place} (ht : t.Fits) (hkind : t.kind ≠ "call")
    (hps : places t.kind = some ps) (h : ps.Forall (KeptAt src t calls)) : KeptIn src t calls :=
  keptIn_of_self_places ht (fun hcall => absurd hcall hkind) hps h

section Rules

variable (ht : t.Fits) (ih : ∀ c ∈ t.children, Keeps src c)

include ht ih

/-! ## One field at a time -/

section Fields

variable {field : String} {ps : List Place} (hps : places t.kind = some ps)

include hps

theorem keptAt_expr (hp : .expr field ∈ ps)
    (hsub : (Lowered.exprAt field (t.children.map (lower src))).calls ⊆ calls) :
    KeptAt src t calls (.expr field) := by
  intro c hc _ hadmits
  rw [Lowered.exprAt, ht.at?_expr src hps hp hc (Place.admits_expr.mp hadmits)] at hsub
  exact (ih c hc).expr.mono hsub

theorem keptAt_expr? (hp : .expr field ∈ ps)
    (hsub : Expr.callsIn? ((Lowered.at? field (t.children.map (lower src))).map (·.expr)) ⊆ calls) :
    KeptAt src t calls (.expr field) := by
  intro c hc _ hadmits
  rw [ht.at?_expr src hps hp hc (Place.admits_expr.mp hadmits)] at hsub
  exact (ih c hc).expr.mono hsub

theorem keptAt_block (hp : .block field ∈ ps)
    (hsub : Stmt.callsIn (Lowered.blockAt field (t.children.map (lower src))) ⊆ calls) :
    KeptAt src t calls (.block field) := by
  intro c hc _ hadmits
  obtain ⟨hf, hblock⟩ := Place.admits_block.mp hadmits
  rw [Lowered.blockAt, ht.at?_block src hps hp hc hf] at hsub
  exact ((ih c hc).block (.inl hblock)).mono hsub

end Fields

/-! ## Expressions -/

/-- Where all children are read, no call is lost. -/
theorem keptIn_exprs (hkind : t.kind ≠ "call") :
    KeptIn src t (Expr.callsIn (Lowered.exprs (t.children.map (lower src)))) := by
  refine keptIn_of_children hkind fun c hc hk => ?_
  have hcomment := (ht.shown c hc hk).2
  refine (ih c hc).expr.mono (Expr.calls_subset_callsIn (List.mem_map_of_mem (List.mem_filter.mpr ?_)))
  exact ⟨ht.mem_named src hc hk, by simpa using hcomment⟩

theorem keptIn_attribute (hkind : t.kind = "attribute") :
    KeptIn src t (Lowered.exprAt "object" (t.children.map (lower src))).calls := by
  have hps : places t.kind = some [.expr "object"] := by rw [hkind]; rfl
  refine keptIn_of_places ht (by rw [hkind]; decide) hps ?_
  exact keptAt_expr ht ih hps (by simp) (List.Subset.refl _)

theorem keptIn_binary (hkind : t.kind = "binary_operator") :
    KeptIn src t ((Lowered.exprAt "left" (t.children.map (lower src))).calls ++
      (Lowered.exprAt "right" (t.children.map (lower src))).calls) := by
  have hps : places t.kind = some [.expr "left", .expr "right"] := by rw [hkind]; rfl
  refine keptIn_of_places ht (by rw [hkind]; decide) hps ?_
  exact ⟨keptAt_expr ht ih hps (by simp) (List.subset_append_left _ _),
    keptAt_expr ht ih hps (by simp) (List.subset_append_right _ _)⟩

/-- The child with calls of a node that has one expression is the first one that it finds. -/
theorem first?_of_holdsCalls (hsole : t.kind ∈ soleKinds) (hsevered : t.isSevered = false)
    (hc : c ∈ t.children) (hk : holdsCalls t c = true) :
    Lowered.first? (t.children.map (lower src)) = some (c.lower src) := by
  obtain ⟨hnamed, hcomment⟩ := ht.shown c hc hk
  have hcontinued : c.kind ≠ "line_continuation" := by
    intro hkind
    have hnil : c.keptCalls = [] := (ih c hc).fits.keptCalls_eq_nil (by rw [hkind]; rfl)
    simp [holdsCalls, hnil] at hk
  exact ht.first?_eq hsole hsevered hc (by simp [isExpression, hnamed, hcomment, hcontinued])

theorem keptIn_parenthesized (hkind : t.kind = "parenthesized_expression") :
    KeptIn src t (match Lowered.first? (t.children.map (lower src)) with
      | some inner => inner.expr
      | none => Expr.other "tuple" []).calls := by
  refine keptIn_of_children (by rw [hkind]; decide) fun c hc hk => ?_
  rw [first?_of_holdsCalls ht ih (by rw [hkind]; decide) (isSevered_of_holdsCalls hk (.inr hkind)) hc hk]
  exact (ih c hc).expr

/-! ## Calls -/

omit ht ih in
/-- Adding an argument adds calls. -/
theorem argumentCalls_add (given : Lowered.Arguments) (n : Lowered) :
    argumentCalls given ⊆ argumentCalls (given.add src n) := by
  unfold Lowered.Arguments.add
  split
  · exact List.Subset.refl _
  split
  · split
    · simp [argumentCalls, Keyword.callsIn_append, List.subset_def]
      tauto
    · exact List.Subset.refl _
  split
  · split
    · simp [argumentCalls, Keyword.callsIn_append, List.subset_def]
      tauto
    · exact List.Subset.refl _
  · simp [argumentCalls, Expr.callsIn_append, List.subset_def]
    tauto

omit ih in
theorem exists_keyword_name (src : Source) (hkind : t.kind = "keyword_argument") :
    ∃ name, Lowered.at? "name" (t.children.map (lower src)) = some name := by
  obtain ⟨c, hc, hf⟩ := ht.keyword hkind
  exact Option.isSome_iff_exists.mp (List.find?_isSome.mpr
    ⟨c.lower src, List.mem_map_of_mem hc, by simpa using hf⟩)

/-- One argument of a call. -/
theorem keptIn_argument (hexpr : KeptIn src t (t.lower src).expr.calls)
    (hsevered : t.kind = "dictionary_splat" → t.isSevered = false) (given : Lowered.Arguments) :
    KeptIn src t (argumentCalls (given.add src (t.lower src))) := by
  by_cases hcomment : t.kind = "comment"
  · exact ht.keptIn_of_no_places (by rw [hcomment]; rfl)
  by_cases hkeyword : t.kind = "keyword_argument"
  · have hps : places t.kind = some [.expr "value"] := by rw [hkeyword]; rfl
    obtain ⟨name, hname⟩ := exists_keyword_name ht src hkeyword
    refine keptIn_of_places ht (by rw [hkeyword]; decide) hps ?_
    intro c hc _ hadmits
    have hvalue := ht.at?_expr src hps (by simp) hc (Place.admits_expr.mp hadmits)
    have hadd : given.add src (t.lower src) = { given with
        keywords := given.keywords ++ [⟨some (Lowered.text src name.label), (c.lower src).expr⟩] } := by
      rw [Lowered.Arguments.add, kind_lower, if_neg hcomment, if_pos hkeyword, children_lower, hname, hvalue]
    rw [hadd, argumentCalls, Keyword.callsIn_append, Keyword.callsIn_singleton]
    exact (ih c hc).expr.mono fun _ h => by simp [h]
  by_cases hsplat : t.kind = "dictionary_splat"
  · refine keptIn_of_children (by rw [hsplat]; decide) fun c hc hk => ?_
    have hfirst := first?_of_holdsCalls ht ih (by rw [hsplat]; decide) (hsevered hsplat) hc hk
    have hadd : given.add src (t.lower src) =
        { given with keywords := given.keywords ++ [⟨none, (c.lower src).expr⟩] } := by
      rw [Lowered.Arguments.add, kind_lower, if_neg hcomment, if_neg hkeyword, if_pos hsplat, children_lower,
        hfirst]
    rw [hadd, argumentCalls, Keyword.callsIn_append, Keyword.callsIn_singleton]
    exact (ih c hc).expr.mono fun _ h => by simp [h]
  · have hadd : given.add src (t.lower src) =
        { given with args := given.args ++ [(t.lower src).expr] } := by
      rw [Lowered.Arguments.add, kind_lower, if_neg hcomment, if_neg hkeyword, if_neg hsplat]
    rw [hadd, argumentCalls, Expr.callsIn_append, Expr.callsIn_singleton]
    exact hexpr.mono fun _ h => by simp [h]

theorem keptIn_arguments (hkind : t.kind = "argument_list") :
    KeptIn src t (argumentCalls ((Lowered.named (t.children.map (lower src))).foldl
      (Lowered.Arguments.add src) ⟨[], []⟩)) := by
  refine keptIn_of_children (by rw [hkind]; decide) fun c hc hk n hn => ?_
  have hsevered := fun hsplat => isSevered_child_of_holdsCalls hk (.inl ⟨hkind, hsplat⟩)
  exact foldl_of_mem (ht.mem_named src hc hk) (q := fun given => n.call src ∈ argumentCalls given)
    (fun given m h => argumentCalls_add given m h) (fun given => (ih c hc).argument hsevered given n hn) _

theorem keptAt_arguments (hkind : t.kind = "call") :
    KeptAt src t (argumentCalls (Lowered.argumentsOf src (t.children.map (lower src))))
      (.expr "arguments") := by
  have hps : places t.kind = some [.expr "function", .expr "arguments"] := by rw [hkind]; rfl
  intro c hc _ hadmits
  rw [Lowered.argumentsOf, ht.at?_expr src hps (by simp) hc (Place.admits_expr.mp hadmits)]
  show KeptIn src c (argumentCalls (if (c.lower src).kind = "argument_list" then _ else _))
  split
  · next hlist => exact (ih c hc).arguments (by rwa [kind_lower] at hlist)
  · rw [argumentCalls, Expr.callsIn_singleton]
    exact (ih c hc).expr.mono (List.subset_append_left _ _)

theorem keptIn_call (hkind : t.kind = "call") :
    KeptIn src t (Expr.call (Lowered.callOf src t.label (t.children.map (lower src)))).calls := by
  have hps : places t.kind = some [.expr "function", .expr "arguments"] := by rw [hkind]; rfl
  have hcalls : (Expr.call (Lowered.callOf src t.label (t.children.map (lower src)))).calls =
      Lowered.callOf src t.label (t.children.map (lower src)) ::
        ((Lowered.exprAt "function" (t.children.map (lower src))).calls ++
          argumentCalls (Lowered.argumentsOf src (t.children.map (lower src)))) := rfl
  rw [hcalls]
  refine keptIn_of_self_places ht (fun _ => ?_) hps ?_
  · rw [call, lowerAll_eq_map]
    exact List.mem_cons_self
  refine ⟨keptAt_expr ht ih hps (by simp) fun _ h => by simp [h], ?_⟩
  exact (keptAt_arguments ht ih hkind).mono fun _ h => by simp [h]

/-! ## Strings -/

theorem keptIn_interpolation (hkind : t.kind = "interpolation") :
    KeptIn src t (Expr.callsIn? (interpolated? (t.lower src))) := by
  have hps : places t.kind = some [.expr "expression"] := by rw [hkind]; rfl
  refine keptIn_of_places ht (by rw [hkind]; decide) hps ?_
  intro c hc _ hadmits
  rw [interpolated?, children_lower, ht.at?_expr src hps (by simp) hc (Place.admits_expr.mp hadmits)]
  exact (ih c hc).expr

omit ht ih in
theorem callsIn_flush (p : Lowered.StringParts) : Expr.callsIn p.parts ⊆ Expr.callsIn p.flush := by
  rw [Lowered.StringParts.flush]
  split
  · exact List.Subset.refl _
  · rw [Expr.callsIn_append]
    exact List.subset_append_left _ _

omit ht ih in
/-- Finished parts stay, and so does the interpolation. -/
theorem stringParts_add {isRaw : Bool} {p : Lowered.StringParts} {m : Lowered} {c : Call}
    (hmem : c ∈ Expr.callsIn p.parts) (hp : p.interpolated = true) :
    c ∈ Expr.callsIn (p.add src isRaw m).parts ∧ (p.add src isRaw m).interpolated = true := by
  unfold Lowered.StringParts.add
  split
  · exact ⟨hmem, hp⟩
  split
  · refine ⟨?_, rfl⟩
    rw [Expr.callsIn_append]
    exact List.mem_append_left _ (callsIn_flush p hmem)
  · exact ⟨hmem, hp⟩

theorem keptIn_string (hkind : t.kind = "string") :
    KeptIn src t (Lowered.stringOf src (t.children.map (lower src))).calls := by
  have hps : places t.kind = some [.clauses ["interpolation"]] := by rw [hkind]; rfl
  refine keptIn_of_places ht (by rw [hkind]; decide) hps ?_
  intro c hc hk hadmits n hn
  have hinterpolation : c.kind = "interpolation" := by simpa [kind] using hadmits
  have hvalue := (ih c hc).interpolation hinterpolation n hn
  -- an interpolation puts its calls into the finished parts, and there they stay
  have hparts : ∀ (isRaw : Bool) (p : Lowered.StringParts),
      let p' := (Lowered.named (t.children.map (lower src))).foldl (Lowered.StringParts.add src isRaw) p
      n.call src ∈ Expr.callsIn p'.parts ∧ p'.interpolated = true := by
    intro isRaw
    refine foldl_of_mem (ht.mem_named src hc hk)
      (q := fun p : Lowered.StringParts => n.call src ∈ Expr.callsIn p.parts ∧ p.interpolated = true) ?_ ?_
    · rintro p m ⟨hmem, hp⟩
      exact stringParts_add hmem hp
    · intro p
      rw [Lowered.StringParts.add, kind_lower, if_neg (by rw [hinterpolation]; decide), if_pos hinterpolation]
      refine ⟨?_, rfl⟩
      rw [Expr.callsIn_append]
      refine List.mem_append_right _ ?_
      rw [interpolated?] at hvalue
      revert hvalue
      cases (Lowered.at? "expression" (c.lower src).children).or
        (Lowered.first? (c.lower src).children) with
      | none => exact id
      | some inner => simp [Expr.callsIn?, Expr.callsIn, Expr.calls]
  have hclosed : ∀ p : Lowered.StringParts, n.call src ∈ Expr.callsIn p.parts ∧ p.interpolated = true →
      n.call src ∈ (if p.interpolated then Expr.joined p.flush else .str (String.ofList p.text)).calls := by
    rintro p ⟨hmem, hp⟩
    rw [if_pos hp]
    exact callsIn_flush p hmem
  exact hclosed _ (hparts _ _)

omit ht ih in
/-- Plain strings have no calls. -/
theorem not_mem_callsIn_of_plainText? {es : List Expr} {text : List Char}
    (h : Lowered.plainText? es = some text) (c : Call) : c ∉ Expr.callsIn es := by
  induction es generalizing text with
  | nil => exact List.not_mem_nil
  | cons e es ih =>
    cases e with
    | str value =>
      obtain ⟨rest, hrest, -⟩ := Option.map_eq_some_iff.mp h
      exact ih hrest
    | _ => cases h

/-- The parts of a literal that stands next to others. -/
def literalParts (m : Lowered) : List Expr :=
  match m.expr with
  | .joined inner => inner
  | e => [e]

omit ht ih in
theorem callsIn_literalParts (m : Lowered) : Expr.callsIn (literalParts m) = m.expr.calls := by
  rw [literalParts]
  split
  · next inner hexpr =>
    rw [hexpr]
    rfl
  · exact Expr.callsIn_singleton _

/-- Adjacent literals have the calls of each of them. -/
theorem keptIn_concatenated (hkind : t.kind = "concatenated_string") :
    KeptIn src t (Lowered.concatenatedOf (t.children.map (lower src))).calls := by
  refine keptIn_of_children (by rw [hkind]; decide) fun c hc hk n hn => ?_
  have hparts : n.call src ∈
      Expr.callsIn ((Lowered.named (t.children.map (lower src))).flatMap literalParts) := by
    rw [Expr.callsIn_eq_flatMap, List.flatMap_assoc]
    refine List.mem_flatMap.mpr ⟨c.lower src, ht.mem_named src hc hk, ?_⟩
    rw [← Expr.callsIn_eq_flatMap, callsIn_literalParts]
    exact (ih c hc).expr n hn
  rw [Lowered.concatenatedOf]
  split
  · next text htext => exact absurd hparts (not_mem_callsIn_of_plainText? htext _)
  · exact hparts

theorem keptIn_exprOf : KeptIn src t (t.lower src).expr.calls := by
  rw [lower_eq_of]
  show KeptIn src t (Lowered.exprOf src t.label (t.children.map (lower src))).calls
  rw [Lowered.exprOf]
  -- one case for each rule, in the order of the rules
  split
  · next h => exact ht.keptIn_of_no_places (by rw [kind, h]; rfl)
  split
  · next h => exact keptIn_attribute ht ih h
  split
  · next h => exact keptIn_call ht ih h
  split
  · next h => exact keptIn_string ht ih h
  split
  · next h => exact keptIn_concatenated ht ih h
  split
  · next h =>
    simp only [Lowered.constantKinds, List.mem_cons, List.not_mem_nil, or_false] at h
    refine ht.keptIn_of_no_places ?_
    rcases h with h | h | h | h | h | h <;> (rw [kind, h]; rfl)
  split
  · next h => exact keptIn_binary ht ih h
  split
  · next h => exact keptIn_parenthesized ht ih h
  · next hcall _ _ _ _ _ => exact keptIn_exprs ht ih hcall

/-! ## Assignments -/

omit ht ih in
/-- The target of an assignment is among its targets, also at the head of a chain. -/
theorem callsIn_target {children : List Lowered} {target : Lowered}
    (h : Lowered.at? "left" children = some target) :
    target.expr.calls ⊆ Expr.callsIn (Lowered.bindingOf children).1 := by
  simp only [Lowered.bindingOf, h, Option.map_some, Option.toList_some]
  split
  · rw [Expr.callsIn_singleton]
    exact List.Subset.refl _
  split
  · rw [Expr.callsIn_append, Expr.callsIn_singleton]
    exact List.subset_append_left _ _
  · rw [Expr.callsIn_singleton]
    exact List.Subset.refl _

theorem keptIn_binding (hkind : t.kind = "assignment") :
    KeptIn src t (Expr.callsIn? (t.lower src).binding.2 ++ Expr.callsIn (t.lower src).binding.1) := by
  have hps : places t.kind = some [.expr "left", .expr "right"] := by rw [hkind]; rfl
  rw [lower_eq_of]
  show KeptIn src t (Expr.callsIn? (Lowered.bindingOf (t.children.map (lower src))).2 ++
    Expr.callsIn (Lowered.bindingOf (t.children.map (lower src))).1)
  refine keptIn_of_places ht (by rw [hkind]; decide) hps ?_
  refine ⟨fun c hc _ hadmits => ?_, fun c hc _ hadmits => ?_⟩
  · have hleft := ht.at?_expr src hps (by simp) hc (Place.admits_expr.mp hadmits)
    exact (ih c hc).expr.mono fun _ h => List.mem_append_right _ (callsIn_target hleft h)
  · have hright := ht.at?_expr src hps (by simp) hc (Place.admits_expr.mp hadmits)
    simp only [Lowered.bindingOf, hright, kind_lower]
    split
    -- the targets of the rest of a chain come after the one of this assignment
    · next hchain =>
      rw [Expr.callsIn_append]
      refine ((ih c hc).binding hchain).mono fun x hx => ?_
      rcases List.mem_append.mp hx with hx | hx <;> simp [hx]
    · exact (ih c hc).expr.mono fun _ h => by simp [Expr.callsIn?, h]

theorem keptIn_update (hkind : t.kind = "augmented_assignment") :
    KeptIn src t (Expr.callsIn? ((Lowered.at? "right" (t.lower src).children).map (·.expr)) ++
      (Lowered.exprAt "left" (t.lower src).children).calls) := by
  have hps : places t.kind = some [.expr "left", .expr "right"] := by rw [hkind]; rfl
  rw [children_lower]
  refine keptIn_of_places ht (by rw [hkind]; decide) hps ?_
  exact ⟨keptAt_expr ht ih hps (by simp) (List.subset_append_right _ _),
    keptAt_expr? ht ih hps (by simp) (List.subset_append_left _ _)⟩

end Rules

end ParseTree

end ServiceTrace
