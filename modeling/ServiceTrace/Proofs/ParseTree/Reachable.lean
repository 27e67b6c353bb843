import ServiceTrace.Proofs.ParseTree.Kept

/-!
# `ServiceTrace.Proofs.ParseTree.Reachable` — calls stay reachable

The rules for statements keep the calls below a node when its children do, like those for expressions. By
induction on the tree, every node keeps them (`ParseTree.keeps_of_grammatical`), so a body has the call of
each call node that is read (`ParseTree.call_mem_callsIn_body`). A call in a format specifier is not among
them (`ParseTree.call_lost_in_format_specifier`).
-/

namespace ServiceTrace

namespace ParseTree

variable {src : Source} {t c n : ParseTree} {calls : List Call}

section Rules

variable (ht : t.Fits) (ih : ∀ c ∈ t.children, Keeps src c)

include ht ih

theorem keptIn_expressionStatement (hkind : t.kind = "expression_statement") :
    KeptIn src t
      (Lowered.expressionStatementOf src t.label (t.children.map (lower src))).calls := by
  refine keptIn_of_children (by rw [hkind]; decide) fun c hc hk => ?_
  have hmem := ht.mem_named src hc hk
  rw [Lowered.expressionStatementOf]
  split
  · next n hn =>
    rw [hn, List.mem_singleton] at hmem
    subst hmem
    simp only [kind_lower]
    split
    · next hassign => exact (ih c hc).binding hassign
    split
    · next hupdate =>
      refine ((ih c hc).update hupdate).mono ?_
      simp only [Stmt.calls, Expr.callsIn_singleton]
      exact List.Subset.refl _
    · exact (ih c hc).expr
  · exact (ih c hc).expr.mono (Expr.calls_subset_callsIn (List.mem_map_of_mem hmem))

/-! ## Conditions and loops -/

theorem keptIn_alternative (hkind : t.kind = "elif_clause" ∨ t.kind = "else_clause")
    (orelse : List Stmt) :
    KeptIn src t (Stmt.callsIn (Lowered.alternative src (t.lower src) orelse)) := by
  rcases hkind with hkind | hkind
  · have hps : places t.kind = some [.expr "condition", .block "consequence"] := by rw [hkind]; rfl
    simp only [Lowered.alternative, kind_lower, hkind, children_lower]
    show KeptIn src t (Stmt.callsIn [.cond _ _ _ _])
    simp only [Stmt.callsIn, Stmt.calls]
    refine keptIn_of_places ht (by rw [hkind]; decide) hps ⟨?_, ?_⟩
    · exact keptAt_expr ht ih hps (by simp) fun _ h => by simp [h]
    · exact keptAt_block ht ih hps (by simp) fun _ h => by simp [h]
  · have hps : places t.kind = some [.block "body"] := by rw [hkind]; rfl
    simp only [Lowered.alternative, kind_lower, hkind, children_lower, if_true]
    refine keptIn_of_places ht (by rw [hkind]; decide) hps ?_
    exact keptAt_block ht ih hps (by simp) (List.Subset.refl _)

omit ht in
/-- The clauses of an `if`: each keeps its calls when no `else` comes before another clause. -/
theorem keptIn_alternatives {cs : List ParseTree} (hcs : ∀ c ∈ cs, c ∈ t.children)
    (hlast : ∀ c ∈ cs.dropLast, c.kind ≠ "else_clause") (hc : c ∈ cs)
    (hkind : c.kind = "elif_clause" ∨ c.kind = "else_clause") :
    KeptIn src c (Stmt.callsIn ((cs.map (lower src)).foldr (Lowered.alternative src) [])) := by
  -- the clauses after one are in its `else`, so an `else` in front of others would drop them
  induction cs with
  | nil => cases hc
  | cons d rest ihrest =>
    rw [List.map_cons, List.foldr_cons]
    rcases List.mem_cons.mp hc with rfl | hc
    · exact (ih c (hcs c List.mem_cons_self)).alternative hkind _
    · rw [List.dropLast_cons_of_ne_nil (List.ne_nil_of_mem hc)] at hlast
      have htail := ihrest (fun u hu => hcs u (List.mem_cons_of_mem _ hu))
        (fun u hu => hlast u (List.mem_cons_of_mem _ hu)) hc
      refine htail.mono ?_
      rw [Lowered.alternative, if_neg (by rw [kind_lower]; exact hlast d List.mem_cons_self)]
      split
      · exact fun _ h => by simp [Stmt.callsIn, Stmt.calls, h]
      · exact List.Subset.refl _

theorem keptIn_cond (hkind : t.kind = "if_statement") :
    KeptIn src t (Lowered.condOf src t.label (t.children.map (lower src))).calls := by
  have hps : places t.kind = some [.expr "condition", .block "consequence",
      ⟨some "alternative", ["elif_clause", "else_clause"], false⟩] := by rw [hkind]; rfl
  simp only [Lowered.condOf, Stmt.calls]
  refine keptIn_of_places ht (by rw [hkind]; decide) hps ⟨?_, ?_, ?_⟩
  · exact keptAt_expr ht ih hps (by simp) fun _ h => by simp [h]
  · exact keptAt_block ht ih hps (by simp) fun _ h => by simp [h]
  · intro c hc _ hadmits
    have hfield : c.label.field = some "alternative" := hadmits.1 _ rfl
    have hclause : c.kind = "elif_clause" ∨ c.kind = "else_clause" := by
      simpa [kind] using hadmits.2
    have hall : Lowered.allAt "alternative" (t.children.map (lower src)) =
        (t.children.filter (·.label.field = some "alternative")).map (lower src) := by
      rw [Lowered.allAt, List.filter_map]
      simp only [Function.comp_def, label_lower]
    rw [hall]
    exact (keptIn_alternatives ih (fun u hu => (List.mem_filter.mp hu).1) (ht.else_last hkind)
      (List.mem_filter.mpr ⟨hc, decide_eq_true hfield⟩) hclause).mono fun _ h => by simp [h]

theorem keptAt_loopElse {ps : List Place} (hps : places t.kind = some ps)
    (hp : ⟨some "alternative", ["else_clause"], true⟩ ∈ ps)
    (hsub : Stmt.callsIn (Lowered.loopElse (t.children.map (lower src))) ⊆ calls) :
    KeptAt src t calls ⟨some "alternative", ["else_clause"], true⟩ := by
  intro c hc _ hadmits
  have hclause : c.kind = "else_clause" := by simpa [kind] using hadmits.2
  have helse := (ih c hc).alternative (.inr hclause) []
  rw [Lowered.alternative, kind_lower, if_pos hclause] at helse
  rw [Lowered.loopElse, ht.at?_eq src hps hp rfl rfl hc (hadmits.1 _ rfl)] at hsub
  exact helse.mono hsub

theorem keptIn_for (hkind : t.kind = "for_statement") :
    KeptIn src t (Lowered.forOf src t.label (t.children.map (lower src))).calls := by
  have hps : places t.kind = some [.expr "left", .expr "right", .block "body",
      ⟨some "alternative", ["else_clause"], true⟩] := by rw [hkind]; rfl
  simp only [Lowered.forOf, Stmt.calls]
  refine keptIn_of_places ht (by rw [hkind]; decide) hps ⟨?_, ?_, ?_, ?_⟩
  · exact keptAt_expr ht ih hps (by simp) fun _ h => by simp [h]
  · exact keptAt_expr ht ih hps (by simp) fun _ h => by simp [h]
  · exact keptAt_block ht ih hps (by simp) fun _ h => by simp [h]
  · exact keptAt_loopElse ht ih hps (by simp) fun _ h => by simp [h]

theorem keptIn_while (hkind : t.kind = "while_statement") :
    KeptIn src t (Lowered.whileOf src t.label (t.children.map (lower src))).calls := by
  have hps : places t.kind = some [.expr "condition", .block "body",
      ⟨some "alternative", ["else_clause"], true⟩] := by rw [hkind]; rfl
  simp only [Lowered.whileOf, Stmt.calls]
  refine keptIn_of_places ht (by rw [hkind]; decide) hps ⟨?_, ?_, ?_⟩
  · exact keptAt_expr ht ih hps (by simp) fun _ h => by simp [h]
  · exact keptAt_block ht ih hps (by simp) fun _ h => by simp [h]
  · exact keptAt_loopElse ht ih hps (by simp) fun _ h => by simp [h]

/-! ## `with`, `try` and `match` -/

theorem keptIn_item (hkind : t.kind = "with_item") : KeptIn src t (itemOf (t.lower src)).calls := by
  have hps : places t.kind = some [.expr "value"] := by rw [hkind]; rfl
  refine keptIn_of_places ht (by rw [hkind]; decide) hps ?_
  intro c hc _ hadmits
  rw [itemOf, children_lower, ht.at?_expr src hps (by simp) hc (Place.admits_expr.mp hadmits)]
  exact (ih c hc).expr

theorem keptIn_items (hkind : t.kind = "with_clause") :
    KeptIn src t (Expr.callsIn ((Lowered.named (t.lower src).children).map itemOf)) := by
  have hps : places t.kind = some [.clauses ["with_item"]] := by rw [hkind]; rfl
  refine keptIn_of_places ht (by rw [hkind]; decide) hps ?_
  intro c hc hk hadmits
  have hitem : c.kind = "with_item" := by simpa [kind] using hadmits
  rw [children_lower]
  exact ((ih c hc).item hitem).mono
    (Expr.calls_subset_callsIn (List.mem_map_of_mem (ht.mem_named src hc hk)))

theorem keptIn_with (hkind : t.kind = "with_statement") :
    KeptIn src t (Lowered.withOf src t.label (t.children.map (lower src))).calls := by
  have hps : places t.kind = some [.clauses ["with_clause"], .block "body"] := by rw [hkind]; rfl
  simp only [Lowered.withOf, Stmt.calls]
  refine keptIn_of_places ht (by rw [hkind]; decide) hps ⟨?_, ?_⟩
  · intro c hc hk hadmits
    have hclause : c.kind = "with_clause" := by simpa [kind] using hadmits
    have hmem : c.lower src ∈ (Lowered.named (t.children.map (lower src))).filter
        (·.kind = "with_clause") :=
      List.mem_filter.mpr ⟨ht.mem_named src hc hk, by simpa using hclause⟩
    refine ((ih c hc).items hclause).mono fun x hx => List.mem_append_left _ ?_
    rw [Expr.callsIn_eq_flatMap, List.flatMap_assoc]
    refine List.mem_flatMap.mpr ⟨c.lower src, hmem, ?_⟩
    rwa [Expr.callsIn_eq_flatMap] at hx
  · exact keptAt_block ht ih hps (by simp) fun _ h => by simp [h]

theorem keptIn_handler (hkind : t.kind = "except_clause" ∨ t.kind = "except_group_clause") :
    KeptIn src t (Lowered.handlerOf src (t.lower src)).calls := by
  refine keptIn_of_children (by rcases hkind with h | h <;> (rw [h]; decide)) fun c hc hk => ?_
  have hcomment := (ht.shown c hc hk).2
  have hmem := ht.mem_named src hc hk
  simp only [Lowered.handlerOf, Handler.calls, children_lower]
  by_cases hblock : c.kind = "block"
  · have hone : (Lowered.named (t.children.map (lower src))).countP (·.kind = "block") ≤ 1 := by
      have hcount := ht.one_block hkind
      rw [Lowered.named, List.countP_filter, List.countP_map]
      simpa [Function.comp_def, Bool.and_comm] using hcount
    rw [filter_eq_singleton hone hmem (by simpa using hblock)]
    exact ((ih c hc).block (.inl hblock)).mono fun _ h => by simpa using .inr h
  · refine (ih c hc).expr.mono fun x hx => List.mem_append_left _ ?_
    refine Expr.calls_subset_callsIn (List.mem_map_of_mem (List.mem_filter.mpr ⟨hmem, ?_⟩)) hx
    simp [hblock, hcomment]

theorem keptIn_finals (hkind : t.kind = "finally_clause") :
    KeptIn src t (((Lowered.named (t.lower src).children).find? (·.kind = "block")).elim []
      (Stmt.callsIn ·.block)) := by
  have hps : places t.kind = some [.clause "block"] := by rw [hkind]; rfl
  refine keptIn_of_places ht (by rw [hkind]; decide) hps ?_
  intro c hc hk hadmits
  have hblock := Place.admits_clause.mp hadmits
  rw [children_lower, ← List.head?_filter, ht.filter_kind_eq hps (by simp) hc hk hblock]
  exact (ih c hc).block (.inl hblock)

omit ht ih in
/-- Of one `finally` clause, its block counts. -/
theorem filterMap_finals {nodes : List Lowered} {n : Lowered}
    (h : nodes.filter (·.kind = "finally_clause") = [n]) :
    (nodes.filterMap fun n =>
      if n.kind = "finally_clause" then (Lowered.named n.children).find? (·.kind = "block") else none) =
      ((Lowered.named n.children).find? (·.kind = "block")).toList := by
  have hfilter : (nodes.filterMap fun n =>
      if n.kind = "finally_clause" then (Lowered.named n.children).find? (·.kind = "block") else none) =
      (nodes.filter (·.kind = "finally_clause")).filterMap fun n =>
        (Lowered.named n.children).find? (·.kind = "block") := by
    rw [List.filterMap_filter]
    simp only [decide_eq_true_eq]
  rw [hfilter, h, List.filterMap_cons]
  cases (Lowered.named n.children).find? (·.kind = "block") <;> rfl

theorem keptIn_try (hkind : t.kind = "try_statement") :
    KeptIn src t (Lowered.tryOf src t.label (t.children.map (lower src))).calls := by
  have hps : places t.kind = some [.block "body", .clauses ["except_clause", "except_group_clause"],
      .clause "else_clause", .clause "finally_clause"] := by rw [hkind]; rfl
  simp only [Lowered.tryOf, Stmt.calls]
  refine keptIn_of_places ht (by rw [hkind]; decide) hps ⟨?_, ?_, ?_, ?_⟩
  · exact keptAt_block ht ih hps (by simp) fun _ h => by simp [h]
  · intro c hc hk hadmits
    have hclause : c.kind = "except_clause" ∨ c.kind = "except_group_clause" := by
      simpa [kind] using hadmits
    refine ((ih c hc).handler hclause).mono fun x hx =>
      List.mem_append_right _ (List.mem_append_left _ ?_)
    rw [Handler.callsIn_eq_flatMap]
    refine List.mem_flatMap.mpr ⟨_, List.mem_map_of_mem (List.mem_filter.mpr
      ⟨ht.mem_named src hc hk, ?_⟩), hx⟩
    simpa using hclause
  · intro c hc hk hadmits
    have helse : c.kind = "else_clause" := Place.admits_clause.mp hadmits
    have hclause := (ih c hc).alternative (.inr helse) []
    rw [Lowered.alternative, kind_lower, if_pos helse, children_lower] at hclause
    rw [ht.filter_kind_eq hps (by simp) hc hk helse]
    exact hclause.mono fun _ h => by simp [h]
  · intro c hc hk hadmits
    have hfinally := Place.admits_clause.mp hadmits
    rw [filterMap_finals (ht.filter_kind_eq hps (by simp) hc hk hfinally)]
    refine ((ih c hc).finals hfinally).mono fun x hx => ?_
    -- without a block there would be no call to keep
    cases hblock : (Lowered.named (c.lower src).children).find? (·.kind = "block") with
    | none =>
      rw [hblock] at hx
      cases hx
    | some block =>
      rw [hblock] at hx
      simpa using .inr (.inr (.inr hx))

theorem keptIn_guard (hexpr : KeptIn src t (t.lower src).expr.calls)
    (hsevered : t.kind = "if_clause" → t.isSevered = false) :
    KeptIn src t (guardOf (t.lower src)).calls := by
  rw [guardOf, kind_lower]
  split
  · next hclause =>
    refine keptIn_of_children (by rw [hclause]; decide) fun c hc hk => ?_
    rw [children_lower, first?_of_holdsCalls ht ih (by rw [hclause]; decide) (hsevered hclause) hc hk]
    exact (ih c hc).expr
  · exact hexpr

theorem keptIn_arm (hkind : t.kind = "case_clause") :
    KeptIn src t (Lowered.caseOf src (t.lower src)).calls := by
  have hps : places t.kind = some [.expr "guard", .block "consequence"] := by rw [hkind]; rfl
  simp only [Lowered.caseOf, MatchCase.calls, children_lower]
  refine keptIn_of_places ht (by rw [hkind]; decide) hps ⟨?_, ?_⟩
  · intro c hc hk hadmits
    have hguard := (ih c hc).guard fun h => isSevered_child_of_holdsCalls hk (.inr ⟨hkind, h⟩)
    rw [ht.at?_expr src hps (by simp) hc (Place.admits_expr.mp hadmits)]
    exact hguard.mono (List.subset_append_left _ _)
  · exact keptAt_block ht ih hps (by simp) fun _ h => by simp [h]

theorem keptIn_arms (hkind : t.kind = "block")
    (hcases : ∀ c ∈ t.children, holdsCalls t c = true → c.kind = "case_clause") :
    KeptIn src t (MatchCase.callsIn (((Lowered.named (t.lower src).children).filter
      (·.kind = "case_clause")).map (Lowered.caseOf src))) := by
  refine keptIn_of_children (by rw [hkind]; decide) fun c hc hk => ?_
  have hclause := hcases c hc hk
  refine ((ih c hc).arm hclause).mono fun x hx => ?_
  rw [MatchCase.callsIn_eq_flatMap, children_lower]
  exact List.mem_flatMap.mpr ⟨_, List.mem_map_of_mem (List.mem_filter.mpr
    ⟨ht.mem_named src hc hk, by simpa using hclause⟩), hx⟩

theorem keptIn_match (hkind : t.kind = "match_statement") :
    KeptIn src t (Lowered.matchOf src t.label (t.children.map (lower src))).calls := by
  have hps : places t.kind = some [⟨some "subject", [], false⟩, .block "body"] := by rw [hkind]; rfl
  simp only [Lowered.matchOf, Stmt.calls]
  refine keptIn_of_places ht (by rw [hkind]; decide) hps ⟨?_, ?_⟩
  · intro c hc _ hadmits
    have hfield : c.label.field = some "subject" := hadmits.1 _ rfl
    refine (ih c hc).expr.mono fun x hx => List.mem_append_left _ ?_
    refine Expr.calls_subset_callsIn (List.mem_map_of_mem (List.mem_filter.mpr
      ⟨List.mem_map_of_mem hc, ?_⟩)) hx
    simpa using hfield
  · intro c hc _ hadmits
    obtain ⟨hf, hblock⟩ := Place.admits_block.mp hadmits
    rw [ht.at?_block src hps (by simp) hc hf]
    exact ((ih c hc).arms hblock (ht.cases hkind c hc hf)).mono (List.subset_append_right _ _)

/-! ## Statements -/

theorem keptIn_return (hkind : t.kind = "return_statement") :
    KeptIn src t (Expr.callsIn? ((Lowered.first? (t.children.map (lower src))).map (·.expr))) := by
  refine keptIn_of_children (by rw [hkind]; decide) fun c hc hk => ?_
  rw [first?_of_holdsCalls ht ih (by rw [hkind]; decide) (isSevered_of_holdsCalls hk (.inl hkind)) hc hk]
  exact (ih c hc).expr

theorem keptIn_stmtOf (hkind : t.kind ≠ "call") (hapart : t.kind ∉ definitionKinds) :
    KeptIn src t ((t.lower src).stmt.elim [] Stmt.calls) := by
  -- statements without a rule of their own keep all of their children as expressions
  have hexprs := keptIn_exprs ht ih hkind
  rw [lower_eq_of]
  show KeptIn src t ((Lowered.stmtOf src t.label (t.children.map (lower src))).elim [] Stmt.calls)
  rw [Lowered.stmtOf]
  split
  · next h => exact ht.keptIn_of_no_places (by rw [kind, h]; rfl)
  · next h => exact keptIn_expressionStatement ht ih h
  · next h => exact keptIn_cond ht ih h
  · next h => exact keptIn_for ht ih h
  · next h => exact keptIn_while ht ih h
  · next h => exact keptIn_with ht ih h
  · next h => exact keptIn_try ht ih h
  · next h => exact keptIn_match ht ih h
  · next h => exact absurd (show t.kind ∈ definitionKinds by rw [kind, h]; decide) hapart
  · next h => exact absurd (show t.kind ∈ definitionKinds by rw [kind, h]; decide) hapart
  · next h => exact absurd (show t.kind ∈ definitionKinds by rw [kind, h]; decide) hapart
  · next h => exact keptIn_return ht ih h
  · exact hexprs
  · exact hexprs
  · next h => exact ht.keptIn_of_no_places (by rw [kind, h]; rfl)
  · next h => exact ht.keptIn_of_no_places (by rw [kind, h]; rfl)
  · next h => exact ht.keptIn_of_no_places (by rw [kind, h]; rfl)
  · next h => exact ht.keptIn_of_no_places (by rw [kind, h]; rfl)
  · next h => exact ht.keptIn_of_no_places (by rw [kind, h]; rfl)
  · exact hexprs

theorem keptIn_block (hkind : t.kind = "block" ∨ t.kind = "module") :
    KeptIn src t (Stmt.callsIn (t.lower src).block) := by
  refine keptIn_of_children (by rcases hkind with h | h <;> (rw [h]; decide)) fun c hc hk n hn => ?_
  have hstmt := (ih c hc).stmt (ht.statements hkind c hc) (not_definition_of_holdsCalls hk) n hn
  have hmem := ht.mem_named src hc hk
  rw [lower_eq_of]
  show n.call src ∈ Stmt.callsIn ((Lowered.named (t.children.map (lower src))).filterMap (·.stmt))
  rw [Stmt.callsIn_eq_flatMap]
  cases hs : (c.lower src).stmt with
  | none =>
    rw [hs] at hstmt
    cases hstmt
  | some s =>
    rw [hs] at hstmt
    exact List.mem_flatMap.mpr ⟨s, List.mem_filterMap.mpr ⟨_, hmem, hs⟩, hstmt⟩

/-- A node keeps the calls below it when its children do. -/
theorem Keeps.of_children : Keeps src t where
  fits := ht
  expr := keptIn_exprOf ht ih
  stmt := keptIn_stmtOf ht ih
  block := keptIn_block ht ih
  binding := keptIn_binding ht ih
  update := keptIn_update ht ih
  argument := keptIn_argument ht ih (keptIn_exprOf ht ih)
  arguments h := by
    rw [children_lower]
    exact keptIn_arguments ht ih h
  interpolation := keptIn_interpolation ht ih
  alternative := keptIn_alternative ht ih
  item := keptIn_item ht ih
  items := keptIn_items ht ih
  handler := keptIn_handler ht ih
  finals := keptIn_finals ht ih
  guard := keptIn_guard ht ih (keptIn_exprOf ht ih)
  arm := keptIn_arm ht ih
  arms := keptIn_arms ht ih

end Rules

/-! ## Every call is reached -/

mutual

theorem keeps_of_grammatical (src : Source) : ∀ t : ParseTree, t.Grammatical → Keeps src t
  | ⟨_, children⟩, h =>
    have hparts := grammatical_iff.mp h
    .of_children hparts.1 (keepsIn_of_grammatical src children hparts.2)

theorem keepsIn_of_grammatical (src : Source) : ∀ cs : List ParseTree, (∀ c ∈ cs, c.Grammatical) →
    ∀ c ∈ cs, Keeps src c
  | [], _, _, hc => absurd hc List.not_mem_nil
  | d :: ds, h, c, hc => by
    rcases List.mem_cons.mp hc with heq | hc
    · exact heq ▸ keeps_of_grammatical src d (h d List.mem_cons_self)
    · exact keepsIn_of_grammatical src ds (fun u hu => h u (List.mem_cons_of_mem _ hu)) c hc

end

/-- **Calls stay reachable**: in a body whose tree keeps to the grammar, the call of each call node, with the
    line of the node, is among the calls of the lowered statements, however deep the node is. Only nested
    definitions and type annotations are left out, and what is lost in format specifiers, in patterns and
    behind continued lines. -/
theorem call_mem_callsIn_body {text : String} (ht : t.Grammatical)
    (hkind : t.kind = "block" ∨ t.kind = "module") :
    ∀ n ∈ t.keptCalls, n.call (.ofString text) ∈ Stmt.callsIn (t.body text) ∧
      (n.call (.ofString text)).line = (Source.ofString text).line n.label.start :=
  fun n hn => ⟨(keeps_of_grammatical _ t ht).block hkind n hn, rfl⟩

/-- The call of a name of one character, without arguments, that begins at a byte. -/
def bareCall (field : Option String) (start : Nat) : ParseTree :=
  ⟨⟨"call", true, field, start, start + 3⟩,
    [leaf "identifier" (some "function") start (start + 1),
      leaf "argument_list" (some "arguments") (start + 1) (start + 3)]⟩

/-- A call in an item of a `with`, and one in its block. -/
def withText : String :=
  "with f(): g()\n"

def withTree : ParseTree :=
  ⟨⟨"module", true, none, 0, 14⟩, [⟨⟨"with_statement", true, none, 0, 13⟩,
    [⟨⟨"with_clause", true, none, 5, 8⟩,
        [⟨⟨"with_item", true, none, 5, 8⟩, [bareCall (some "value") 5]⟩]⟩,
      ⟨⟨"block", true, some "body", 10, 13⟩,
        [⟨⟨"expression_statement", true, none, 10, 13⟩, [bareCall none 10]⟩]⟩]⟩]⟩

/-- Both calls of the `with` are in the body. -/
theorem with_calls_mem :
    withTree.Grammatical ∧ withTree.keptCalls = [bareCall (some "value") 5, bareCall none 10] ∧
      ∀ n ∈ [bareCall (some "value") 5, bareCall none 10],
        n.call (.ofString withText) ∈ Stmt.callsIn (withTree.body withText) := by
  have hkept : withTree.keptCalls = [bareCall (some "value") 5, bareCall none 10] := rfl
  have ht : withTree.Grammatical := by decide
  refine ⟨ht, hkept, fun n hn => (call_mem_callsIn_body ht (.inr rfl) n ?_).1⟩
  rwa [hkept]

/-- A call in the format specifier of an interpolation. -/
def formattedText : String :=
  "f\"\x7bx:\x7bg()\x7d\x7d\"\n"

def formattedTree : ParseTree :=
  ⟨⟨"module", true, none, 0, 13⟩, [⟨⟨"expression_statement", true, none, 0, 12⟩,
    [⟨⟨"string", true, none, 0, 12⟩, [leaf "string_start" none 0 2,
      ⟨⟨"interpolation", true, none, 2, 11⟩, [leaf "identifier" (some "expression") 3 4,
        ⟨⟨"format_specifier", true, some "format_specifier", 4, 10⟩,
          [⟨⟨"format_expression", true, none, 5, 10⟩, [bareCall (some "expression") 6]⟩]⟩]⟩,
      leaf "string_end" none 11 12]⟩]⟩]⟩

/-- **Format specifiers lose calls**: the call node is no part of a definition or an annotation, and the tree
    keeps to the grammar, but the body has no call. -/
theorem call_lost_in_format_specifier :
    formattedTree.Grammatical ∧ bareCall (some "expression") 6 ∈ formattedTree.callNodes isApart ∧
      (bareCall (some "expression") 6).call (.ofString formattedText) = ⟨.name "g", [], [], 1, none⟩ ∧
      Stmt.callsIn (formattedTree.body formattedText) = [] := by
  refine ⟨by decide, ?_, rfl, rfl⟩
  have hnodes : formattedTree.callNodes isApart = [bareCall (some "expression") 6] := rfl
  rw [hnodes]
  exact List.mem_singleton_self _

end ParseTree

end ServiceTrace
