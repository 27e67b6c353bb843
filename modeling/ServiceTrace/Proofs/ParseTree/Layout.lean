import ServiceTrace.Ast.Calls
import ServiceTrace.Proofs.ParseTree.Role

/-!
# `ServiceTrace.Proofs.ParseTree.Layout` — layout does not change what is lowered

Comments are children of almost any node, and each rule that reads children passes over them in its own way.
Three kinds of nodes have a rule that does not: an expression statement, the items of a `with`, and adjacent
string literals read a comment like an expression. Continued lines are passed over only where the rule goes
by field or by kind. What is passed over is skipped, and `ParseTree.body_withoutLayout` says that the
statements of a module do not change when it is deleted.

The deletion is done twice, on the tree and on its lowering. Each rule reads bare children like all of them,
so a node has the same readings in its role before and after the deletion (`Lowered.bare_of`).
-/

namespace ServiceTrace

namespace Lowered

variable {src : Source} {p : Reader} {role : Role} {label : Label} {children : List Lowered}

/-! ## Expressions -/

theorem folds_reader_of_value {n : Lowered} (hr : role.Gives .value) (h : n.kind ∉ fieldReaders) :
    (n.reader role).folds = false :=
  Reader.folds_of_value hr h

/-- Below an expression there are expressions. -/
theorem under_of_value (hp : p.role.Gives .value) (n : Lowered) : n.under p = n.bare p.role := by
  rw [under, Reader.child_of_value hp]

theorem under_expr_of_value (hp : p.role.Gives .value) (n : Lowered) : (n.under p).expr = n.expr := by
  rw [under_of_value hp, bare_expr hp]

theorem exprAt_bareIn_of_value (hp : p.role.Gives .value) (field : String) :
    exprAt field (bareIn p children) = exprAt field children :=
  exprAt_bareIn fun l _ => by rwa [Reader.child_of_value hp]

theorem Arguments.add_bare (hr : role.Gives .value) (given : Arguments) (n : Lowered) :
    given.add src (n.bare role) = given.add src n := by
  have hexpr : ∀ m : Lowered, (m.under (n.reader role)).expr = m.expr := under_expr_of_value hr
  unfold Arguments.add
  simp only [bare_kind, bare_children, bare_expr hr, at?_bareIn]
  split
  · rfl
  split
  · cases at? "name" n.children <;> cases at? "value" n.children <;> simp [hexpr]
  split
  · next hsplat =>
    rw [first?_bareIn (folds_reader_of_value hr (by rw [hsplat]; decide))]
    cases first? n.children <;> simp [hexpr]
  · rfl

theorem argumentsOf_bareIn (hp : p.role.Gives .value) :
    argumentsOf src (bareIn p children) = argumentsOf src children := by
  rw [argumentsOf, argumentsOf, at?_bareIn]
  cases at? "arguments" children with
  | none => rfl
  | some n =>
    simp only [Option.map_some, under_of_value hp, bare_kind, bare_children, bare_expr hp, named_bareIn]
    split
    · next hlist =>
      have hfolds : (n.reader p.role).folds = false := folds_reader_of_value hp (by rw [hlist]; decide)
      refine foldl_bareIn hfolds (fun given m h => by rw [Arguments.add, if_pos h]) (fun given m => ?_) _ _
      rw [under_of_value (p := n.reader p.role) hp]
      exact Arguments.add_bare hp given m
    · rfl

theorem callOf_bareIn (hp : p.role.Gives .value) :
    callOf src label (bareIn p children) = callOf src label children := by
  rw [callOf, callOf, argumentsOf_bareIn hp, exprAt_bareIn_of_value hp]

theorem StringParts.add_bare (hr : role.Gives .value) (isRaw : Bool) (parts : StringParts) (n : Lowered) :
    parts.add src isRaw (n.bare role) = parts.add src isRaw n := by
  have hexpr : ∀ m : Lowered, (m.under (n.reader role)).expr = m.expr := under_expr_of_value hr
  unfold StringParts.add
  simp only [bare_kind, bare_children, bare_label, at?_bareIn]
  split
  · rfl
  split
  · next hinterpolation =>
    rw [first?_bareIn (folds_reader_of_value hr (by rw [hinterpolation]; decide))]
    cases at? "expression" n.children <;> cases first? n.children <;> simp [hexpr]
  · rfl

theorem stringOf_bareIn (hp : p.role.Gives .value) (hfolds : p.folds = false) :
    stringOf src (bareIn p children) = stringOf src children := by
  have hadd : ∀ isRaw (parts : StringParts) n, parts.add src isRaw (under p n) = parts.add src isRaw n := by
    intro isRaw parts n
    rw [under_of_value hp, StringParts.add_bare hp]
  unfold stringOf
  rw [named_bareIn, find?_kind_bareIn "string_start" (by decide) (by decide)]
  cases (named children).find? (·.kind = "string_start") <;>
  · simp only [Option.map_none, Option.map_some, under_label]
    rw [foldl_bareIn hfolds (fun parts n h => by simp [StringParts.add, h]) (hadd _)]

theorem concatenatedOf_map_under (hp : p.role.Gives .value) :
    concatenatedOf (children.map (under p)) = concatenatedOf children := by
  rw [concatenatedOf, concatenatedOf, named_map_under, List.flatMap_map]
  simp only [under_expr_of_value hp]

/-- The reading as an expression. -/
theorem exprOf_bareIn (hp : p.role.Gives .value) :
    exprOf src p.label (bareIn p children) = exprOf src p.label children := by
  have hchild : ∀ l, (p.child l).Gives .value := fun l => by rwa [Reader.child_of_value hp]
  unfold exprOf
  by_cases hfield : p.label.kind ∈ fieldReaders
  · simp only [fieldReaders, List.mem_cons, List.not_mem_nil, or_false] at hfield
    rcases hfield with hkind | hkind | hkind <;>
    · simp only [hkind, textAt?_bareIn, exprAt_bareIn_of_value hp, callOf_bareIn hp]
      simp [constantKinds]
  · have hfolds := Reader.folds_of_value hp hfield
    by_cases hreader : p.label.kind = "concatenated_string"
    · rw [bareIn_of_commentReader hfolds (by rw [hreader]; decide), hreader]
      simp [concatenatedOf_map_under hp]
    · simp only [if_neg hreader, exprAt_bareIn_of_value hp, textAt?_bareIn, callOf_bareIn hp,
        stringOf_bareIn hp hfolds, first?_bareIn hfolds, exprs_bareIn hfolds hchild]
      cases first? children <;> simp [under_expr_of_value hp]

/-- The reading as an assignment. -/
theorem bindingOf_bareIn (hp : p.role.Gives .binding) :
    bindingOf (bareIn p children) = bindingOf children := by
  have hchild : ∀ l : Label, l.field = some "left" ∨ l.kind ≠ "assignment" → (p.child l).Gives .value := by
    intro l hl
    rcases hp with hp | hp
    · simp [Reader.child, hp]
    · rcases hl with hl | hl <;> simp [Reader.child, hp, hl]
  have hchain : ∀ l : Label, l.field = some "right" → l.kind = "assignment" → (p.child l).Gives .binding := by
    intro l hfield hkind
    rcases hp with hp | hp <;> simp [Reader.child, hp, hfield, hkind]
  unfold bindingOf
  rw [map_expr_at?_bareIn fun l h => hchild l (.inl h), at?_bareIn]
  cases hat : at? "right" children with
  | none => rfl
  | some n =>
    simp only [Option.map_some, under_kind]
    split
    · next hkind => rw [under, bare_binding (hchain _ (field_of_at? hat) hkind)]
    · next hkind => rw [under, bare_expr (hchild _ (.inr hkind))]

/-! ## Statements by their parts -/

section Parted

variable (hp : p.Parted)
include hp

theorem exprAt_bareIn_of_parted (field : String) (hfield : field ∈ expressionFields) :
    exprAt field (bareIn p children) = exprAt field children :=
  exprAt_bareIn fun _ h => hp.gives (Label.part_of_expressionField hfield h)

theorem blockAt_bareIn_of_parted {field : String} (hfield : field = "body" ∨ field = "consequence") :
    blockAt field (bareIn p children) = blockAt field children :=
  blockAt_bareIn fun _ h => hp.gives (Label.part_of_blockField hfield h)

/-- Lists of parameters and of base classes keep what they have. -/
theorem under_of_listField {field : String} (hfield : field = "parameters" ∨ field = "superclasses")
    {n : Lowered} (h : n.label.field = some field) : n.under p = n.bare .whole := by
  rcases hp n.label with hchild | hchild
  · rw [under, hchild]
  · rw [under, hchild, Label.part_of_listField hfield h]

end Parted

theorem parted_reader_of_clause {n : Lowered} (hr : role.Gives .clause) : (n.reader role).Parted :=
  Reader.parted_of_clause hr

theorem parted_reader_of_definition {n : Lowered} (hr : role.Gives .statement)
    (h : n.kind = "function_definition" ∨ n.kind = "class_definition") : (n.reader role).Parted := by
  have hlabel : (n.reader role).label.kind = n.kind := rfl
  rcases h with h | h <;>
  exact Reader.parted_of_statement hr (by rw [hlabel, h]; decide) (by rw [hlabel, h]; decide)

theorem hasAsync_bareIn : hasAsync (bareIn p children) = hasAsync children :=
  any_kind_bareIn "async" (by decide) (by decide)

theorem alternative_bare (hr : role.Gives .clause) (n : Lowered) (orelse : List Stmt) :
    alternative src (n.bare role) orelse = alternative src n orelse := by
  have hparted : (n.reader role).Parted := parted_reader_of_clause hr
  simp only [alternative, bare_kind, bare_children, bare_label,
    blockAt_bareIn_of_parted hparted (.inl rfl), blockAt_bareIn_of_parted hparted (.inr rfl),
    exprAt_bareIn_of_parted hparted "condition" (by decide)]

/-- The items of a `with` clause, each with its `value` when it has one. -/
theorem clauseItems_bare (hr : role.Gives .value) {clause : Lowered} (h : clause.kind = "with_clause") :
    ((named (clause.bare role).children).map fun item => ((at? "value" item.children).getD item).expr) =
      (named clause.children).map fun item => ((at? "value" item.children).getD item).expr := by
  have hfolds : (clause.reader role).folds = false := folds_reader_of_value hr (by rw [h]; decide)
  have hreader : (clause.reader role).label.kind ∈ commentReaders := by
    rw [reader_label, show clause.label.kind = "with_clause" from h]
    decide
  rw [bare_children, bareIn_of_commentReader hfolds hreader, named_map_under, List.map_map]
  refine List.map_congr_left fun item _ => ?_
  rw [Function.comp_apply, under_of_value (p := clause.reader role) hr, reader_role, bare_children,
    at?_bareIn]
  cases at? "value" item.children with
  | none => exact bare_expr hr
  | some value => exact under_expr_of_value (p := item.reader role) hr value

theorem handlerOf_bare (hr : role.Gives .handler) (n : Lowered) :
    handlerOf src (n.bare role) = handlerOf src n := by
  have hfolds : (n.reader role).folds = false := Reader.folds_of_handler hr
  have hexpr : ∀ l : Label, l.kind ≠ "block" → ((n.reader role).child l).Gives .value := by
    intro l hl
    rcases hr with rfl | rfl <;> simp [Reader.child, hl]
  have hblock : ∀ l : Label, l.kind = "block" → ((n.reader role).child l).Gives .block := by
    intro l hl
    rcases hr with rfl | rfl <;> simp [Reader.child, hl]
  have htypes : ((bareIn (n.reader role) (named n.children)).filter
      fun part => part.kind ≠ "block" ∧ part.kind ≠ "comment").map (·.expr) =
      ((named n.children).filter fun part => part.kind ≠ "block" ∧ part.kind ≠ "comment").map (·.expr) :=
    map_filter_bareIn (q := fun l => l.kind ≠ "block" ∧ l.kind ≠ "comment")
      (fun l hl => Reader.skips_of_ne_comment hfolds (decide_eq_true_eq.mp hl).2)
      (fun part hpart => bare_expr (hexpr _ (decide_eq_true_eq.mp hpart).1)) _
  have hbody : ((bareIn (n.reader role) (named n.children)).filter (·.kind = "block")).map (·.block) =
      ((named n.children).filter (·.kind = "block")).map (·.block) :=
    map_filter_kind_bareIn "block" (by decide) (by decide) fun part hpart => bare_block (hblock _ hpart)
  simp only [handlerOf, bare_children, named_bareIn, htypes, bare_label, ← List.getLast?_map, hbody]

section Rules

variable (hp : p.Parted)
include hp

theorem condOf_bareIn : condOf src label (bareIn p children) = condOf src label children := by
  have halternatives : (allAt "alternative" (bareIn p children)).foldr (alternative src) [] =
      (allAt "alternative" children).foldr (alternative src) [] := by
    rw [allAt_bareIn, List.foldr_map]
    refine List.foldr_ext _ _ _ fun n hn orelse => alternative_bare (hp.gives ?_) n orelse
    exact Label.part_of_alternative (decide_eq_true_eq.mp (List.mem_filter.mp hn).2)
  rw [condOf, condOf, halternatives, exprAt_bareIn_of_parted hp _ (by decide),
    blockAt_bareIn_of_parted hp (.inr rfl)]

theorem loopElse_bareIn : loopElse (bareIn p children) = loopElse children := by
  rw [loopElse, loopElse, at?_bareIn]
  cases hat : at? "alternative" children with
  | none => rfl
  | some clause =>
    have hrole : (p.child clause.label).Gives .clause :=
      hp.gives (Label.part_of_alternative (field_of_at? hat))
    simp only [Option.map_some, under_children,
      blockAt_bareIn_of_parted (parted_reader_of_clause hrole) (.inl rfl)]

theorem forOf_bareIn : forOf src label (bareIn p children) = forOf src label children := by
  simp only [forOf, exprAt_bareIn_of_parted hp "left" (by decide),
    exprAt_bareIn_of_parted hp "right" (by decide), blockAt_bareIn_of_parted hp (.inl rfl),
    loopElse_bareIn hp, hasAsync_bareIn]

theorem whileOf_bareIn : whileOf src label (bareIn p children) = whileOf src label children := by
  simp only [whileOf, exprAt_bareIn_of_parted hp "condition" (by decide),
    blockAt_bareIn_of_parted hp (.inl rfl), loopElse_bareIn hp]

theorem withOf_bareIn : withOf src label (bareIn p children) = withOf src label children := by
  have hitems : ∀ clause ∈ (named children).filter (fun n => n.kind = "with_clause"),
      ((named (clause.under p).children).map fun item => ((at? "value" item.children).getD item).expr) =
        (named clause.children).map fun item => ((at? "value" item.children).getD item).expr := by
    intro clause hclause
    have hkind : clause.kind = "with_clause" := decide_eq_true_eq.mp (List.mem_filter.mp hclause).2
    exact clauseItems_bare (hp.gives (Label.part_of_value (.inl hkind))) hkind
  simp only [withOf, named_bareIn, filter_kind_bareIn "with_clause" (by decide) (by decide),
    List.flatMap_map, blockAt_bareIn_of_parted hp (.inl rfl), hasAsync_bareIn]
  rw [List.flatMap_congr hitems]

/-- The block of an `else` clause. -/
theorem else_under {n : Lowered} (h : n.kind = "else_clause") :
    blockAt "body" (n.under p).children = blockAt "body" n.children := by
  have hclause : n.label.kind ∈ clauseKinds := by
    rw [show n.label.kind = "else_clause" from h]
    decide
  rw [under_children]
  exact blockAt_bareIn_of_parted (parted_reader_of_clause (hp.gives (Label.part_of_clause hclause))) (.inl rfl)

/-- The block of a `finally` clause. -/
theorem finally_under {n : Lowered} (h : n.kind = "finally_clause") :
    ((named (n.under p).children).find? (·.kind = "block")).map (·.block) =
      ((named n.children).find? (·.kind = "block")).map (·.block) := by
  have hclause : n.label.kind ∈ clauseKinds := by
    rw [show n.label.kind = "finally_clause" from h]
    decide
  have hparted : (n.reader (p.child n.label)).Parted :=
    parted_reader_of_clause (hp.gives (Label.part_of_clause hclause))
  rw [under_children, named_bareIn, find?_kind_bareIn "block" (by decide) (by decide)]
  cases hblock : (named n.children).find? (·.kind = "block") with
  | none => rfl
  | some b =>
    have hkind : b.kind = "block" := by simpa using List.find?_some hblock
    exact congrArg some (bare_block (hparted.gives (Label.part_of_block hkind)))

theorem tryOf_bareIn : tryOf src label (bareIn p children) = tryOf src label children := by
  have hhandlers : ((bareIn p (named children)).filter
      fun n => n.kind = "except_clause" ∨ n.kind = "except_group_clause").map (handlerOf src) =
      ((named children).filter fun n => n.kind = "except_clause" ∨ n.kind = "except_group_clause").map
        (handlerOf src) := by
    refine map_filter_bareIn (q := fun l => l.kind = "except_clause" ∨ l.kind = "except_group_clause")
      (fun l hl => ?_) (fun n hn => handlerOf_bare (hp.gives (Label.part_of_handler ?_)) n) _
    · rcases decide_eq_true_eq.mp hl with h | h <;>
      exact Reader.skips_of_kind (by rw [h]; decide) (by rw [h]; decide)
    · simpa [handlerKinds] using hn
  have helse : ((bareIn p (named children)).filter (·.kind = "else_clause")).map (blockAt "body" ·.children) =
      ((named children).filter (·.kind = "else_clause")).map (blockAt "body" ·.children) :=
    map_filter_kind_bareIn "else_clause" (by decide) (by decide) fun n hkind => else_under hp hkind
  have hfinals : (bareIn p (named children)).filterMap (fun n =>
      (if n.kind = "finally_clause" then (named n.children).find? (·.kind = "block") else none).map
        (·.block)) =
      (named children).filterMap fun n =>
        (if n.kind = "finally_clause" then (named n.children).find? (·.kind = "block") else none).map
          (·.block) := by
    refine filterMap_bareIn (fun n _ h => ?_) fun n => ?_
    · rw [if_neg (kind_ne_of_skips h (by decide) (by decide))]
      rfl
    · rw [under_kind]
      split
      · next hkind => exact finally_under hp hkind
      · rfl
  simp only [tryOf, named_bareIn, hhandlers, ← List.getLast?_map, helse, List.map_filterMap, hfinals,
    blockAt_bareIn_of_parted hp (.inl rfl)]

/-! ## Definitions and imports -/

omit hp in
theorem parameterName_bare (n : Lowered) : parameterName src (n.bare .whole) = parameterName src n := by
  simp only [parameterName, bare_kind, bare_label, bare_children, textAt?_bareIn,
    first?_bareIn (p := n.reader .whole) rfl, isSplat]
  cases first? n.children <;> simp

theorem parametersOf_bareIn : parametersOf src (bareIn p children) = parametersOf src children := by
  rw [parametersOf, parametersOf, at?_bareIn]
  cases hat : at? "parameters" children with
  | none => rfl
  | some n =>
    have hunder : ∀ m : Lowered, m.under (n.reader .whole) = m.bare .whole := fun _ => rfl
    simp only [Option.map_some, under_of_listField hp (.inl rfl) (field_of_at? hat), bare_children,
      named_bareIn, filter_ne_comment_bareIn (p := n.reader .whole) rfl, List.map_map, Function.comp_def,
      hunder, parameterName_bare]

theorem functionOf_bareIn (decorators : List Expr) :
    functionOf src decorators label (bareIn p children) = functionOf src decorators label children := by
  simp only [functionOf, textAt?_bareIn, parametersOf_bareIn hp, blockAt_bareIn_of_parted hp (.inl rfl),
    hasAsync_bareIn]

theorem classOf_bareIn (decorators : List Expr) :
    classOf src decorators label (bareIn p children) = classOf src decorators label children := by
  simp only [classOf, textAt?_bareIn, blockAt_bareIn_of_parted hp (.inl rfl), at?_bareIn]
  cases hat : at? "superclasses" children with
  | none => rfl
  | some n =>
    simp only [Option.map_some, under_of_listField hp (.inr rfl) (field_of_at? hat), bare_children,
      exprs_bareIn (p := n.reader .whole) rfl fun _ => .inl rfl]

theorem decoratedOf_bareIn : decoratedOf src (bareIn p children) = decoratedOf src children := by
  have hdecorators : (bareIn p (named children)).filterMap (fun n =>
      if n.kind = "decorator" then (first? n.children).map (·.expr) else none) =
      (named children).filterMap fun n =>
        if n.kind = "decorator" then (first? n.children).map (·.expr) else none := by
    refine filterMap_bareIn (fun n _ h => if_neg (kind_ne_of_skips h (by decide) (by decide))) fun n => ?_
    simp only [under_kind]
    split
    · next hkind =>
      have hrole : (p.child n.label).Gives .value := hp.gives (Label.part_of_value (.inr hkind))
      rw [under_children, first?_bareIn (folds_reader_of_value hrole (by rw [hkind]; decide)),
        Option.map_map]
      exact congrArg (Option.map · _) (funext (under_expr_of_value (p := n.reader (p.child n.label)) hrole))
    · rfl
  simp only [decoratedOf, named_bareIn, hdecorators, at?_bareIn]
  cases hat : at? "definition" children with
  | none => rfl
  | some n =>
    have hrole : (p.child n.label).Gives .statement :=
      hp.gives (Label.part_of_definition (field_of_at? hat))
    simp only [Option.map_some, Option.bind_some, under_kind, under_label]
    split
    · next hkind => rw [under_children, functionOf_bareIn (parted_reader_of_definition hrole (.inl hkind))]
    split
    · next hkind => rw [under_children, classOf_bareIn (parted_reader_of_definition hrole (.inr hkind))]
    · exact bare_stmt hrole

end Rules

theorem importNamesOf_bareIn : importNamesOf src (bareIn p children) = importNamesOf src children := by
  rw [importNamesOf, importNamesOf, named_bareIn]
  refine filterMap_bareIn (fun n _ h => ?_) fun n => ?_
  · rw [if_neg (kind_ne_of_skips h (by decide) (by decide)),
      if_neg (kind_ne_of_skips h (by decide) (by decide))]
  · simp only [under_kind, under_label, under_children, textAt?_bareIn]

theorem importFromOf_bareIn :
    importFromOf src label (bareIn p children) = importFromOf src label children := by
  have hmodule : (bareIn p children).eraseP (fun n => n.label.field = some "module_name") =
      bareIn p (children.eraseP fun n => n.label.field = some "module_name") :=
    eraseP_bareIn (q := fun l => l.field = some "module_name")
      (fun _ h => Reader.skips_of_field (decide_eq_true_eq.mp h)) children
  rw [importFromOf, importFromOf, textAt?_bareIn, hmodule, importNamesOf_bareIn, named_bareIn,
    any_kind_bareIn "wildcard_import" (by decide) (by decide)]

/-! ## Matching -/

/-- The condition of a guard. -/
theorem guard_bare (hr : role.Gives .value) (n : Lowered) :
    (if (n.bare role).kind = "if_clause" then ((first? (n.bare role).children).getD (n.bare role)).expr
      else (n.bare role).expr) =
      if n.kind = "if_clause" then ((first? n.children).getD n).expr else n.expr := by
  rw [bare_kind, bare_children, bare_expr hr]
  split
  · next hkind =>
    rw [first?_bareIn (folds_reader_of_value hr (by rw [hkind]; decide))]
    cases first? n.children with
    | none => exact bare_expr hr
    | some inner => exact under_expr_of_value (p := n.reader role) hr inner
  · rfl

theorem caseOf_bare (hr : role.Gives .clause) (n : Lowered) : caseOf src (n.bare role) = caseOf src n := by
  have hparted : (n.reader role).Parted := parted_reader_of_clause hr
  have hpatterns : ((bareIn (n.reader role) (named n.children)).filter (·.kind = "case_pattern")).map
      (text src ·.label) = ((named n.children).filter (·.kind = "case_pattern")).map (text src ·.label) :=
    map_filter_kind_bareIn "case_pattern" (by decide) (by decide) fun m _ =>
      congrArg (text src) (m.under_label _)
  simp only [caseOf, bare_children, named_bareIn, hpatterns, at?_bareIn, Option.map_map,
    blockAt_bareIn_of_parted hparted (.inr rfl)]
  congr 1
  cases hat : at? "guard" n.children with
  | none => rfl
  | some guard =>
    have hrole := hparted.gives (Label.part_of_expressionField (by decide) (field_of_at? hat))
    exact congrArg some (guard_bare hrole guard)

theorem matchOf_bareIn (hp : p.role.Gives .statement) (hkind : p.label.kind = "match_statement") :
    matchOf src label (bareIn p children) = matchOf src label children := by
  have hsubject : ∀ l : Label, l.field = some "subject" → (p.child l).Gives .value := by
    intro l hfield
    have hpart : l.part.Gives .value := Label.part_of_expressionField (by decide) hfield
    rcases hp with hp | hp
    · simp [Reader.child, hp]
    · simpa [Reader.child, hp, hkind, hfield, partedKinds] using hpart
  have hbody : ∀ l : Label, l.field = some "body" → (p.child l).Gives .clause := by
    intro l hfield
    rcases hp with hp | hp <;> simp [Reader.child, hp, hkind, hfield]
  have hsubjects : (allAt "subject" (bareIn p children)).map (·.expr) =
      (allAt "subject" children).map (·.expr) :=
    map_filter_bareIn (q := fun l => l.field = some "subject")
      (fun _ h => Reader.skips_of_field (decide_eq_true_eq.mp h))
      (fun n hn => bare_expr (hsubject _ (decide_eq_true_eq.mp hn))) children
  simp only [matchOf, hsubjects, at?_bareIn]
  cases hat : at? "body" children with
  | none => rfl
  | some body =>
    have hparted : (body.reader (p.child body.label)).Parted :=
      parted_reader_of_clause (hbody _ (field_of_at? hat))
    have hcases : ((bareIn (body.reader (p.child body.label)) (named body.children)).filter
        (·.kind = "case_clause")).map (caseOf src) =
        ((named body.children).filter (·.kind = "case_clause")).map (caseOf src) := by
      refine map_filter_kind_bareIn "case_clause" (by decide) (by decide) fun n hn => ?_
      have hclause : n.label.kind ∈ clauseKinds := by
        rw [show n.label.kind = "case_clause" from hn]
        decide
      exact caseOf_bare (hparted.gives (Label.part_of_clause hclause)) n
    simp only [Option.map_some, under_children, named_bareIn, hcases]

/-! ## All readings -/

section

variable (hsole : p.sole = true ↔
  p.role = .statement ∧ p.label.kind = "expression_statement" ∧ (named children).length = 1)
include hsole

/-- Several expressions are read as such, and a single one as an assignment when it is one. -/
theorem expressionStatementOf_bareIn (hp : p.role.Gives .statement)
    (hkind : p.label.kind = "expression_statement") :
    expressionStatementOf src label (bareIn p children) = expressionStatementOf src label children := by
  have hfolds : p.folds = false := Reader.folds_of_statement hp (by rw [hkind]; decide)
  rw [bareIn_of_commentReader hfolds (by rw [hkind]; decide), expressionStatementOf, expressionStatementOf,
    named_map_under]
  cases hnamed : named children with
  | nil => rfl
  | cons n rest =>
    rw [hnamed] at hsole
    cases rest with
    | nil =>
      have hsingle : p.role = .statement → p.sole = true := fun hrole => hsole.mpr ⟨hrole, hkind, rfl⟩
      simp only [List.map_cons, List.map_nil, under_kind, under_label]
      split
      · next h => rw [under, bare_binding (Reader.child_of_assignment hp hkind hsingle h)]
      split
      · next h =>
        have hparted : (n.reader (p.child n.label)).Parted :=
          parted_reader_of_clause (Reader.child_of_augmentedAssignment hp hkind hsingle h)
        rw [under_children, exprAt_bareIn_of_parted hparted _ (by decide), textAt?_bareIn,
          map_expr_at?_bareIn fun l h => hparted.gives (Label.part_of_expressionField (by decide) h)]
      · next hassign haugmented =>
        rw [under, bare_expr (Reader.child_of_expressionStatement hp hkind ⟨hassign, haugmented⟩)]
    | cons m rest =>
      have hseveral : p.sole = false := Bool.eq_false_iff.mpr fun h => by simpa using (hsole.mp h).2.2
      have hexpr : ∀ k : Lowered, (k.under p).expr = k.expr :=
        fun k => bare_expr (Reader.child_of_turn hp (by rw [hkind]; decide) hseveral)
      simp [hexpr, Function.comp_def]

end

/-- The reading of a statement that is read by its parts. -/
theorem stmtOf_bareIn_of_parted (hp : p.role.Gives .statement) (h : p.label.kind ∈ partedKinds) :
    stmtOf src p.label (bareIn p children) = stmtOf src p.label children := by
  by_cases hmatch : p.label.kind = "match_statement"
  · simp only [stmtOf, hmatch, matchOf_bareIn hp hmatch]
  · have hparted := Reader.parted_of_statement hp h hmatch
    simp only [partedKinds, List.mem_cons, List.not_mem_nil, or_false] at h
    rcases h with h | h | h | h | h | h | h | h | h | h | h <;>
    simp only [stmtOf, h, condOf_bareIn hparted, forOf_bareIn hparted, whileOf_bareIn hparted,
      withOf_bareIn hparted, tryOf_bareIn hparted, functionOf_bareIn hparted, classOf_bareIn hparted,
      decoratedOf_bareIn hparted, importNamesOf_bareIn, importFromOf_bareIn]
    exact absurd h hmatch

/-- The reading of a statement that takes its children in turn. -/
theorem stmtOf_bareIn_of_turn (hp : p.role.Gives .statement) (h : p.label.kind ∉ partedKinds)
    (hexpression : p.label.kind ≠ "expression_statement") (hsole : p.sole = false) :
    stmtOf src p.label (bareIn p children) = stmtOf src p.label children := by
  have hfolds : p.folds = false := Reader.folds_of_statement hp h
  have hvalue : ∀ l, (p.child l).Gives .value := fun l => Reader.child_of_turn hp h hsole
  have hfirst : (first? (bareIn p children)).map (·.expr) = (first? children).map (·.expr) := by
    rw [first?_bareIn hfolds, Option.map_map]
    exact congrArg (Option.map · _) (funext fun n => bare_expr (hvalue n.label))
  simp only [stmtOf, hfirst, exprs_bareIn hfolds hvalue]
  -- what is left are the kinds that are read by their parts, and expression statements
  split
  all_goals first
    | rfl
    | simp_all [partedKinds]

/-- The reading as a statement. -/
theorem stmtOf_bareIn (hp : p.role.Gives .statement) (hsole : p.sole = true ↔
    p.role = .statement ∧ p.label.kind = "expression_statement" ∧ (named children).length = 1) :
    stmtOf src p.label (bareIn p children) = stmtOf src p.label children := by
  by_cases hparted : p.label.kind ∈ partedKinds
  · exact stmtOf_bareIn_of_parted hp hparted
  by_cases hexpression : p.label.kind = "expression_statement"
  · simp only [stmtOf, hexpression, expressionStatementOf_bareIn hsole hp hexpression]
  · exact stmtOf_bareIn_of_turn hp hparted hexpression
      (Bool.eq_false_iff.mpr fun h => hexpression (hsole.mp h).2.1)

/-- The statements of a block. -/
theorem filterMap_stmt_bareIn (hp : p.role.Gives .block)
    (h : ∀ n ∈ children, n.kind = "comment" → n.stmt = none) :
    (named (bareIn p children)).filterMap (·.stmt) = (named children).filterMap (·.stmt) := by
  have hfolds := Reader.folds_of_block hp
  rw [named_bareIn]
  refine filterMap_bareIn (fun n hn hskip => ?_) fun n => bare_stmt ?_
  · exact h n (List.mem_filter.mp hn).1 (Reader.kind_of_skips hfolds hskip)
  · rcases hp with hp | hp <;> simp [Reader.child, hp]

/-- A node with the readings that its role uses, from its bare children. -/
def ofBare (src : Source) (p : Reader) (children : List Lowered) : Lowered where
  label := p.label
  children := children
  expr := if p.role.Gives .value then exprOf src p.label children else .other "" []
  stmt := if p.role.Gives .statement then stmtOf src p.label children else none
  block := if p.role.Gives .block then (named children).filterMap (·.stmt) else []
  binding := if p.role.Gives .binding then bindingOf children else ([], none)

/-- What a role uses of a node depends on nothing but its bare children. -/
theorem bare_of (role : Role) (label : Label) (h : ∀ n ∈ children, n.kind = "comment" → n.stmt = none) :
    (of src label children).bare role =
      ofBare src (.ofLabels role label (children.map (·.label)))
        (bareIn (.ofLabels role label (children.map (·.label))) children) := by
  have hsole := Reader.sole_ofLabels role label (children.map (·.label))
  rw [List.filter_map, List.length_map] at hsole
  simp only [of, bare, ofBare]
  congr 1
  · exact ite_congr rfl (fun hr => (exprOf_bareIn hr).symm) fun _ => rfl
  · exact ite_congr rfl (fun hr => (stmtOf_bareIn hr hsole).symm) fun _ => rfl
  · exact ite_congr rfl (fun hr => (filterMap_stmt_bareIn hr h).symm) fun _ => rfl
  · exact ite_congr rfl (fun hr => (bindingOf_bareIn hr).symm) fun _ => rfl

end Lowered

/-! ## Deleting layout -/

/-- Whether a node is layout, whatever its parent is. -/
def Label.isLayout (_parent child : Label) : Bool :=
  child.kind = "comment" || child.kind = "line_continuation"

mutual

/-- The tree without the nodes that `skip` picks, at any depth. Each node is picked by its parent and
    itself. -/
def ParseTree.without (skip : Label → Label → Bool) : ParseTree → ParseTree
  | ⟨label, children⟩ => ⟨label, ParseTree.withoutIn skip label children⟩

/-- The children of a node without those that `skip` picks. -/
def ParseTree.withoutIn (skip : Label → Label → Bool) (parent : Label) : List ParseTree → List ParseTree
  | [] => []
  | c :: cs =>
    if skip parent c.label then ParseTree.withoutIn skip parent cs
    else c.without skip :: ParseTree.withoutIn skip parent cs

end

mutual

/-- The tree without the nodes that are skipped when its root is in a role. -/
def ParseTree.tidy (role : Role) : ParseTree → ParseTree
  | ⟨label, children⟩ =>
    ⟨label, ParseTree.tidyIn (.ofLabels role label (children.map (·.label))) children⟩

/-- The children that a reader looks at, without what is skipped below them. -/
def ParseTree.tidyIn (p : Reader) : List ParseTree → List ParseTree
  | [] => []
  | c :: cs =>
    if p.skips c.label then ParseTree.tidyIn p cs
    else c.tidy (p.child c.label) :: ParseTree.tidyIn p cs

end

namespace ParseTree

/-- The tree without its idle comments. -/
def withoutComments (t : ParseTree) : ParseTree :=
  t.without Label.isIdle

/-- The tree without the layout that no rule looks at: idle comments everywhere, and continued lines below
    what is read by field or by kind. These are attributes, calls and binary operators where they are
    expressions, assignments where they are statements, compound statements and definitions, their clauses
    apart from `except`, and imports. -/
def withoutLayout (t : ParseTree) : ParseTree :=
  t.tidy .block

@[simp] theorem label_lower (src : Source) (t : ParseTree) : (t.lower src).label = t.label := by
  cases t
  rfl

@[simp] theorem label_tidy (role : Role) (t : ParseTree) : (t.tidy role).label = t.label := by
  cases t
  rfl

theorem labels_lowerAll (src : Source) (ts : List ParseTree) :
    (lowerAll src ts).map (·.label) = ts.map (·.label) := by
  induction ts with
  | nil => rfl
  | cons t ts ih => rw [lowerAll, List.map_cons, List.map_cons, ih, label_lower]

theorem labels_tidyIn (p : Reader) (ts : List ParseTree) :
    (tidyIn p ts).map (·.label) = (ts.map (·.label)).filter fun l => !p.skips l := by
  induction ts with
  | nil => rfl
  | cons t ts ih =>
    rw [tidyIn, List.map_cons, List.filter_cons]
    cases p.skips t.label <;> simp [ih]

/-- A comment is no statement. -/
theorem stmt_of_comment {src : Source} {t : ParseTree} (h : t.label.kind = "comment") :
    (t.lower src).stmt = none := by
  obtain ⟨label, children⟩ := t
  show Lowered.stmtOf src label _ = none
  simp only [Lowered.stmtOf, show label.kind = "comment" from h]

theorem stmt_of_mem_lowerAll {src : Source} {ts : List ParseTree} {n : Lowered}
    (hn : n ∈ lowerAll src ts) (h : n.kind = "comment") : n.stmt = none := by
  induction ts with
  | nil => cases hn
  | cons t ts ih =>
    rcases List.mem_cons.mp hn with rfl | hn
    · exact stmt_of_comment (by rwa [Lowered.kind, label_lower] at h)
    · exact ih hn

mutual

/-- What a role uses of a tree stays when layout is deleted. -/
theorem bare_lower_tidy (src : Source) (role : Role) :
    ∀ t : ParseTree, ((t.tidy role).lower src).bare role = (t.lower src).bare role
  | ⟨label, children⟩ => by
    show (Lowered.of src label (lowerAll src (tidyIn (.ofLabels role label (children.map (·.label)))
      children))).bare role = (Lowered.of src label (lowerAll src children)).bare role
    rw [Lowered.bare_of role label fun n hn => stmt_of_mem_lowerAll hn,
      Lowered.bare_of role label fun n hn => stmt_of_mem_lowerAll hn, labels_lowerAll, labels_lowerAll,
      labels_tidyIn, Reader.ofLabels_filter_skips, bareIn_lowerAll_tidyIn src _ children]

theorem bareIn_lowerAll_tidyIn (src : Source) (p : Reader) : ∀ ts : List ParseTree,
    Lowered.bareIn p (lowerAll src (tidyIn p ts)) = Lowered.bareIn p (lowerAll src ts)
  | [] => rfl
  | t :: ts => by
    have htail := bareIn_lowerAll_tidyIn src p ts
    rw [tidyIn, lowerAll, Lowered.bareIn, label_lower]
    split
    · exact htail
    · next hskip =>
      rw [lowerAll, Lowered.bareIn, label_lower, label_tidy, if_neg hskip, htail, bare_lower_tidy src _ t]

end

theorem body_tidy {role : Role} (hr : role.Gives .block) (text : String) (t : ParseTree) :
    (t.tidy role).body text = t.body text := by
  rw [body, body, ← Lowered.bare_block hr, bare_lower_tidy, Lowered.bare_block hr]

mutual

/-- When all readings are used, comments alone are skipped. -/
theorem tidy_whole : ∀ t : ParseTree, t.tidy .whole = t.withoutComments
  | ⟨label, children⟩ => congrArg (ParseTree.mk label) (tidyIn_whole rfl children)

theorem tidyIn_whole {p : Reader} (hp : p.role = .whole) :
    ∀ ts : List ParseTree, tidyIn p ts = withoutIn Label.isIdle p.label ts
  | [] => rfl
  | t :: ts => by
    have hskips : p.skips t.label = p.label.isIdle t.label := by simp [Reader.skips, Reader.folds, hp]
    have hchild : p.child t.label = .whole := by simp [Reader.child, hp]
    rw [tidyIn, withoutIn, hskips, hchild, tidyIn_whole hp ts, tidy_whole t]
    rfl

end

/-- **Layout does not change the analysis**: the statements of a module are the same without the comments of
    its tree, at any depth, but for those that an expression statement, the items of a `with` or adjacent
    string literals read like expressions. A comment that filled a field would be read as well. They are still
    the same when the continued lines below what is read by field or by kind are deleted with the comments. -/
theorem body_withoutLayout (text : String) (t : ParseTree) :
    t.withoutComments.body text = t.body text ∧ t.withoutLayout.body text = t.body text := by
  rw [← tidy_whole]
  exact ⟨body_tidy (by decide) text t, body_tidy (by decide) text t⟩

/-- A named node without children. -/
def leaf (kind : String) (field : Option String) (start stop : Nat) : ParseTree :=
  ⟨⟨kind, true, field, start, stop⟩, []⟩

/-- The assignment of a sum, with a continued line after the `=` and another one after the operator. -/
def foldedTree : ParseTree :=
  ⟨⟨"module", true, none, 0, 18⟩, [⟨⟨"expression_statement", true, none, 0, 17⟩,
    [⟨⟨"assignment", true, none, 0, 17⟩,
      [leaf "identifier" (some "left") 0 1, leaf "line_continuation" none 4 6,
        ⟨⟨"binary_operator", true, some "right", 8, 17⟩,
          [leaf "identifier" (some "left") 8 9, leaf "line_continuation" none 12 14,
            leaf "identifier" (some "right") 16 17]⟩]⟩]⟩]⟩

/-- No rule looks at these two. -/
example : foldedTree.withoutLayout = foldedTree.without Label.isLayout := rfl

/-! ## Layout that counts -/

/-- The literal of one character between quotes that begins at a byte. -/
def quoted (start : Nat) : ParseTree :=
  ⟨⟨"string", true, none, start, start + 3⟩,
    [leaf "string_start" none start (start + 1), leaf "string_content" none (start + 1) (start + 2),
      leaf "string_end" none (start + 2) (start + 3)]⟩

/-- Two adjacent literals on two lines, with a comment behind the first one. -/
def commentedText : String :=
  "x = ('a' # one\n  'b')\n"

def commentedTree : ParseTree :=
  ⟨⟨"module", true, none, 0, 22⟩, [⟨⟨"expression_statement", true, none, 0, 21⟩,
    [⟨⟨"assignment", true, none, 0, 21⟩, [leaf "identifier" (some "left") 0 1,
      ⟨⟨"parenthesized_expression", true, some "right", 4, 21⟩,
        [⟨⟨"concatenated_string", true, none, 5, 20⟩,
          [quoted 5, leaf "comment" none 9 14, quoted 17]⟩]⟩]⟩]⟩]⟩

/-- A call on the line after a `return`. -/
def continuedText : String :=
  "return \\\n  f()\n"

def continuedTree : ParseTree :=
  ⟨⟨"module", true, none, 0, 15⟩, [⟨⟨"return_statement", true, none, 0, 14⟩,
    [leaf "line_continuation" none 7 9, ⟨⟨"call", true, none, 11, 14⟩,
      [leaf "identifier" (some "function") 11 12, leaf "argument_list" (some "arguments") 12 14]⟩]⟩]⟩

/-- **Layout that changes the analysis**: with the comment, the two literals are a string with an unknown
    part between them. With the continued line, the statement returns nothing and its call is lost. -/
theorem body_layout :
    commentedTree.body commentedText =
      [.assign [.name "x"] none (some (.joined [.str "a", .other "comment" [], .str "b"])) 1] ∧
    (commentedTree.without Label.isLayout).body commentedText =
      [.assign [.name "x"] none (some (.str "ab")) 1] ∧
    Stmt.callsIn (continuedTree.body continuedText) = [] ∧
    Stmt.callsIn ((continuedTree.without Label.isLayout).body continuedText) =
      [⟨.name "f", [], [], 2, none⟩] :=
  ⟨rfl, rfl, rfl, rfl⟩

end ParseTree

end ServiceTrace
