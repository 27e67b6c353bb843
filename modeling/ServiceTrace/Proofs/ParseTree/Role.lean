import Mathlib.Data.List.Basic
import ServiceTrace.ParseTree.Lowering

/-!
# `ServiceTrace.Proofs.ParseTree.Role` — what the nodes of a tree are read as

Lowering computes all readings of a node, and the rule of the node above uses one of them, or looks at the
children itself. `Role` says what is used of a node, and `Reader.child` what a node in a role uses of its
children: an expression is made of expressions, and a block of statements. From the root down this leaves most
readings of a tree without a use.

Comments and continued lines are children of almost any node. A reader skips those that its rule does not look
at (`Reader.skips`): comments in every role, and continued lines where the children are read by field or by
kind. `Lowered.bare` is a lowered node without what is skipped below it, and without the readings that its
role does not use; selecting children is the same on bare children as on all of them.
-/

namespace ServiceTrace

/-! ## Comments and continued lines -/

/-- The kinds of nodes whose rule reads comments like expressions. -/
def commentReaders : List String :=
  ["expression_statement", "with_clause", "concatenated_string"]

/-- Whether a child of a node is a comment that fills no field and is not read by the rule of its parent. -/
def Label.isIdle (parent child : Label) : Bool :=
  child.kind = "comment" && child.field = none && parent.kind ∉ commentReaders

/-- Whether a node is a continued line that fills no field. -/
def Label.isFold (l : Label) : Bool :=
  l.kind = "line_continuation" && l.field = none

/-! ## Roles -/

/-- What is used of a node. -/
inductive Role where
  /-- Every reading, and the children. -/
  | whole
  /-- The statements among its children. -/
  | block
  | statement
  /-- The parts of a statement, of one of its clauses, or of an augmented assignment. -/
  | clause
  /-- The expressions of an `except` clause, and its block. -/
  | handler
  /-- The targets and the value of an assignment. -/
  | binding
  | value
deriving DecidableEq

/-- Whether what a role uses of a node is enough for another one. -/
def Role.Gives (role need : Role) : Prop :=
  role = .whole ∨ role = need

instance (role need : Role) : Decidable (role.Gives need) :=
  inferInstanceAs (Decidable (_ ∨ _))

@[simp] theorem Role.whole_gives (need : Role) : Role.whole.Gives need :=
  .inl rfl

@[simp] theorem Role.gives_self (role : Role) : role.Gives role :=
  .inr rfl

/-! ## The parts of statements -/

def handlerKinds : List String :=
  ["except_clause", "except_group_clause"]

def clauseKinds : List String :=
  ["elif_clause", "else_clause", "finally_clause", "case_clause"]

/-- The fields in which statements and their clauses have expressions. -/
def expressionFields : List String :=
  ["condition", "left", "right", "subject", "guard"]

/-- What a child is used as by the rule of a statement or clause, which goes by field and by kind. Where the
    grammar does not put a child, more than one rule may look at it, so it keeps everything. -/
def Label.part (child : Label) : Role :=
  if child.kind = "block" then
    if child.field ∈ [none, some "body", some "consequence"] then .block else .whole
  else if child.kind ∈ handlerKinds then
    if child.field = none then .handler else .whole
  else if child.kind ∈ clauseKinds then
    if child.field ∈ [none, some "alternative"] then .clause else .whole
  else if child.kind ∈ ["function_definition", "class_definition"] ∧ child.field = some "definition" then
    .statement
  else if child.field = none ∨ ∃ field ∈ expressionFields, child.field = some field then .value
  else .whole

section Parts

variable {l : Label} {field : String}

theorem Label.part_of_expressionField (hfield : field ∈ expressionFields) (h : l.field = some field) :
    l.part.Gives .value := by
  simp only [expressionFields, List.mem_cons, List.not_mem_nil, or_false] at hfield
  rcases hfield with rfl | rfl | rfl | rfl | rfl <;>
  · unfold part Role.Gives
    split_ifs <;> simp_all

theorem Label.part_of_blockField (hfield : field = "body" ∨ field = "consequence")
    (h : l.field = some field) : l.part.Gives .block := by
  rcases hfield with rfl | rfl <;>
  · unfold part Role.Gives
    split_ifs <;> simp_all [expressionFields]

theorem Label.part_of_alternative (h : l.field = some "alternative") : l.part.Gives .clause := by
  unfold part Role.Gives
  split_ifs <;> simp_all [expressionFields]

theorem Label.part_of_definition (h : l.field = some "definition") : l.part.Gives .statement := by
  unfold part Role.Gives
  split_ifs <;> simp_all [expressionFields]

/-- What is in other fields may be used in any way. -/
theorem Label.part_of_listField (hfield : field = "parameters" ∨ field = "superclasses")
    (h : l.field = some field) : l.part = .whole := by
  rcases hfield with rfl | rfl <;>
  · unfold part
    split_ifs <;> simp_all [expressionFields]

theorem Label.part_of_block (h : l.kind = "block") : l.part.Gives .block := by
  unfold part Role.Gives
  split_ifs <;> simp_all

theorem Label.part_of_handler (h : l.kind ∈ handlerKinds) : l.part.Gives .handler := by
  have hblock : l.kind ≠ "block" := by
    intro hkind
    rw [hkind] at h
    exact absurd h (by decide)
  unfold part Role.Gives
  split_ifs <;> simp_all

theorem Label.part_of_clause (h : l.kind ∈ clauseKinds) : l.part.Gives .clause := by
  simp only [clauseKinds, List.mem_cons, List.not_mem_nil, or_false] at h
  rcases h with h | h | h | h <;>
  · unfold part Role.Gives
    split_ifs <;> simp_all [handlerKinds, clauseKinds]

theorem Label.part_of_value (h : l.kind = "with_clause" ∨ l.kind = "decorator") : l.part.Gives .value := by
  rcases h with h | h <;>
  · unfold part Role.Gives
    split_ifs <;> simp_all [handlerKinds, clauseKinds]

end Parts

/-! ## Reading children -/

/-- The kinds of expressions that are read by field alone. -/
def fieldReaders : List String :=
  ["attribute", "call", "binary_operator"]

/-- The kinds of statements that are read by their parts. -/
def partedKinds : List String :=
  ["if_statement", "for_statement", "while_statement", "with_statement", "try_statement", "match_statement",
    "function_definition", "class_definition", "decorated_definition", "import_statement",
    "import_from_statement"]

/-- A node whose children are read. -/
structure Reader where
  role : Role
  label : Label
  /-- Whether the node is read as an expression statement of one expression. -/
  sole : Bool

namespace Reader

/-- The reader that a node in a role is. -/
def ofLabels (role : Role) (label : Label) (children : List Label) : Reader where
  role := role
  label := label
  sole := role = .statement && label.kind = "expression_statement" && (children.filter (·.named)).length = 1

/-- Whether the rule of a reader passes over continued lines, because it goes by field or by kind. -/
def folds (p : Reader) : Bool :=
  match p.role with
  | .value => p.label.kind ∈ fieldReaders
  | .statement => p.label.kind ∈ partedKinds
  | .clause | .binding => true
  | .whole | .block | .handler => false

/-- Whether the rule of a reader does not look at a child. -/
def skips (p : Reader) (child : Label) : Bool :=
  p.label.isIdle child || p.folds && child.isFold

/-- What a reader uses of a child. -/
def child (p : Reader) (child : Label) : Role :=
  match p.role with
  | .whole => .whole
  | .block => .statement
  | .statement =>
    if p.label.kind = "match_statement" ∧ child.field = some "body" then .clause
    else if p.label.kind ∈ partedKinds then child.part
    else if p.sole ∧ child.kind = "assignment" then .binding
    else if p.sole ∧ child.kind = "augmented_assignment" then .clause
    else .value
  | .clause => child.part
  | .handler => if child.kind = "block" then .block else .value
  | .binding => if child.field = some "right" ∧ child.kind = "assignment" then .binding else .value
  | .value => .value

variable {p : Reader} {l : Label}

/-- Only comments and continued lines are skipped, and only without a field. -/
theorem of_skips (h : p.skips l = true) :
    l.field = none ∧ (l.kind = "comment" ∨ l.kind = "line_continuation") := by
  simp only [skips, Label.isIdle, Label.isFold, Bool.or_eq_true, Bool.and_eq_true, decide_eq_true_eq] at h
  rcases h with ⟨⟨hkind, hfield⟩, -⟩ | ⟨-, hkind, hfield⟩
  · exact ⟨hfield, .inl hkind⟩
  · exact ⟨hfield, .inr hkind⟩

theorem skips_of_field {field : String} (h : l.field = some field) : p.skips l = false :=
  Bool.eq_false_iff.mpr fun hskip => nomatch h.symm.trans (of_skips hskip).1

theorem skips_of_kind (hcomment : l.kind ≠ "comment") (hfold : l.kind ≠ "line_continuation") :
    p.skips l = false :=
  Bool.eq_false_iff.mpr fun hskip => (of_skips hskip).2.elim hcomment hfold

/-- A rule that reads children in turn skips comments at most. -/
theorem kind_of_skips (hp : p.folds = false) (h : p.skips l = true) : l.kind = "comment" := by
  rw [skips, hp, Bool.false_and, Bool.or_false] at h
  simp only [Label.isIdle, Bool.and_eq_true, decide_eq_true_eq] at h
  exact h.1.1

theorem skips_of_ne_comment (hp : p.folds = false) (h : l.kind ≠ "comment") : p.skips l = false :=
  Bool.eq_false_iff.mpr fun hskip => h (kind_of_skips hp hskip)

/-- A rule that reads comments, and reads its children in turn, skips nothing. -/
theorem skips_of_commentReader (hp : p.folds = false) (h : p.label.kind ∈ commentReaders) :
    p.skips l = false := by
  simp [skips, hp, Label.isIdle, h]

/-- The reader that a node is does not change when it loses what is skipped: where the number of its children
    counts, nothing is. -/
theorem ofLabels_filter_skips (role : Role) (label : Label) (children : List Label) :
    ofLabels role label (children.filter fun l => !(ofLabels role label children).skips l) =
      ofLabels role label children := by
  by_cases hsole : role = .statement ∧ label.kind = "expression_statement"
  · obtain ⟨rfl, hkind⟩ := hsole
    have hfolds : (ofLabels .statement label children).folds = false := by
      simp [folds, ofLabels, hkind, partedKinds]
    rw [List.filter_eq_self.mpr fun l _ => by
      rw [skips_of_commentReader hfolds (by rw [ofLabels, hkind]; decide)]
      rfl]
  · have hsole' : (role = .statement && label.kind = "expression_statement") = false := by
      simpa using hsole
    simp only [ofLabels, hsole', Bool.false_and]

/-- Expressions are made of expressions. -/
theorem child_of_value (hp : p.role.Gives .value) : p.child l = p.role := by
  rcases hp with hp | hp <;> simp [child, hp]

theorem folds_of_value (hp : p.role.Gives .value) (h : p.label.kind ∉ fieldReaders) : p.folds = false := by
  rcases hp with hp | hp <;> simp [folds, hp, h]

theorem folds_of_block (hp : p.role.Gives .block) : p.folds = false := by
  rcases hp with hp | hp <;> simp [folds, hp]

theorem folds_of_handler (hp : p.role.Gives .handler) : p.folds = false := by
  rcases hp with hp | hp <;> simp [folds, hp]

theorem folds_of_statement (hp : p.role.Gives .statement) (h : p.label.kind ∉ partedKinds) :
    p.folds = false := by
  rcases hp with hp | hp <;> simp [folds, hp, h]

theorem sole_ofLabels (role : Role) (label : Label) (children : List Label) :
    (ofLabels role label children).sole = true ↔ role = .statement ∧ label.kind = "expression_statement" ∧
      (children.filter (·.named)).length = 1 := by
  simp [ofLabels, and_assoc]

section ExpressionStatement

variable (hp : p.role.Gives .statement) (hkind : p.label.kind = "expression_statement")
include hp hkind

/-- What is no assignment in an expression statement is an expression. -/
theorem child_of_expressionStatement (hl : l.kind ≠ "assignment" ∧ l.kind ≠ "augmented_assignment") :
    (p.child l).Gives .value := by
  rcases hp with hp | hp <;> simp [child, hp, hkind, partedKinds, hl]

/-- An assignment that is the only one is read as such. -/
theorem child_of_assignment (hsole : p.role = .statement → p.sole = true) (hl : l.kind = "assignment") :
    (p.child l).Gives .binding := by
  rcases hp with hp | hp
  · simp [child, hp]
  · simp [child, hp, hkind, partedKinds, hsole hp, hl]

theorem child_of_augmentedAssignment (hsole : p.role = .statement → p.sole = true)
    (hl : l.kind = "augmented_assignment") : (p.child l).Gives .clause := by
  rcases hp with hp | hp
  · simp [child, hp]
  · simp [child, hp, hkind, partedKinds, hsole hp, hl]

end ExpressionStatement

/-- A statement that is not read by its parts has expressions, and so have several of them in one. -/
theorem child_of_turn (hp : p.role.Gives .statement) (h : p.label.kind ∉ partedKinds)
    (hsole : p.sole = false) : (p.child l).Gives .value := by
  have hmatch : p.label.kind ≠ "match_statement" := by
    intro hkind
    rw [hkind] at h
    exact h (by decide)
  rcases hp with hp | hp <;> simp [child, hp, h, hmatch, hsole]

/-- A reader that goes by the parts of a statement or clause. -/
def Parted (p : Reader) : Prop :=
  ∀ l, p.child l = .whole ∨ p.child l = l.part

theorem parted_of_clause (hp : p.role.Gives .clause) : p.Parted := by
  intro l
  rcases hp with hp | hp
  · exact .inl (by simp [child, hp])
  · exact .inr (by simp [child, hp])

theorem parted_of_statement (hp : p.role.Gives .statement) (h : p.label.kind ∈ partedKinds)
    (hmatch : p.label.kind ≠ "match_statement") : p.Parted := by
  intro l
  rcases hp with hp | hp
  · exact .inl (by simp [child, hp])
  · exact .inr (by simp [child, hp, h, hmatch])

/-- What a part gives, a reader that goes by the parts makes use of. -/
theorem Parted.gives (hp : p.Parted) {need : Role} (h : l.part.Gives need) : (p.child l).Gives need := by
  rcases hp l with hchild | hchild
  · exact .inl hchild
  · rwa [hchild]

end Reader

/-! ## Bare nodes -/

namespace Lowered

mutual

/-- A lowered node in a role: without what is skipped below it, and without the readings that the role does
    not use. -/
def bare (role : Role) : Lowered → Lowered
  | ⟨label, children, expr, stmt, block, binding⟩ =>
    { label := label
      children := bareIn (.ofLabels role label (children.map (·.label))) children
      expr := if role.Gives .value then expr else .other "" []
      stmt := if role.Gives .statement then stmt else none
      block := if role.Gives .block then block else []
      binding := if role.Gives .binding then binding else ([], none) }

/-- The children that a reader looks at, each in its role. -/
def bareIn (p : Reader) : List Lowered → List Lowered
  | [] => []
  | c :: cs => if p.skips c.label then bareIn p cs else c.bare (p.child c.label) :: bareIn p cs

end

/-- A child in the role that its reader has for it. -/
def under (p : Reader) (n : Lowered) : Lowered :=
  n.bare (p.child n.label)

/-- The reader that a lowered node in a role is. -/
def reader (role : Role) (n : Lowered) : Reader :=
  .ofLabels role n.label (n.children.map (·.label))

section

variable (role : Role) (p : Reader) (n : Lowered)

@[simp] theorem bare_label : (n.bare role).label = n.label := by cases n; rfl

@[simp] theorem bare_kind : (n.bare role).kind = n.kind := by cases n; rfl

@[simp] theorem bare_children : (n.bare role).children = bareIn (n.reader role) n.children := by cases n; rfl

@[simp] theorem reader_role : (n.reader role).role = role := rfl

@[simp] theorem reader_label : (n.reader role).label = n.label := rfl

@[simp] theorem under_label : (n.under p).label = n.label := bare_label _ _

@[simp] theorem under_kind : (n.under p).kind = n.kind := bare_kind _ _

@[simp] theorem under_children :
    (n.under p).children = bareIn (n.reader (p.child n.label)) n.children := bare_children _ _

variable {role n}

theorem bare_expr (h : role.Gives .value) : (n.bare role).expr = n.expr := by
  cases n
  exact if_pos h

theorem bare_stmt (h : role.Gives .statement) : (n.bare role).stmt = n.stmt := by
  cases n
  exact if_pos h

theorem bare_block (h : role.Gives .block) : (n.bare role).block = n.block := by
  cases n
  exact if_pos h

theorem bare_binding (h : role.Gives .binding) : (n.bare role).binding = n.binding := by
  cases n
  exact if_pos h

end

/-! ## Selecting bare children -/

variable {src : Source} {p : Reader} {children : List Lowered} {field : String}

theorem field_of_at? {n : Lowered} (h : at? field children = some n) : n.label.field = some field := by
  simpa using List.find?_some h

/-- What is skipped is of no other kind than those of layout. -/
theorem kind_ne_of_skips {n : Lowered} {kind : String} (h : p.skips n.label = true)
    (hcomment : kind ≠ "comment") (hfold : kind ≠ "line_continuation") : n.kind ≠ kind := by
  rintro rfl
  exact (Reader.of_skips h).2.elim hcomment hfold

theorem bareIn_eq_map_filter (p : Reader) (children : List Lowered) :
    bareIn p children = (children.filter fun c => !p.skips c.label).map (under p) := by
  induction children with
  | nil => rfl
  | cons c cs ih =>
    rw [bareIn, ih, List.filter_cons]
    cases p.skips c.label <;> rfl

/-- Whatever picks nothing that is skipped picks the same nodes. -/
theorem filter_bareIn {q : Label → Bool} (h : ∀ l, q l = true → p.skips l = false) (children : List Lowered) :
    (bareIn p children).filter (fun n => q n.label) =
      (children.filter fun n => q n.label).map (under p) := by
  have hq : ((fun n : Lowered => q n.label) ∘ under p) = fun n => q n.label :=
    funext fun n => congrArg q (n.under_label p)
  rw [bareIn_eq_map_filter, List.filter_map, hq, List.filter_filter]
  congr 1
  refine List.filter_congr fun n _ => ?_
  cases hn : q n.label with
  | false => rfl
  | true => rw [h _ hn]; rfl

theorem find?_bareIn {q : Label → Bool} (h : ∀ l, q l = true → p.skips l = false) (children : List Lowered) :
    (bareIn p children).find? (fun n => q n.label) = (children.find? fun n => q n.label).map (under p) := by
  rw [← List.head?_filter, ← List.head?_filter, filter_bareIn h, List.head?_map]

@[simp] theorem named_bareIn : named (bareIn p children) = bareIn p (named children) := by
  have hnamed : ((fun n : Lowered => n.label.named) ∘ under p) = fun n => n.label.named :=
    funext fun n => congrArg Label.named (n.under_label p)
  rw [named, named, bareIn_eq_map_filter, bareIn_eq_map_filter, List.filter_map, hnamed,
    List.filter_filter, List.filter_filter]
  simp only [Bool.and_comm]

@[simp] theorem at?_bareIn (field : String) :
    at? field (bareIn p children) = (at? field children).map (under p) :=
  find?_bareIn (fun _ h => Reader.skips_of_field (decide_eq_true_eq.mp h)) children

@[simp] theorem allAt_bareIn (field : String) :
    allAt field (bareIn p children) = (allAt field children).map (under p) :=
  filter_bareIn (fun _ h => Reader.skips_of_field (decide_eq_true_eq.mp h)) children

@[simp] theorem textAt?_bareIn (field : String) :
    textAt? src field (bareIn p children) = textAt? src field children := by
  rw [textAt?, textAt?, at?_bareIn, Option.map_map]
  congr 1
  exact funext fun n => congrArg (text src) (n.under_label p)

/-- Choosing nodes of a kind that is not one of layout. -/
theorem filter_kind_bareIn (kind : String) (hcomment : kind ≠ "comment")
    (hfold : kind ≠ "line_continuation") :
    (bareIn p children).filter (fun n => n.kind = kind) =
      (children.filter fun n => n.kind = kind).map (under p) := by
  refine filter_bareIn (q := fun l => l.kind = kind) (fun l hl => ?_) children
  obtain rfl : l.kind = kind := decide_eq_true_eq.mp hl
  exact Reader.skips_of_kind hcomment hfold

theorem find?_kind_bareIn (kind : String) (hcomment : kind ≠ "comment") (hfold : kind ≠ "line_continuation") :
    (bareIn p children).find? (fun n => n.kind = kind) =
      (children.find? fun n => n.kind = kind).map (under p) := by
  rw [← List.head?_filter, ← List.head?_filter, filter_kind_bareIn kind hcomment hfold, List.head?_map]

/-- What is made of the chosen nodes is the same when it is for each of them. -/
theorem map_filter_bareIn {β : Type} {q : Label → Bool} {f : Lowered → β}
    (h : ∀ l, q l = true → p.skips l = false) (hf : ∀ n, q n.label = true → f (n.under p) = f n)
    (children : List Lowered) :
    ((bareIn p children).filter fun n => q n.label).map f = (children.filter fun n => q n.label).map f := by
  rw [filter_bareIn h, List.map_map]
  exact List.map_congr_left fun n hn => hf n (List.mem_filter.mp hn).2

theorem map_filter_kind_bareIn {β : Type} {f : Lowered → β} (kind : String) (hcomment : kind ≠ "comment")
    (hfold : kind ≠ "line_continuation") (hf : ∀ n : Lowered, n.kind = kind → f (n.under p) = f n) :
    ((bareIn p children).filter fun n => n.kind = kind).map f =
      (children.filter fun n => n.kind = kind).map f := by
  rw [filter_kind_bareIn kind hcomment hfold, List.map_map]
  exact List.map_congr_left fun n hn => hf n (decide_eq_true_eq.mp (List.mem_filter.mp hn).2)

/-- The node that fills a field, as an expression. -/
theorem map_expr_at?_bareIn (h : ∀ l : Label, l.field = some field → (p.child l).Gives .value) :
    (at? field (bareIn p children)).map (·.expr) = (at? field children).map (·.expr) := by
  rw [at?_bareIn]
  cases hat : at? field children with
  | none => rfl
  | some n => exact congrArg some (bare_expr (h _ (field_of_at? hat)))

theorem exprAt_bareIn (h : ∀ l : Label, l.field = some field → (p.child l).Gives .value) :
    exprAt field (bareIn p children) = exprAt field children := by
  rw [exprAt, exprAt, at?_bareIn]
  cases hat : at? field children with
  | none => rfl
  | some n => exact bare_expr (h _ (field_of_at? hat))

theorem blockAt_bareIn (h : ∀ l : Label, l.field = some field → (p.child l).Gives .block) :
    blockAt field (bareIn p children) = blockAt field children := by
  rw [blockAt, blockAt, at?_bareIn]
  cases hat : at? field children with
  | none => rfl
  | some n => exact bare_block (h _ (field_of_at? hat))

theorem any_kind_bareIn (kind : String) (hcomment : kind ≠ "comment") (hfold : kind ≠ "line_continuation") :
    (bareIn p children).any (fun n => n.kind = kind) = children.any fun n => n.kind = kind := by
  rw [← List.isSome_find?, ← List.isSome_find?, find?_kind_bareIn kind hcomment hfold, Option.isSome_map]

theorem filterMap_bareIn {β : Type} {f : Lowered → Option β}
    (hskip : ∀ n ∈ children, p.skips n.label = true → f n = none) (hf : ∀ n, f (n.under p) = f n) :
    (bareIn p children).filterMap f = children.filterMap f := by
  induction children with
  | nil => rfl
  | cons c cs ih =>
    have htail := ih fun n hn => hskip n (List.mem_cons_of_mem _ hn)
    rw [bareIn]
    split
    · next hskipped => rw [htail, List.filterMap_cons_none (hskip c List.mem_cons_self hskipped)]
    · rw [List.filterMap_cons, List.filterMap_cons, ← hf c, htail]
      rfl

theorem eraseP_bareIn {q : Label → Bool} (h : ∀ l, q l = true → p.skips l = false) (children : List Lowered) :
    (bareIn p children).eraseP (fun n => q n.label) = bareIn p (children.eraseP fun n => q n.label) := by
  induction children with
  | nil => rfl
  | cons c cs ih =>
    rw [bareIn, List.eraseP_cons]
    cases hq : q c.label with
    | true =>
      rw [if_neg (by rw [h _ hq]; decide), List.eraseP_cons, bare_label, hq]
      rfl
    | false =>
      simp only [cond_false]
      rw [bareIn, ← ih]
      split
      · rfl
      · rw [List.eraseP_cons, bare_label, hq]
        rfl

theorem named_map_under : named (children.map (under p)) = (named children).map (under p) := by
  rw [named, named, List.filter_map]
  congr 1
  exact List.filter_congr fun n _ => congrArg Label.named (n.under_label p)

/-! ### Children that are read in turn -/

section InTurn

variable (hp : p.folds = false)
include hp

theorem filter_ne_comment_bareIn :
    (bareIn p children).filter (fun n => n.kind ≠ "comment") =
      (children.filter fun n => n.kind ≠ "comment").map (under p) :=
  filter_bareIn (q := fun l => l.kind ≠ "comment")
    (fun _ h => Reader.skips_of_ne_comment hp (decide_eq_true_eq.mp h)) children

theorem first?_bareIn : first? (bareIn p children) = (first? children).map (under p) := by
  rw [first?, named_bareIn]
  exact find?_bareIn (q := fun l => l.kind ≠ "comment")
    (fun _ h => Reader.skips_of_ne_comment hp (decide_eq_true_eq.mp h)) (named children)

theorem exprs_bareIn (h : ∀ l, (p.child l).Gives .value) : exprs (bareIn p children) = exprs children := by
  rw [exprs, named_bareIn, filter_ne_comment_bareIn hp, List.map_map]
  exact List.map_congr_left fun n _ => bare_expr (h n.label)

/-- A fold whose step passes over comments, and does not look at what a role leaves out. -/
theorem foldl_bareIn {σ : Type} {step : σ → Lowered → σ} (hskip : ∀ s n, n.kind = "comment" → step s n = s)
    (hstep : ∀ s n, step s (n.under p) = step s n) (children : List Lowered) (s : σ) :
    (bareIn p children).foldl step s = children.foldl step s := by
  induction children generalizing s with
  | nil => rfl
  | cons c cs ih =>
    rw [bareIn, List.foldl_cons]
    split
    · next hskipped => rw [ih, hskip s c (Reader.kind_of_skips hp hskipped)]
    · rw [List.foldl_cons, ← hstep s c, ih]
      rfl

/-- A rule that reads comments reads all of its children. -/
theorem bareIn_of_commentReader (h : p.label.kind ∈ commentReaders) :
    bareIn p children = children.map (under p) := by
  rw [bareIn_eq_map_filter, List.filter_eq_self.mpr fun n _ => by
    rw [Reader.skips_of_commentReader hp h]
    rfl]

end InTurn

end Lowered

end ServiceTrace
