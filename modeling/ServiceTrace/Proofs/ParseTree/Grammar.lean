import ServiceTrace.Ast.Calls
import ServiceTrace.ParseTree.Lowering

/-!
# `ServiceTrace.Proofs.ParseTree.Grammar` — where calls stand in parse trees

The rules of lowering select children by field and by kind, so what they lose depends on which children a
node can have. `ParseTree.places` says of each kind of node where the grammar of Python lets a call stand
below it, and `ParseTree.Grammatical` that a tree keeps to it at every node. Nodes without calls may stand
anywhere.

The call nodes of a tree are listed by `ParseTree.callNodes`, without those below the nodes that `skip`
picks. Two kinds of nodes are left out of a body by intention (`ParseTree.isApart`): nested definitions and
type annotations. Others are not read, although calls can stand in them (`ParseTree.isLost`).
-/

namespace ServiceTrace

namespace ParseTree

/-- The kind of a node. -/
def kind (t : ParseTree) : String :=
  t.label.kind

/-! ## Call nodes -/

mutual

/-- The call nodes of a tree, each before those below it. Nodes that `skip` picks, asked for their parent and
    themselves, are left out with everything below them. -/
def callNodes (skip : ParseTree → ParseTree → Bool) : ParseTree → List ParseTree
  | ⟨label, children⟩ =>
    (if label.kind = "call" then [⟨label, children⟩] else []) ++
      callNodesIn skip ⟨label, children⟩ children

/-- The call nodes of the children of a node. -/
def callNodesIn (skip : ParseTree → ParseTree → Bool) (parent : ParseTree) : List ParseTree → List ParseTree
  | [] => []
  | c :: cs => (if skip parent c then [] else c.callNodes skip) ++ callNodesIn skip parent cs

end

variable {skip : ParseTree → ParseTree → Bool} {t c n : ParseTree}

theorem mem_callNodesIn {parent : ParseTree} {cs : List ParseTree} :
    n ∈ callNodesIn skip parent cs ↔ ∃ c ∈ cs, skip parent c = false ∧ n ∈ c.callNodes skip := by
  induction cs with
  | nil => simp [callNodesIn]
  | cons c cs ih =>
    rw [callNodesIn, List.mem_append, ih]
    simp only [List.mem_cons, or_and_right, exists_or, exists_eq_left]
    refine or_congr_left ?_
    cases skip parent c <;> simp

theorem mem_callNodes : n ∈ t.callNodes skip ↔
    (t.kind = "call" ∧ n = t) ∨ ∃ c ∈ t.children, skip t c = false ∧ n ∈ c.callNodes skip := by
  obtain ⟨label, children⟩ := t
  rw [callNodes, List.mem_append, mem_callNodesIn]
  refine or_congr_left ?_
  by_cases hkind : label.kind = "call" <;> simp [hkind, kind]

/-- The call that a call node is lowered to. -/
def call (src : Source) (n : ParseTree) : Call :=
  Lowered.callOf src n.label (lowerAll src n.children)

/-- The kinds of nested definitions. -/
def definitionKinds : List String :=
  ["function_definition", "class_definition", "decorated_definition"]

/-- Whether a node is no part of the body that it stands in: a definition, or a type annotation. -/
def isApart (_parent child : ParseTree) : Bool :=
  child.kind ∈ definitionKinds || child.label.field = some "type"

/-- Whether the first named child of a node, comments apart, is a continued line. A rule that asks for the
    first expression then gets the continuation, and what is behind it is not read. -/
def isSevered (t : ParseTree) : Bool :=
  ((t.children.filter (·.label.named)).find? (·.kind ≠ "comment")).any (·.kind = "line_continuation")

/-- Whether a node is one that no rule reads although it belongs to the body: a format specifier, the
    pattern of a `case`, which is kept as text, or an expression behind a continued line. -/
def isLost (parent child : ParseTree) : Bool :=
  child.kind = "format_specifier" || child.kind = "case_pattern" ||
    parent.isSevered && (parent.kind = "return_statement" || parent.kind = "parenthesized_expression") ||
    child.isSevered &&
      (parent.kind = "argument_list" && child.kind = "dictionary_splat" ||
        parent.kind = "case_clause" && child.kind = "if_clause")

/-- The call nodes of a body that are read. -/
def keptCalls (t : ParseTree) : List ParseTree :=
  t.callNodes fun parent child => isApart parent child || isLost parent child

/-- Whether a child holds calls of the body that are read. -/
def holdsCalls (parent child : ParseTree) : Bool :=
  !(isApart parent child || isLost parent child) && !child.keptCalls.isEmpty

theorem not_definition_of_holdsCalls (hk : holdsCalls t c = true) : c.kind ∉ definitionKinds := by
  intro hkind
  have hapart : isApart t c = true := by simp [isApart, hkind]
  simp [holdsCalls, hapart] at hk

/-- The children of these nodes are read only when no continued line comes first. -/
theorem isSevered_of_holdsCalls (hk : holdsCalls t c = true)
    (hkind : t.kind = "return_statement" ∨ t.kind = "parenthesized_expression") : t.isSevered = false := by
  refine Bool.eq_false_iff.mpr fun hsevered => ?_
  have hlost : isLost t c = true := by
    rcases hkind with hkind | hkind <;> simp [isLost, hsevered, hkind]
  simp [holdsCalls, hlost] at hk

/-- An unpacked mapping among arguments, and the condition of a guard, are read only when no continued line
    comes first. -/
theorem isSevered_child_of_holdsCalls (hk : holdsCalls t c = true)
    (hkind : t.kind = "argument_list" ∧ c.kind = "dictionary_splat" ∨
      t.kind = "case_clause" ∧ c.kind = "if_clause") : c.isSevered = false := by
  refine Bool.eq_false_iff.mpr fun hsevered => ?_
  have hlost : isLost t c = true := by
    rcases hkind with ⟨ht, hc⟩ | ⟨ht, hc⟩ <;> simp [isLost, hsevered, ht, hc]
  simp [holdsCalls, hlost] at hk

/-! ## The places of calls -/

/-- A place for children of a node: those that fill a field, those of some kinds, or those that do both. -/
structure Place where
  field : Option String
  /-- The kinds that may stand here; any kind when there are none. -/
  kinds : List String
  /-- Whether the place is for one child at most. -/
  single : Bool

namespace Place

/-- An expression in a field. -/
def expr (field : String) : Place :=
  ⟨some field, [], true⟩

/-- A block in a field. -/
def block (field : String) : Place :=
  ⟨some field, ["block"], true⟩

/-- Any number of children of some kinds. -/
def clauses (kinds : List String) : Place :=
  ⟨none, kinds, false⟩

/-- One child of some kind. -/
def clause (kind : String) : Place :=
  ⟨none, [kind], true⟩

/-- Whether a child may stand in a place. -/
def Admits (p : Place) (child : Label) : Prop :=
  (∀ field ∈ p.field, child.field = some field) ∧ (p.kinds = [] ∨ child.kind ∈ p.kinds)

instance (p : Place) (child : Label) : Decidable (p.Admits child) :=
  inferInstanceAs (Decidable (_ ∧ _))

variable {field kind : String} {kinds : List String} {l : Label}

@[simp] theorem admits_expr : (expr field).Admits l ↔ l.field = some field := by
  simp [Admits, expr]

@[simp] theorem admits_block : (block field).Admits l ↔ l.field = some field ∧ l.kind = "block" := by
  simp [Admits, block]

@[simp] theorem admits_clauses : (clauses kinds).Admits l ↔ kinds = [] ∨ l.kind ∈ kinds := by
  simp [Admits, clauses]

@[simp] theorem admits_clause : (clause kind).Admits l ↔ l.kind = kind := by
  simp [Admits, clause]

/-- Whether a child takes a place: it fills the field, or it is of the kind when there is no field. -/
def isTakenBy (p : Place) (child : Label) : Bool :=
  match p.field with
  | some field => child.field = some field
  | none => child.kind ∈ p.kinds

end Place

/-- The places below a node in which calls can stand. Below nodes of a kind that is not listed calls can stand
    in every child. -/
def places (kind : String) : Option (List Place) :=
  match kind with
  | "identifier" | "integer" | "float" | "true" | "false" | "none" | "ellipsis" | "comment"
  | "line_continuation" | "pass_statement" | "break_statement" | "continue_statement" | "import_statement"
  | "import_from_statement" => some []
  | "attribute" => some [.expr "object"]
  | "call" => some [.expr "function", .expr "arguments"]
  | "keyword_argument" => some [.expr "value"]
  | "string" => some [.clauses ["interpolation"]]
  | "interpolation" => some [.expr "expression"]
  | "binary_operator" | "assignment" | "augmented_assignment" => some [.expr "left", .expr "right"]
  | "if_statement" =>
    some [.expr "condition", .block "consequence",
      ⟨some "alternative", ["elif_clause", "else_clause"], false⟩]
  | "elif_clause" => some [.expr "condition", .block "consequence"]
  | "else_clause" => some [.block "body"]
  | "for_statement" =>
    some [.expr "left", .expr "right", .block "body", ⟨some "alternative", ["else_clause"], true⟩]
  | "while_statement" =>
    some [.expr "condition", .block "body", ⟨some "alternative", ["else_clause"], true⟩]
  | "with_statement" => some [.clauses ["with_clause"], .block "body"]
  | "with_clause" => some [.clauses ["with_item"]]
  | "with_item" => some [.expr "value"]
  | "try_statement" =>
    some [.block "body", .clauses ["except_clause", "except_group_clause"], .clause "else_clause",
      .clause "finally_clause"]
  | "finally_clause" => some [.clause "block"]
  | "match_statement" => some [⟨some "subject", [], false⟩, .block "body"]
  | "case_clause" => some [.expr "guard", .block "consequence"]
  | _ => none

/-- The kinds of nodes that have one expression, without a field. -/
def soleKinds : List String :=
  ["return_statement", "parenthesized_expression", "dictionary_splat", "if_clause"]

/-- Whether a node is an expression among the children of another one. -/
def isExpression (t : ParseTree) : Bool :=
  t.label.named && t.kind ≠ "comment" && t.kind ≠ "line_continuation"

/-- A node whose children stand where the grammar puts them, as far as there are calls in them. -/
structure Fits (t : ParseTree) : Prop where
  /-- Calls stand in named nodes that are no comments. -/
  shown : ∀ c ∈ t.children, holdsCalls t c = true → c.label.named = true ∧ c.kind ≠ "comment"
  placed : ∀ c ∈ t.children, holdsCalls t c = true →
    ∀ ps ∈ places t.kind, ∃ p ∈ ps, p.Admits c.label
  single : ∀ ps ∈ places t.kind, ∀ p ∈ ps, p.single = true →
    t.children.countP (fun c => p.isTakenBy c.label) ≤ 1
  sole : t.kind ∈ soleKinds → t.children.countP isExpression ≤ 1
  /-- Blocks are made of statements. -/
  statements : t.kind = "block" ∨ t.kind = "module" → ∀ c ∈ t.children, c.kind ≠ "call"
  /-- An `else` is the last alternative of an `if`. -/
  else_last : t.kind = "if_statement" →
    ∀ c ∈ (t.children.filter (·.label.field = some "alternative")).dropLast, c.kind ≠ "else_clause"
  /-- An `except` clause has one block. -/
  one_block : t.kind = "except_clause" ∨ t.kind = "except_group_clause" →
    t.children.countP (fun c => c.label.named && c.kind = "block") ≤ 1
  /-- The block of a `match` is made of `case` clauses. -/
  cases : t.kind = "match_statement" → ∀ body ∈ t.children, body.label.field = some "body" →
    ∀ c ∈ body.children, holdsCalls body c = true → c.kind = "case_clause"
  keyword : t.kind = "keyword_argument" → ∃ c ∈ t.children, c.label.field = some "name"

instance (t : ParseTree) : Decidable t.Fits :=
  decidable_of_iff
    ((∀ c ∈ t.children, holdsCalls t c = true → c.label.named = true ∧ c.kind ≠ "comment") ∧
      (∀ c ∈ t.children, holdsCalls t c = true → ∀ ps ∈ places t.kind, ∃ p ∈ ps, p.Admits c.label) ∧
      (∀ ps ∈ places t.kind, ∀ p ∈ ps, p.single = true →
        t.children.countP (fun c => p.isTakenBy c.label) ≤ 1) ∧
      (t.kind ∈ soleKinds → t.children.countP isExpression ≤ 1) ∧
      (t.kind = "block" ∨ t.kind = "module" → ∀ c ∈ t.children, c.kind ≠ "call") ∧
      (t.kind = "if_statement" →
        ∀ c ∈ (t.children.filter (·.label.field = some "alternative")).dropLast, c.kind ≠ "else_clause") ∧
      (t.kind = "except_clause" ∨ t.kind = "except_group_clause" →
        t.children.countP (fun c => c.label.named && c.kind = "block") ≤ 1) ∧
      (t.kind = "match_statement" → ∀ body ∈ t.children, body.label.field = some "body" →
        ∀ c ∈ body.children, holdsCalls body c = true → c.kind = "case_clause") ∧
      (t.kind = "keyword_argument" → ∃ c ∈ t.children, c.label.field = some "name"))
    ⟨fun ⟨h₁, h₂, h₃, h₄, h₅, h₆, h₇, h₈, h₉⟩ => ⟨h₁, h₂, h₃, h₄, h₅, h₆, h₇, h₈, h₉⟩,
      fun ⟨h₁, h₂, h₃, h₄, h₅, h₆, h₇, h₈, h₉⟩ => ⟨h₁, h₂, h₃, h₄, h₅, h₆, h₇, h₈, h₉⟩⟩

mutual

/-- Whether something holds of every node of a tree. -/
def everywhere (p : ParseTree → Bool) : ParseTree → Bool
  | ⟨label, children⟩ => p ⟨label, children⟩ && everywhereIn p children

def everywhereIn (p : ParseTree → Bool) : List ParseTree → Bool
  | [] => true
  | c :: cs => c.everywhere p && everywhereIn p cs

end

theorem everywhereIn_iff {p : ParseTree → Bool} {cs : List ParseTree} :
    everywhereIn p cs = true ↔ ∀ c ∈ cs, c.everywhere p = true := by
  induction cs with
  | nil => simp [everywhereIn]
  | cons c cs ih => rw [everywhereIn, Bool.and_eq_true, ih, List.forall_mem_cons]

/-- A tree in which calls stand where the grammar puts them, at every node. -/
def Grammatical (t : ParseTree) : Prop :=
  t.everywhere (fun u => decide u.Fits) = true

instance (t : ParseTree) : Decidable t.Grammatical :=
  inferInstanceAs (Decidable (_ = _))

/-- Every node fits the grammar. -/
theorem grammatical_iff : t.Grammatical ↔ t.Fits ∧ ∀ c ∈ t.children, c.Grammatical := by
  obtain ⟨label, children⟩ := t
  rw [Grammatical, everywhere, Bool.and_eq_true, decide_eq_true_eq, everywhereIn_iff]
  rfl

end ParseTree

end ServiceTrace
