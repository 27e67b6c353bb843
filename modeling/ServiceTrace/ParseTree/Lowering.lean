import ServiceTrace.Ast.Basic
import ServiceTrace.ParseTree.Basic
import ServiceTrace.ParseTree.Literal
import ServiceTrace.Text.Blank
import ServiceTrace.Text.Split

/-!
# `ServiceTrace.ParseTree.Lowering` — from parse trees to syntax trees

What a node means depends on its place: the same node may be read as an expression, as a statement,
as a block, or as one side of a chain of assignments. So lowering goes from the leaves up and computes
all of these readings for every node. `Lowered` is a node together with its readings and its lowered
children, and one rule per reading says how it follows from the children.

Comments are children of almost any node. Where a rule asks for *expressions* it skips them; where it
asks for all named children it does not.

## Contents
- **`Lowered`** — a node and its readings.
- **`Lowered.named`**, `at?`, `allAt`, `first?`, `exprs`, `exprAt`, `blockAt` — selecting children.
- **`callOf`**, **`stringOf`**, **`exprOf`** — the reading as an expression.
- **`condOf`**, **`tryOf`**, …, **`stmtOf`** — the reading as a statement.
- **`ParseTree.lower`**, **`ParseTree.body`** — the lowering of a tree.
-/

namespace ServiceTrace

/-- A node of a parse tree with what it means in the places where it can stand. -/
structure Lowered where
  label : Label
  children : List Lowered
  /-- The node read as an expression. -/
  expr : Expr
  /-- The node read as a statement; a comment is none. -/
  stmt : Option Stmt
  /-- The statements among the children. -/
  block : List Stmt
  /-- The node read as an assignment: the targets of the whole chain, and the value at its end. -/
  binding : List Expr × Option Expr

namespace Lowered

/-! ## Selecting children -/

/-- The kind of a node. -/
def kind (n : Lowered) : String :=
  n.label.kind

/-- The named nodes. -/
def named (nodes : List Lowered) : List Lowered :=
  nodes.filter (·.label.named)

/-- The first node that fills a field. -/
def at? (field : String) (nodes : List Lowered) : Option Lowered :=
  nodes.find? (·.label.field = some field)

/-- All nodes that fill a field. -/
def allAt (field : String) (nodes : List Lowered) : List Lowered :=
  nodes.filter (·.label.field = some field)

/-- The first named node that is no comment. -/
def first? (nodes : List Lowered) : Option Lowered :=
  (named nodes).find? (·.kind ≠ "comment")

/-- The named nodes apart from comments, as expressions. -/
def exprs (nodes : List Lowered) : List Expr :=
  ((named nodes).filter (·.kind ≠ "comment")).map (·.expr)

/-- The node that fills a field, as an expression. -/
def exprAt (field : String) (nodes : List Lowered) : Expr :=
  match at? field nodes with
  | some n => n.expr
  | none => .other "missing" []

/-- The statements of the block that fills a field. -/
def blockAt (field : String) (nodes : List Lowered) : List Stmt :=
  match at? field nodes with
  | some n => n.block
  | none => []

/-- Whether the keyword `async` is among the nodes. -/
def hasAsync (nodes : List Lowered) : Bool :=
  nodes.any (·.kind = "async")

/-- The source text of a node. -/
def raw (src : Source) (label : Label) : List Char :=
  src.slice label.start label.stop

/-- The source text of a node, without blanks around it. -/
def text (src : Source) (label : Label) : String :=
  String.ofList (Text.trimBlank (raw src label))

/-- The trimmed text of the node that fills a field. -/
def textAt? (src : Source) (field : String) (nodes : List Lowered) : Option String :=
  (at? field nodes).map fun n => text src n.label

/-- The line where a node begins. -/
def line (src : Source) (label : Label) : Nat :=
  src.line label.start

/-! ## Expressions -/

/-- The arguments of a call so far. -/
structure Arguments where
  args : List Expr
  keywords : List Keyword

/-- One child of an argument list: a comment, a keyword argument, an unpacked mapping, or a positional
    argument. -/
def Arguments.add (src : Source) (given : Arguments) (n : Lowered) : Arguments :=
  if n.kind = "comment" then given
  else if n.kind = "keyword_argument" then
    match at? "name" n.children, at? "value" n.children with
    | some name, some value =>
      { given with keywords := given.keywords ++ [⟨some (text src name.label), value.expr⟩] }
    | _, _ => given
  else if n.kind = "dictionary_splat" then
    match first? n.children with
    | some value => { given with keywords := given.keywords ++ [⟨none, value.expr⟩] }
    | none => given
  else { given with args := given.args ++ [n.expr] }

/-- The arguments of a call. A generator without parentheses of its own is the only argument. -/
def argumentsOf (src : Source) (children : List Lowered) : Arguments :=
  match at? "arguments" children with
  | none => ⟨[], []⟩
  | some n =>
    if n.kind = "argument_list" then (named n.children).foldl (Arguments.add src) ⟨[], []⟩
    else ⟨[n.expr], []⟩

/-- The reading of a `call` node. -/
def callOf (src : Source) (label : Label) (children : List Lowered) : Call :=
  let given := argumentsOf src children
  ⟨exprAt "function" children, given.args, given.keywords, line src label, none⟩

/-- A string literal so far: its finished parts, the text after them, and whether there was an
    interpolation. -/
structure StringParts where
  parts : List Expr
  text : List Char
  interpolated : Bool

/-- The parts with the pending text closed. -/
def StringParts.flush (p : StringParts) : List Expr :=
  if p.text = [] then p.parts else p.parts ++ [.str (String.ofList p.text)]

/-- One child of a string literal. -/
def StringParts.add (src : Source) (isRaw : Bool) (p : StringParts) (n : Lowered) : StringParts :=
  if n.kind = "string_content" ∨ n.kind = "escape_sequence" then
    let content := raw src n.label
    { p with text := p.text ++ (if isRaw then content else unescape content) }
  else if n.kind = "interpolation" then
    let value := ((at? "expression" n.children).or (first? n.children)).map (.formatted ·.expr)
    ⟨p.flush ++ value.toList, [], true⟩
  else p

/-- The reading of a `string` node: a plain string, or text and interpolations in turn. -/
def stringOf (src : Source) (children : List Lowered) : Expr :=
  let isRaw :=
    match (named children).find? (·.kind = "string_start") with
    | some opening => isRawOpening (raw src opening.label)
    | none => false
  let p := (named children).foldl (StringParts.add src isRaw) ⟨[], [], false⟩
  if p.interpolated then .joined p.flush else .str (String.ofList p.text)

/-- The text of a list of plain strings, when all are plain. -/
def plainText? : List Expr → Option (List Char)
  | [] => some []
  | .str value :: rest => (plainText? rest).map (value.toList ++ ·)
  | _ :: _ => none

/-- The reading of adjacent string literals: their parts one after the other. -/
def concatenatedOf (children : List Lowered) : Expr :=
  let parts := (named children).flatMap fun n =>
    match n.expr with
    | .joined inner => inner
    | e => [e]
  match plainText? parts with
  | some text => .str (String.ofList text)
  | none => .joined parts

/-- The kinds of literals that are kept as written. -/
def constantKinds : List String :=
  ["integer", "float", "true", "false", "none", "ellipsis"]

/-- The reading of a node as an expression. -/
def exprOf (src : Source) (label : Label) (children : List Lowered) : Expr :=
  if label.kind = "identifier" then .name (text src label)
  else if label.kind = "attribute" then
    .attribute (exprAt "object" children) ((textAt? src "attribute" children).getD "")
  else if label.kind = "call" then .call (callOf src label children)
  else if label.kind = "string" then stringOf src children
  else if label.kind = "concatenated_string" then concatenatedOf children
  else if label.kind ∈ constantKinds then .constant (text src label)
  else if label.kind = "binary_operator" then
    .binary (exprAt "left" children) ((textAt? src "operator" children).getD "")
      (exprAt "right" children)
  else if label.kind = "parenthesized_expression" then
    match first? children with
    | some inner => inner.expr
    | none => .other "tuple" []
  else .other label.kind (exprs children)

/-! ## Assignments and expression statements -/

/-- The reading of an `assignment` node: its target, and what is on the right of it. A right side that
    is an assignment continues the chain. -/
def bindingOf (children : List Lowered) : List Expr × Option Expr :=
  let target := ((at? "left" children).map (·.expr)).toList
  match at? "right" children with
  | none => (target, none)
  | some right =>
    if right.kind = "assignment" then (target ++ right.binding.1, right.binding.2)
    else (target, some right.expr)

/-- The reading of an expression statement. Several expressions are a tuple. -/
def expressionStatementOf (src : Source) (label : Label) (children : List Lowered) : Stmt :=
  match named children with
  -- a comment counts as an expression here, so it makes a tuple of a single expression
  | [n] =>
    if n.kind = "assignment" then .assign n.binding.1 none n.binding.2 (line src n.label)
    else if n.kind = "augmented_assignment" then
      .assign [exprAt "left" n.children] (textAt? src "operator" n.children)
        ((at? "right" n.children).map (·.expr)) (line src label)
    else .expr n.expr (line src label)
  | nodes => .expr (.other "tuple" (nodes.map (·.expr))) (line src label)

/-! ## Compound statements -/

/-- One `elif` or `else` clause put before the clauses after it. -/
def alternative (src : Source) (n : Lowered) (orelse : List Stmt) : List Stmt :=
  if n.kind = "else_clause" then blockAt "body" n.children
  else if n.kind = "elif_clause" then
    [.cond (exprAt "condition" n.children) (blockAt "consequence" n.children) orelse
      (line src n.label)]
  else orelse

/-- The reading of an `if` statement: every `elif` is an `if` in the `else` of the one before. -/
def condOf (src : Source) (label : Label) (children : List Lowered) : Stmt :=
  .cond (exprAt "condition" children) (blockAt "consequence" children)
    ((allAt "alternative" children).foldr (alternative src) []) (line src label)

/-- The `else` block of a loop. -/
def loopElse (children : List Lowered) : List Stmt :=
  match at? "alternative" children with
  | some clause => blockAt "body" clause.children
  | none => []

/-- The reading of a `for` statement. -/
def forOf (src : Source) (label : Label) (children : List Lowered) : Stmt :=
  .forLoop (exprAt "left" children) (exprAt "right" children) (blockAt "body" children)
    (loopElse children) (hasAsync children) (line src label)

/-- The reading of a `while` statement. -/
def whileOf (src : Source) (label : Label) (children : List Lowered) : Stmt :=
  .whileLoop (exprAt "condition" children) (blockAt "body" children) (loopElse children)
    (line src label)

/-- The reading of a `with` statement. -/
def withOf (src : Source) (label : Label) (children : List Lowered) : Stmt :=
  let clauses := (named children).filter (·.kind = "with_clause")
  let items := clauses.flatMap fun clause =>
    (named clause.children).map fun item => ((at? "value" item.children).getD item).expr
  -- an item without a `value` is its own expression
  .withBlock items (blockAt "body" children) (hasAsync children) (line src label)

/-- The reading of an `except` clause: the expressions before its block, and its block. -/
def handlerOf (src : Source) (n : Lowered) : Handler :=
  let parts := named n.children
  { types := (parts.filter fun part => part.kind ≠ "block" ∧ part.kind ≠ "comment").map (·.expr)
    -- there is one block; of several the last one counts
    body := ((parts.filter (·.kind = "block")).getLast?.map (·.block)).getD []
    line := line src n.label }

/-- The reading of a `try` statement. -/
def tryOf (src : Source) (label : Label) (children : List Lowered) : Stmt :=
  let parts := named children
  let handlers := parts.filter fun n => n.kind = "except_clause" ∨ n.kind = "except_group_clause"
  let orelse := (parts.filter (·.kind = "else_clause")).getLast?.map (blockAt "body" ·.children)
  let finals := parts.filterMap fun n =>
    if n.kind = "finally_clause" then (named n.children).find? (·.kind = "block") else none
  .tryBlock (blockAt "body" children) (handlers.map (handlerOf src)) (orelse.getD [])
    ((finals.getLast?.map (·.block)).getD []) (line src label)

/-- The reading of a `case` clause. -/
def caseOf (src : Source) (n : Lowered) : MatchCase :=
  let patterns := (named n.children).filter (·.kind = "case_pattern")
  { pattern := String.intercalate ", " (patterns.map (text src ·.label))
    guard := (at? "guard" n.children).map fun guard =>
      if guard.kind = "if_clause" then ((first? guard.children).getD guard).expr else guard.expr
    body := blockAt "consequence" n.children }

/-- The reading of a `match` statement. -/
def matchOf (src : Source) (label : Label) (children : List Lowered) : Stmt :=
  let clauses : List Lowered :=
    match at? "body" children with
    | some body => (named body.children).filter (·.kind = "case_clause")
    | none => []
  .matchBlock ((allAt "subject" children).map (·.expr)) (clauses.map (caseOf src)) (line src label)

/-! ## Definitions -/

/-- Whether the kind of a node is one of the two patterns for starred parameters. -/
def isSplat (n : Lowered) : Bool :=
  Text.endsWith "splat_pattern" n.kind

/-- The name of a parameter. A starred parameter keeps its stars. -/
def parameterName (src : Source) (n : Lowered) : String :=
  if n.kind = "identifier" then text src n.label
  else
    match textAt? src "name" n.children with
    | some name => name
    | none =>
      match first? n.children with
      | some inner =>
        if inner.kind = "identifier" ∧ ¬ isSplat n then text src inner.label else text src n.label
      | none => text src n.label

/-- The parameters of a function definition. -/
def parametersOf (src : Source) (children : List Lowered) : List String :=
  match at? "parameters" children with
  | some n => ((named n.children).filter (·.kind ≠ "comment")).map (parameterName src)
  | none => []

/-- The reading of a function definition that has the given decorators. -/
def functionOf (src : Source) (decorators : List Expr) (label : Label) (children : List Lowered) :
    FunctionDef where
  name := (textAt? src "name" children).getD ""
  params := parametersOf src children
  decorators := decorators
  body := blockAt "body" children
  isAsync := hasAsync children
  line := line src label

/-- The reading of a class definition that has the given decorators. -/
def classOf (src : Source) (decorators : List Expr) (label : Label) (children : List Lowered) :
    ClassDef where
  name := (textAt? src "name" children).getD ""
  bases :=
    match at? "superclasses" children with
    | some n => exprs n.children
    | none => []
  decorators := decorators
  body := blockAt "body" children
  line := line src label

/-- The reading of a definition with decorators in front. -/
def decoratedOf (src : Source) (children : List Lowered) : Option Stmt :=
  let decorators := (named children).filterMap fun n =>
    if n.kind = "decorator" then (first? n.children).map (·.expr) else none
  (at? "definition" children).bind fun n =>
    if n.kind = "function_definition" then
      some (.function (functionOf src decorators n.label n.children))
    else if n.kind = "class_definition" then
      some (.classDef (classOf src decorators n.label n.children))
    else n.stmt

/-! ## Imports -/

/-- The names that an import statement mentions. -/
def importNamesOf (src : Source) (nodes : List Lowered) : List ImportName :=
  (named nodes).filterMap fun n =>
    if n.kind = "dotted_name" then some ⟨text src n.label, none⟩
    else if n.kind = "aliased_import" then
      some ⟨(textAt? src "name" n.children).getD "", textAt? src "alias" n.children⟩
    else none

/-- The reading of `from module import names`. The node that names the module is not one of the
    imported names. -/
def importFromOf (src : Source) (label : Label) (children : List Lowered) : Stmt :=
  -- the module is a dotted name as well, and the first child of its field
  .importFrom ((textAt? src "module_name" children).getD "")
    (importNamesOf src (children.eraseP (·.label.field = some "module_name")))
    ((named children).any (·.kind = "wildcard_import")) (line src label)

/-! ## Statements -/

/-- The reading of a node as a statement. -/
def stmtOf (src : Source) (label : Label) (children : List Lowered) : Option Stmt :=
  let here := line src label
  match label.kind with
  | "comment" => none
  | "expression_statement" => some (expressionStatementOf src label children)
  | "if_statement" => some (condOf src label children)
  | "for_statement" => some (forOf src label children)
  | "while_statement" => some (whileOf src label children)
  | "with_statement" => some (withOf src label children)
  | "try_statement" => some (tryOf src label children)
  | "match_statement" => some (matchOf src label children)
  | "function_definition" => some (.function (functionOf src [] label children))
  | "class_definition" => some (.classDef (classOf src [] label children))
  | "decorated_definition" => decoratedOf src children
  | "return_statement" => some (.ret ((first? children).map (·.expr)) here)
  | "raise_statement" => some (.raise (exprs children) here)
  | "delete_statement" => some (.delete (exprs children) here)
  | "pass_statement" => some (.pass here)
  | "break_statement" => some (.breakLoop here)
  | "continue_statement" => some (.continueLoop here)
  | "import_statement" => some (.imports (importNamesOf src children) here)
  | "import_from_statement" => some (importFromOf src label children)
  | kind => some (.other kind (exprs children) here)

/-- A node with the readings that follow from its lowered children. -/
def of (src : Source) (label : Label) (children : List Lowered) : Lowered where
  label := label
  children := children
  expr := exprOf src label children
  stmt := stmtOf src label children
  block := (named children).filterMap (·.stmt)
  binding := bindingOf children

end Lowered

/-! ## Trees -/

mutual

/-- The lowering of a tree. -/
def ParseTree.lower (src : Source) : ParseTree → Lowered
  | ⟨label, children⟩ => Lowered.of src label (ParseTree.lowerAll src children)

/-- The lowering of the children of a node. -/
def ParseTree.lowerAll (src : Source) : List ParseTree → List Lowered
  | [] => []
  | t :: ts => t.lower src :: ParseTree.lowerAll src ts

end

/-- The statements of a module, from its text and its parse tree. -/
def ParseTree.body (text : String) (tree : ParseTree) : List Stmt :=
  (tree.lower (Source.ofString text)).block

end ServiceTrace
