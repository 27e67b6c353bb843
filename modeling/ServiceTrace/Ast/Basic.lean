import ServiceTrace.Route.Basic
import ServiceTrace.Text.Quoted

/-!
# `ServiceTrace.Ast.Basic` — the syntax tree of Python code

The tree keeps what the analysis reasons about: statements with their nested blocks, calls with their
arguments, and the few shapes of expressions that spell URLs. Everything else is an `other` node that
still holds its sub-expressions, so that a call stays reachable wherever it is written.

## Contents
- **`Expr`**, **`Call`**, **`Keyword`** — expressions.
- **`Stmt`** with `FunctionDef`, `ClassDef`, `Handler`, `MatchCase`, `ImportName` — statements.
- **`Expr.dottedName?`**, **`Expr.targetName?`**, **`Expr.render`** — how a callee is named.
-/

namespace ServiceTrace

/-! ## Expressions -/

mutual

/-- An expression. -/
inductive Expr where
  | name (id : String)
  | attribute (value : Expr) (attr : String)
  | call (call : Call)
  /-- A string literal, with its quotes removed and its escapes decoded. -/
  | str (value : String)
  /-- Any other literal, as written. -/
  | constant (text : String)
  /-- A string with interpolations: text and `formatted` parts in order. -/
  | joined (parts : List Expr)
  /-- An interpolation. -/
  | formatted (value : Expr)
  | binary (left : Expr) (op : String) (right : Expr)
  /-- Any other expression: its kind and its sub-expressions. -/
  | other (kind : String) (children : List Expr)

/-- A call. -/
structure Call where
  func : Expr
  args : List Expr
  keywords : List Keyword
  line : Nat
  /-- What is known about the call when it is a routing call. -/
  route : Option Routing

/-- A keyword argument. Unpacked mappings have no name. -/
structure Keyword where
  name : Option String
  value : Expr

end

/-- The argument that a call passes under a keyword, the first one when it is repeated. -/
def Call.keyword? (c : Call) (name : String) : Option Expr :=
  (c.keywords.find? (·.name = some name)).map (·.value)

namespace Expr

/-- The text `a.b.c` of a chain that is made of names and attributes alone. -/
def dottedName? : Expr → Option String
  | .name id => some id
  | .attribute value attr => value.dottedName?.map (· ++ "." ++ attr)
  | _ => none

/-- The name that a callee is tracked under: a plain name, or the last attribute of a chain. -/
def targetName? : Expr → Option String
  | .name id => some id
  | .attribute _ attr => some attr
  | _ => none

/-- A short text for an expression, close to how it is written. -/
def render : Expr → String
  | .name id => id
  | .attribute value attr => value.render ++ "." ++ attr
  | .call ⟨func, _, _, _, _⟩ => func.render ++ "()"
  | .str value => Text.quote value
  | .constant text => text
  | .joined _ => "f\"...\""
  | .formatted value => "\x7b" ++ value.render ++ "\x7d"
  | .binary left op right => left.render ++ " " ++ op ++ " " ++ right.render
  | .other kind _ => "<" ++ kind ++ ">"

end Expr

/-! ## Statements -/

/-- A name that an import statement mentions. -/
structure ImportName where
  name : String
  asName : Option String
deriving DecidableEq

/-- The name that the import binds. -/
def ImportName.bound (n : ImportName) : String :=
  n.asName.getD n.name

mutual

/-- A statement. `line` is always the line where the statement begins. -/
inductive Stmt where
  | expr (value : Expr) (line : Nat)
  /-- Plain, augmented and annotated assignments. -/
  | assign (targets : List Expr) (op : Option String) (value : Option Expr) (line : Nat)
  | cond (test : Expr) (body orelse : List Stmt) (line : Nat)
  | forLoop (target iter : Expr) (body orelse : List Stmt) (isAsync : Bool) (line : Nat)
  | whileLoop (test : Expr) (body orelse : List Stmt) (line : Nat)
  | withBlock (items : List Expr) (body : List Stmt) (isAsync : Bool) (line : Nat)
  | tryBlock (body : List Stmt) (handlers : List Handler) (orelse finalbody : List Stmt)
      (line : Nat)
  | matchBlock (subject : List Expr) (cases : List MatchCase) (line : Nat)
  | function (definition : FunctionDef)
  | classDef (definition : ClassDef)
  | ret (value : Option Expr) (line : Nat)
  | raise (exprs : List Expr) (line : Nat)
  | delete (targets : List Expr) (line : Nat)
  | pass (line : Nat)
  | breakLoop (line : Nat)
  | continueLoop (line : Nat)
  | imports (names : List ImportName) (line : Nat)
  /-- `from module import names`; the module is given as written, leading dots included. -/
  | importFrom (module : String) (names : List ImportName) (wildcard : Bool) (line : Nat)
  /-- Any other statement: its kind and its expressions. -/
  | other (kind : String) (exprs : List Expr) (line : Nat)

/-- A function definition. -/
structure FunctionDef where
  name : String
  params : List String
  decorators : List Expr
  body : List Stmt
  isAsync : Bool
  line : Nat

/-- A class definition. -/
structure ClassDef where
  name : String
  bases : List Expr
  decorators : List Expr
  body : List Stmt
  line : Nat

/-- An `except` clause. -/
structure Handler where
  types : List Expr
  body : List Stmt
  line : Nat

/-- A `case` clause; its pattern is kept as written. -/
structure MatchCase where
  pattern : String
  guard : Option Expr
  body : List Stmt

end

end ServiceTrace
