import ServiceTrace.Ast.Basic

/-!
# `ServiceTrace.Ast.Declarations` — what a module body declares

A module makes functions visible by name: the functions at its top level, and the methods of its
top-level classes. Names are unique. Among methods the first definition of a name counts, a top-level
function replaces what was declared under its name before.

## Contents
- **`Stmt.methodsIn`**, **`Stmt.topLevelIn`** — the definitions that take part.
- **`Stmt.functionsIn`** — the declared functions; **`Stmt.functionIn?`** — one of them by its name.
- **`Stmt.topImportsIn`** — the import statements at the top level.
-/

namespace ServiceTrace.Stmt

/-- The function definitions among the statements of a body. -/
def topLevelIn (body : List Stmt) : List FunctionDef :=
  body.filterMap fun
    | .function d => some d
    | _ => none

/-- The methods of the classes among the statements of a body, class by class. -/
def methodsIn (body : List Stmt) : List FunctionDef :=
  body.flatMap fun
    | .classDef c => topLevelIn c.body
    | _ => []

/-- Declares a function unless its name is taken. -/
def declareNew (declared : List FunctionDef) (d : FunctionDef) : List FunctionDef :=
  if declared.any (·.name = d.name) then declared else declared ++ [d]

/-- Declares a function in place of any other of its name. -/
def redeclare (declared : List FunctionDef) (d : FunctionDef) : List FunctionDef :=
  declared.filter (·.name ≠ d.name) ++ [d]

/-- The functions that a module body declares: methods first, then top-level functions. -/
def functionsIn (body : List Stmt) : List FunctionDef :=
  (topLevelIn body).foldl redeclare ((methodsIn body).foldl declareNew [])

/-- The declared function of a name. -/
def functionIn? (body : List Stmt) (name : String) : Option FunctionDef :=
  (functionsIn body).find? (·.name = name)

/-- The import statements at the top level of a module body. -/
def topImportsIn (body : List Stmt) : List Stmt :=
  body.filter fun
    | .imports _ _ | .importFrom _ _ _ _ => true
    | _ => false

end ServiceTrace.Stmt
