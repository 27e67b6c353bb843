import ServiceTrace.Ast.Calls
import ServiceTrace.NameSet

/-!
# `ServiceTrace.Prune` — a body reduced to its tracked calls

A reduced body keeps the statements that hold a tracked call, a call whose callee ends in one of the
given names. A reduced block is non-empty exactly when it still holds a tracked call, and every
decision about a branch is taken on reduced blocks, so that reducing a body once more changes nothing.

- Definitions, imports, `return`, `delete` and the jumps go.
- A conditional without a tracked call in its test gives way to its only non-empty branch.
- A loop gives way to its reduced block.
- `with` and `try` stay when anything in them is tracked, with their blocks reduced.
- `match` and simple statements stay whole, or go.

## Contents
- **`isTracked`** — which calls are tracked.
- **`Stmt.prune`**, **`Stmt.pruneIn`** — a statement and a body reduced.
-/

namespace ServiceTrace

/-- Whether the callee of a call ends in a tracked name. -/
def isTracked (tracked : NameSet) (c : Call) : Bool :=
  c.func.targetName?.any (· ∈ tracked)

mutual

/-- What is left of a statement. -/
def Stmt.prune (tracked : NameSet) : Stmt → List Stmt
  | .function _ | .classDef _ | .ret _ _ | .breakLoop _ | .continueLoop _ | .pass _
  | .delete _ _ | .imports _ _ | .importFrom _ _ _ _ => []
  | .cond test body orelse line =>
    let body := Stmt.pruneIn tracked body
    let orelse := Stmt.pruneIn tracked orelse
    if test.hasCall (isTracked tracked) then [.cond test body orelse line]
    else if body.isEmpty then orelse
    else if orelse.isEmpty then body
    else [.cond test body orelse line]
  | .forLoop _ _ body _ _ _ => Stmt.pruneIn tracked body
  | .whileLoop _ body _ _ => Stmt.pruneIn tracked body
  | .withBlock items body isAsync line =>
    let body := Stmt.pruneIn tracked body
    if !body.isEmpty || items.any (·.hasCall (isTracked tracked)) then
      [.withBlock items body isAsync line]
    else []
  | .tryBlock body handlers orelse finalbody line =>
    let body := Stmt.pruneIn tracked body
    let handlers := Handler.pruneAll tracked handlers
    let orelse := Stmt.pruneIn tracked orelse
    let finalbody := Stmt.pruneIn tracked finalbody
    let keeps (h : Handler) : Bool :=
      !h.body.isEmpty || h.types.any (·.hasCall (isTracked tracked))
    if !body.isEmpty || !orelse.isEmpty || !finalbody.isEmpty || handlers.any keeps then
      [.tryBlock body handlers orelse finalbody line]
    else []
  | .expr value line => keepTracked tracked (.expr value line)
  | .assign targets op value line => keepTracked tracked (.assign targets op value line)
  | .matchBlock subject cases line => keepTracked tracked (.matchBlock subject cases line)
  | .raise exprs line => keepTracked tracked (.raise exprs line)
  | .other kind exprs line => keepTracked tracked (.other kind exprs line)
where
  /-- A statement that stays whole when it holds a tracked call. -/
  keepTracked (tracked : NameSet) (s : Stmt) : List Stmt :=
    if s.hasCall (isTracked tracked) then [s] else []

/-- What is left of a body. -/
def Stmt.pruneIn (tracked : NameSet) : List Stmt → List Stmt
  | [] => []
  | s :: ss => s.prune tracked ++ Stmt.pruneIn tracked ss

/-- `except` clauses with their blocks reduced. -/
def Handler.pruneAll (tracked : NameSet) : List Handler → List Handler
  | [] => []
  | h :: hs => h.prune tracked :: Handler.pruneAll tracked hs

/-- An `except` clause with its block reduced. -/
def Handler.prune (tracked : NameSet) : Handler → Handler
  | ⟨types, body, line⟩ => ⟨types, Stmt.pruneIn tracked body, line⟩

end

end ServiceTrace
