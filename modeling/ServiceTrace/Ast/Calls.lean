import ServiceTrace.Ast.Basic

/-!
# `ServiceTrace.Ast.Calls` — the calls of a body

Three traversals meet the calls of a list of statements. `Stmt.callsIn` lists them, `Stmt.visitIn`
passes them to a visitor that may change the marks of each, and `Stmt.hasCall` asks whether one of
them satisfies a predicate. The order is the same throughout: a call comes before the calls in its
callee and its arguments, and what a statement evaluates itself comes before its blocks, clause by
clause for `try` and `match`. Nested function and class definitions are bodies of their own: the
first two traversals leave them out, the third one looks into them.

## Contents
- **`Expr.calls`**, **`Stmt.calls`**, **`Stmt.callsIn`** — the list of calls.
- **`CallMarks`**, **`Expr.visit`**, **`Stmt.visit`**, **`Stmt.visitIn`** — the visit.
- **`Stmt.header`**, **`Stmt.blocks`** — what a statement evaluates itself, and its blocks.
- **`Expr.hasCall`**, **`Stmt.hasCall`** — the test.
- **`Stmt.importsIn`** — the import statements of a body, nested blocks included.
-/

namespace ServiceTrace

/-! ## Listing -/

mutual

/-- The calls in an expression, each before those inside it. -/
def Expr.calls : Expr → List Call
  | .name _ | .str _ | .constant _ => []
  | .attribute value _ => value.calls
  | .call c => c :: c.innerCalls
  | .joined parts => Expr.callsIn parts
  | .formatted value => value.calls
  | .binary left _ right => left.calls ++ right.calls
  | .other _ children => Expr.callsIn children

/-- The calls in the callee and the arguments of a call. -/
def Call.innerCalls : Call → List Call
  | ⟨func, args, keywords, _, _⟩ => func.calls ++ (Expr.callsIn args ++ Keyword.callsIn keywords)

/-- The calls in expressions, from left to right. -/
def Expr.callsIn : List Expr → List Call
  | [] => []
  | e :: es => e.calls ++ Expr.callsIn es

/-- The calls in the values of keyword arguments. -/
def Keyword.callsIn : List Keyword → List Call
  | [] => []
  | k :: ks => k.calls ++ Keyword.callsIn ks

/-- The calls in the value of a keyword argument. -/
def Keyword.calls : Keyword → List Call
  | ⟨_, value⟩ => value.calls

end

/-- The calls in an expression that may be missing. -/
def Expr.callsIn? : Option Expr → List Call
  | none => []
  | some e => e.calls

mutual

/-- The calls of a statement, nested blocks included. -/
def Stmt.calls : Stmt → List Call
  | .expr value _ => value.calls
  | .assign targets _ value _ => Expr.callsIn? value ++ Expr.callsIn targets
  | .cond test body orelse _ => test.calls ++ (Stmt.callsIn body ++ Stmt.callsIn orelse)
  | .forLoop target iter body orelse _ _ =>
    iter.calls ++ (target.calls ++ (Stmt.callsIn body ++ Stmt.callsIn orelse))
  | .whileLoop test body orelse _ => test.calls ++ (Stmt.callsIn body ++ Stmt.callsIn orelse)
  | .withBlock items body _ _ => Expr.callsIn items ++ Stmt.callsIn body
  | .tryBlock body handlers orelse finalbody _ =>
    Stmt.callsIn body ++ (Handler.callsIn handlers ++ (Stmt.callsIn orelse ++ Stmt.callsIn finalbody))
  | .matchBlock subject cases _ => Expr.callsIn subject ++ MatchCase.callsIn cases
  | .ret value _ => Expr.callsIn? value
  | .raise exprs _ | .delete exprs _ | .other _ exprs _ => Expr.callsIn exprs
  | .function _ | .classDef _ => []
  | .pass _ | .breakLoop _ | .continueLoop _ | .imports _ _ | .importFrom _ _ _ _ => []

/-- The calls of a body: those of its statements in order. -/
def Stmt.callsIn : List Stmt → List Call
  | [] => []
  | s :: ss => s.calls ++ Stmt.callsIn ss

/-- The calls of `except` clauses. -/
def Handler.callsIn : List Handler → List Call
  | [] => []
  | h :: hs => h.calls ++ Handler.callsIn hs

/-- The calls of an `except` clause: its types, then its block. -/
def Handler.calls : Handler → List Call
  | ⟨types, body, _⟩ => Expr.callsIn types ++ Stmt.callsIn body

/-- The calls of `case` clauses. -/
def MatchCase.callsIn : List MatchCase → List Call
  | [] => []
  | c :: cs => c.calls ++ MatchCase.callsIn cs

/-- The calls of a `case` clause: its guard, then its block. -/
def MatchCase.calls : MatchCase → List Call
  | ⟨_, guard, body⟩ => Expr.callsIn? guard ++ Stmt.callsIn body

end

/-! ## Visiting -/

/-- The part of a call that a visitor may change. -/
structure CallMarks where
  line : Nat
  route : Option Routing

/-- A visitor sees each call before the calls inside it and answers with the marks the call is to
    carry from then on. -/
abbrev Visitor (σ : Type) := Call → StateM σ CallMarks

mutual

/-- An expression after a visit. -/
def Expr.visit {σ : Type} (visitor : Visitor σ) : Expr → StateM σ Expr
  | .name id => pure (.name id)
  | .attribute value attr => return .attribute (← value.visit visitor) attr
  | .call c => return .call (← c.visit visitor)
  | .str value => pure (.str value)
  | .constant text => pure (.constant text)
  | .joined parts => return .joined (← Expr.visitIn visitor parts)
  | .formatted value => return .formatted (← value.visit visitor)
  | .binary left op right => return .binary (← left.visit visitor) op (← right.visit visitor)
  | .other kind children => return .other kind (← Expr.visitIn visitor children)

/-- A call after a visit: first the call itself, then its callee and its arguments. -/
def Call.visit {σ : Type} (visitor : Visitor σ) : Call → StateM σ Call
  | ⟨func, args, keywords, line, route⟩ => do
    let marks ← visitor ⟨func, args, keywords, line, route⟩
    let func ← func.visit visitor
    let args ← Expr.visitIn visitor args
    let keywords ← Keyword.visitIn visitor keywords
    return ⟨func, args, keywords, marks.line, marks.route⟩

/-- Expressions after a visit, from left to right. -/
def Expr.visitIn {σ : Type} (visitor : Visitor σ) : List Expr → StateM σ (List Expr)
  | [] => pure []
  | e :: es => return (← e.visit visitor) :: (← Expr.visitIn visitor es)

/-- Keyword arguments after a visit. -/
def Keyword.visitIn {σ : Type} (visitor : Visitor σ) : List Keyword → StateM σ (List Keyword)
  | [] => pure []
  | k :: ks => return (← k.visit visitor) :: (← Keyword.visitIn visitor ks)

/-- A keyword argument after a visit. -/
def Keyword.visit {σ : Type} (visitor : Visitor σ) : Keyword → StateM σ Keyword
  | ⟨name, value⟩ => return ⟨name, ← value.visit visitor⟩

end

/-- An expression that may be missing, after a visit. -/
def Expr.visitIn? {σ : Type} (visitor : Visitor σ) : Option Expr → StateM σ (Option Expr)
  | none => pure none
  | some e => return some (← e.visit visitor)

mutual

/-- A statement after a visit. Definitions are left as they are. -/
def Stmt.visit {σ : Type} (visitor : Visitor σ) : Stmt → StateM σ Stmt
  | .expr value line => return .expr (← value.visit visitor) line
  | .assign targets op value line => do
    let value ← Expr.visitIn? visitor value
    return .assign (← Expr.visitIn visitor targets) op value line
  | .cond test body orelse line => do
    let test ← test.visit visitor
    let body ← Stmt.visitIn visitor body
    return .cond test body (← Stmt.visitIn visitor orelse) line
  | .forLoop target iter body orelse isAsync line => do
    let iter ← iter.visit visitor
    let target ← target.visit visitor
    let body ← Stmt.visitIn visitor body
    return .forLoop target iter body (← Stmt.visitIn visitor orelse) isAsync line
  | .whileLoop test body orelse line => do
    let test ← test.visit visitor
    let body ← Stmt.visitIn visitor body
    return .whileLoop test body (← Stmt.visitIn visitor orelse) line
  | .withBlock items body isAsync line => do
    let items ← Expr.visitIn visitor items
    return .withBlock items (← Stmt.visitIn visitor body) isAsync line
  | .tryBlock body handlers orelse finalbody line => do
    let body ← Stmt.visitIn visitor body
    let handlers ← Handler.visitIn visitor handlers
    let orelse ← Stmt.visitIn visitor orelse
    return .tryBlock body handlers orelse (← Stmt.visitIn visitor finalbody) line
  | .matchBlock subject cases line => do
    let subject ← Expr.visitIn visitor subject
    return .matchBlock subject (← MatchCase.visitIn visitor cases) line
  | .ret value line => return .ret (← Expr.visitIn? visitor value) line
  | .raise exprs line => return .raise (← Expr.visitIn visitor exprs) line
  | .delete targets line => return .delete (← Expr.visitIn visitor targets) line
  | .other kind exprs line => return .other kind (← Expr.visitIn visitor exprs) line
  | .function definition => pure (.function definition)
  | .classDef definition => pure (.classDef definition)
  | .pass line => pure (.pass line)
  | .breakLoop line => pure (.breakLoop line)
  | .continueLoop line => pure (.continueLoop line)
  | .imports names line => pure (.imports names line)
  | .importFrom module names wildcard line => pure (.importFrom module names wildcard line)

/-- A body after a visit. -/
def Stmt.visitIn {σ : Type} (visitor : Visitor σ) : List Stmt → StateM σ (List Stmt)
  | [] => pure []
  | s :: ss => return (← s.visit visitor) :: (← Stmt.visitIn visitor ss)

/-- `except` clauses after a visit. -/
def Handler.visitIn {σ : Type} (visitor : Visitor σ) : List Handler → StateM σ (List Handler)
  | [] => pure []
  | h :: hs => return (← h.visit visitor) :: (← Handler.visitIn visitor hs)

/-- An `except` clause after a visit. -/
def Handler.visit {σ : Type} (visitor : Visitor σ) : Handler → StateM σ Handler
  | ⟨types, body, line⟩ => do
    let types ← Expr.visitIn visitor types
    return ⟨types, ← Stmt.visitIn visitor body, line⟩

/-- `case` clauses after a visit. -/
def MatchCase.visitIn {σ : Type} (visitor : Visitor σ) : List MatchCase → StateM σ (List MatchCase)
  | [] => pure []
  | c :: cs => return (← c.visit visitor) :: (← MatchCase.visitIn visitor cs)

/-- A `case` clause after a visit. -/
def MatchCase.visit {σ : Type} (visitor : Visitor σ) : MatchCase → StateM σ MatchCase
  | ⟨pattern, guard, body⟩ => do
    let guard ← Expr.visitIn? visitor guard
    return ⟨pattern, guard, ← Stmt.visitIn visitor body⟩

end

/-! ## Parts of a statement -/

/-- The expressions that a statement evaluates itself, outside its blocks. -/
def Stmt.header : Stmt → List Expr
  | .expr value _ => [value]
  | .assign targets _ value _ => value.toList ++ targets
  | .cond test _ _ _ | .whileLoop test _ _ _ => [test]
  | .forLoop target iter _ _ _ _ => [iter, target]
  | .withBlock items _ _ _ => items
  | .tryBlock _ handlers _ _ _ => handlers.flatMap (·.types)
  | .matchBlock subject cases _ => subject ++ cases.filterMap (·.guard)
  | .ret value _ => value.toList
  | .raise exprs _ | .delete exprs _ | .other _ exprs _ => exprs
  | _ => []

/-- The blocks of a statement, in the order they are written. -/
def Stmt.blocks : Stmt → List (List Stmt)
  | .cond _ body orelse _ | .forLoop _ _ body orelse _ _ | .whileLoop _ body orelse _ =>
    [body, orelse]
  | .withBlock _ body _ _ => [body]
  | .tryBlock body handlers orelse finalbody _ =>
    body :: handlers.map (·.body) ++ [orelse, finalbody]
  | .matchBlock _ cases _ => cases.map (·.body)
  | _ => []

/-! ## Testing -/

/-- Whether some call in an expression satisfies `p`. -/
def Expr.hasCall (p : Call → Bool) (e : Expr) : Bool :=
  e.calls.any p

mutual

/-- Whether some call under a statement satisfies `p`, nested definitions with their decorators and
    bases included. -/
def Stmt.hasCall (p : Call → Bool) : Stmt → Bool
  | .function d => d.hasCall p
  | .classDef d => d.hasCall p
  | .cond test body orelse _ => test.hasCall p || Stmt.anyHasCall p body || Stmt.anyHasCall p orelse
  | .forLoop target iter body orelse _ _ =>
    iter.hasCall p || target.hasCall p || Stmt.anyHasCall p body || Stmt.anyHasCall p orelse
  | .whileLoop test body orelse _ =>
    test.hasCall p || Stmt.anyHasCall p body || Stmt.anyHasCall p orelse
  | .withBlock items body _ _ => items.any (·.hasCall p) || Stmt.anyHasCall p body
  | .tryBlock body handlers orelse finalbody _ =>
    Stmt.anyHasCall p body || Handler.anyHasCall p handlers || Stmt.anyHasCall p orelse ||
      Stmt.anyHasCall p finalbody
  | .matchBlock subject cases _ => subject.any (·.hasCall p) || MatchCase.anyHasCall p cases
  | .expr value _ => value.hasCall p
  | .assign targets _ value _ => value.any (·.hasCall p) || targets.any (·.hasCall p)
  | .ret value _ => value.any (·.hasCall p)
  | .raise exprs _ | .delete exprs _ | .other _ exprs _ => exprs.any (·.hasCall p)
  | .pass _ | .breakLoop _ | .continueLoop _ | .imports _ _ | .importFrom _ _ _ _ => false

/-- Whether some call in a function definition satisfies `p`. -/
def FunctionDef.hasCall (p : Call → Bool) : FunctionDef → Bool
  | ⟨_, _, decorators, body, _, _⟩ => decorators.any (·.hasCall p) || Stmt.anyHasCall p body

/-- Whether some call in a class definition satisfies `p`. -/
def ClassDef.hasCall (p : Call → Bool) : ClassDef → Bool
  | ⟨_, bases, decorators, body, _⟩ =>
    decorators.any (·.hasCall p) || bases.any (·.hasCall p) || Stmt.anyHasCall p body

/-- Whether some call in a body satisfies `p`. -/
def Stmt.anyHasCall (p : Call → Bool) : List Stmt → Bool
  | [] => false
  | s :: ss => s.hasCall p || Stmt.anyHasCall p ss

/-- Whether some call in `except` clauses satisfies `p`. -/
def Handler.anyHasCall (p : Call → Bool) : List Handler → Bool
  | [] => false
  | h :: hs => h.hasCall p || Handler.anyHasCall p hs

/-- Whether some call in an `except` clause satisfies `p`. -/
def Handler.hasCall (p : Call → Bool) : Handler → Bool
  | ⟨types, body, _⟩ => types.any (·.hasCall p) || Stmt.anyHasCall p body

/-- Whether some call in `case` clauses satisfies `p`. -/
def MatchCase.anyHasCall (p : Call → Bool) : List MatchCase → Bool
  | [] => false
  | c :: cs => c.hasCall p || MatchCase.anyHasCall p cs

/-- Whether some call in a `case` clause satisfies `p`. -/
def MatchCase.hasCall (p : Call → Bool) : MatchCase → Bool
  | ⟨_, guard, body⟩ => guard.any (·.hasCall p) || Stmt.anyHasCall p body

end

/-! ## Imports -/

mutual

/-- The import statements of a statement, nested blocks included, definitions left out. -/
def Stmt.nestedImports : Stmt → List Stmt
  | .imports names line => [.imports names line]
  | .importFrom module names wildcard line => [.importFrom module names wildcard line]
  | .cond _ body orelse _ | .forLoop _ _ body orelse _ _ | .whileLoop _ body orelse _ =>
    Stmt.importsIn body ++ Stmt.importsIn orelse
  | .withBlock _ body _ _ => Stmt.importsIn body
  | .tryBlock body handlers orelse finalbody _ =>
    Stmt.importsIn body ++ (Handler.importsIn handlers ++
      (Stmt.importsIn orelse ++ Stmt.importsIn finalbody))
  | .matchBlock _ cases _ => MatchCase.importsIn cases
  | _ => []

/-- The import statements of a body, nested blocks included. -/
def Stmt.importsIn : List Stmt → List Stmt
  | [] => []
  | s :: ss => s.nestedImports ++ Stmt.importsIn ss

/-- The import statements in `except` clauses. -/
def Handler.importsIn : List Handler → List Stmt
  | [] => []
  | h :: hs => h.nestedImports ++ Handler.importsIn hs

/-- The import statements in an `except` clause. -/
def Handler.nestedImports : Handler → List Stmt
  | ⟨_, body, _⟩ => Stmt.importsIn body

/-- The import statements in `case` clauses. -/
def MatchCase.importsIn : List MatchCase → List Stmt
  | [] => []
  | c :: cs => c.nestedImports ++ MatchCase.importsIn cs

/-- The import statements in a `case` clause. -/
def MatchCase.nestedImports : MatchCase → List Stmt
  | ⟨_, _, body⟩ => Stmt.importsIn body

end

end ServiceTrace
