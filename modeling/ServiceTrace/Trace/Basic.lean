import ServiceTrace.Ast.Calls
import ServiceTrace.Ast.Declarations
import ServiceTrace.Import.Table

/-!
# `ServiceTrace.Trace.Basic` — functions, modules and call sites of a trace

A trace starts at one function and follows its calls through the project. Every function that it
reaches is a *unit*, with the body in which routing calls are annotated. A call is understood in the
*scope* of its unit: the names that the module declares, and the imports of the function over those of
the module.

## Contents
- **`Scope`**, **`CallTarget`**, **`Scope.classify`** — what a call refers to.
- **`FunctionUnit`**, **`TracedModule`**, **`Trace`**.
- **`CallSite`**, **`sitesOf`** — the calls of a unit with their targets.
-/

namespace ServiceTrace

/-! ## What a call refers to -/

/-- The names that calls in a function body are looked up in. -/
structure Scope where
  declared : NameSet
  imports : ImportTable

/-- What a call refers to. -/
inductive CallTarget where
  /-- A routing call. -/
  | route
  /-- A function that the calling module declares. -/
  | declared (name : String)
  /-- A function qualified through the imports. -/
  | imported (hit : Qualified)
  /-- A name or a chain that nothing is known about. -/
  | unknown
  /-- A callee that is neither a name nor an attribute. -/
  | unrecognized
deriving DecidableEq

/-- What follows `self.` or `cls.` in a chain. -/
def ownMember? (chain : String) : Option String :=
  (Text.dropStart? "self." chain).or (Text.dropStart? "cls." chain)

namespace Scope

/-- The target of a plain name: a declared function, or what the imports say. -/
def classifyName (scope : Scope) (name : String) : CallTarget :=
  if name ∈ scope.declared then .declared name
  else
    match scope.imports.plain? name with
    | some hit => .imported hit
    | none => .unknown

/-- The target of a chain: a method called on `self` or `cls`, or what the imports say. -/
def classifyChain (scope : Scope) (chain : String) : CallTarget :=
  match (ownMember? chain).filter (· ∈ scope.declared) with
  | some name => .declared name
  | none =>
    match scope.imports.attribute? chain with
    | some hit => .imported hit
    | none => .unknown

/-- The target of a call. -/
def classify (scope : Scope) (c : Call) : CallTarget :=
  if c.route.isSome then .route
  else
    match c.func with
    | .name id => scope.classifyName id
    | .attribute value attr =>
      match (Expr.attribute value attr).dottedName? with
      | some chain => scope.classifyChain chain
      | none => .unknown
    | _ => .unrecognized

end Scope

/-! ## Units and modules -/

/-- A function that a trace has reached. -/
structure FunctionUnit where
  id : Nat
  module : String
  name : String
  file : Path
  line : Nat
  /-- The body, with its routing calls annotated. -/
  body : List Stmt
  /-- The imports written inside the body. Only this function sees them. -/
  localImports : ImportTable

/-- A module that a trace has read. -/
structure TracedModule where
  name : String
  ref : ModuleRef
  functions : List FunctionDef
  /-- The names of `functions`. -/
  declared : NameSet
  imports : ImportTable
  /-- The names that are called in the module. -/
  references : NameSet
  /-- The names of those calls in its units that lead to a unit or a route. -/
  tracked : NameSet

/-- The scope inside a function of a module. -/
def TracedModule.scope (m : TracedModule) (localImports : ImportTable) : Scope where
  declared := m.declared
  imports := if localImports.isEmpty then m.imports else localImports.shadowing m.imports

/-- The module of a name. -/
def moduleIn? (modules : List TracedModule) (name : String) : Option TracedModule :=
  modules.find? (·.name = name)

/-- The position of the unit for a function of a module. -/
def unitIdIn? (units : List FunctionUnit) (module name : String) : Option Nat :=
  (units.find? fun u => u.module = module ∧ u.name = name).map (·.id)

/-! ## Call sites -/

/-- A call in the body of a unit, and what it refers to there. -/
structure CallSite where
  unit : FunctionUnit
  call : Call
  target : CallTarget

/-- The call sites of a unit, in the order of its body. -/
def sitesOf (modules : List TracedModule) (u : FunctionUnit) : List CallSite :=
  match moduleIn? modules u.module with
  | none => []
  | some m =>
    let scope := m.scope u.localImports
    (Stmt.callsIn u.body).map fun c => ⟨u, c, scope.classify c⟩

/-! ## Traces -/

/-- Everything that is reachable from an entry function. -/
structure Trace where
  entry : Nat
  units : List FunctionUnit
  modules : List TracedModule

namespace Trace

/-- The module of a name. -/
def module? (t : Trace) (name : String) : Option TracedModule :=
  moduleIn? t.modules name

/-- The position of the unit for a function of a module. -/
def unitId? (t : Trace) (module name : String) : Option Nat :=
  unitIdIn? t.units module name

/-- The names that are tracked in a module. -/
def trackedIn (t : Trace) (module : String) : NameSet :=
  match t.module? module with
  | some m => m.tracked
  | none => .empty

/-- The call sites of the unit at a position. -/
def sitesAt (t : Trace) (id : Nat) : List CallSite :=
  match t.units[id]? with
  | some u => sitesOf t.modules u
  | none => []

end Trace

end ServiceTrace
