import ServiceTrace.Error
import ServiceTrace.Route.Client
import ServiceTrace.Trace.Basic

/-!
# `ServiceTrace.Trace.Explore` — following calls through a project

Units are numbered in the order they are reached and visited in the same order, so the units that
still have to be visited are always the last ones of the list. Visiting a unit follows its call sites
from first to last: a call of a declared function or of an imported one asks for the unit of that
function, which is added when its module declares it. Modules are read when they are first asked for.
A module that does not resolve, is not part of the project or cannot be parsed is never expanded and
never asked for again.

A project may name modules without end, so the exploration takes fuel, one unit per visit; `none`
means that there were units left when it was spent.

## Contents
- **`ModuleParser`**, **`Tracer`** — where modules and their statements come from.
- **`Exploration`** — the state: `load`, `unitFor`, `follow`, `visit`, `explore?`.
- **`Tracer.trace?`** — the trace from an entry function.
-/

namespace ServiceTrace

/-- Reads the statements of a module, given its name and its file. -/
abbrev ModuleParser := String → Path → Except Error (List Stmt)

/-- What a trace is made with: the resolver and the parser of modules, and the clients whose calls
    are routing calls. -/
structure Tracer where
  resolve : Resolver
  parse : ModuleParser
  clients : Clients

/-- What a trace has found so far. -/
structure Exploration where
  units : List FunctionUnit
  modules : List TracedModule
  /-- The names of modules without statements to follow. -/
  unavailable : List String
  /-- The names of the modules that were handed to the parser. -/
  requested : List String
  /-- The number of units that have been visited. -/
  visited : Nat

namespace Tracer

/-- A module as it is when it has just been parsed. -/
def readModule (tracer : Tracer) (name : String) (ref : ModuleRef) (body : List Stmt) :
    TracedModule :=
  let functions := Stmt.functionsIn body
  let declared := NameSet.ofList (functions.map (·.name))
  { name := name
    ref := ref
    functions := functions
    declared := declared
    imports := .ofStmts tracer.resolve ref.packageParts (Stmt.topImportsIn body)
    references := declared
    tracked := .empty }

/-- The unit for a function of a module. -/
def unitOf (tracer : Tracer) (id : Nat) (m : TracedModule) (d : FunctionDef) : FunctionUnit where
  id := id
  module := m.name
  name := d.name
  file := m.ref.path
  line := d.line
  body := tracer.clients.annotate d.body
  localImports := .ofStmts tracer.resolve m.ref.packageParts (Stmt.importsIn d.body)

end Tracer

/-- The modules with the one of a name changed. -/
def updateModule (name : String) (change : TracedModule → TracedModule)
    (modules : List TracedModule) : List TracedModule :=
  modules.map fun m => if m.name = name then change m else m

namespace Exploration

/-- The state with the module of a name changed. -/
def update (s : Exploration) (name : String) (change : TracedModule → TracedModule) :
    Exploration :=
  { s with modules := updateModule name change s.modules }

/-- The state when a module turns out to have nothing to follow. -/
def giveUp (s : Exploration) (name : String) : Exploration :=
  { s with unavailable := name :: s.unavailable }

/-- The state after a module has been asked for: unless that is already settled, it is resolved, and
    read when it belongs to the project. -/
def load (tracer : Tracer) (s : Exploration) (name : String) : Exploration :=
  if (moduleIn? s.modules name).isSome || name ∈ s.unavailable then s
  else
    match tracer.resolve name with
    | none => s.giveUp name
    | some ref =>
      if !ref.owned then s.giveUp name
      else
        let s := { s with requested := name :: s.requested }
        match tracer.parse name ref.path with
        | .error _ => s.giveUp name
        | .ok body => { s with modules := s.modules ++ [tracer.readModule name ref body] }

/-- The unit for a function of a module, added when it is asked for the first time. There is none when
    the module has nothing to follow or declares no such function. -/
def unitFor (tracer : Tracer) (s : Exploration) (module name : String) : Exploration × Option Nat :=
  match unitIdIn? s.units module name with
  | some id => (s, some id)
  | none =>
    let s := s.load tracer module
    match moduleIn? s.modules module with
    | none => (s, none)
    | some m =>
      match m.functions.find? (·.name = name) with
      | none => (s, none)
      | some d =>
        ({ s with units := s.units ++ [tracer.unitOf s.units.length m d] }, some s.units.length)

/-- Notes that a module calls `name`, and that the call leads to a unit or a route. -/
def track (s : Exploration) (module : String) (name : Option String) : Exploration :=
  match name with
  | some name => s.update module fun m => { m with tracked := m.tracked.insert name }
  | none => s

/-- Notes that `name` is called in a module. -/
def reference (s : Exploration) (module name : String) : Exploration :=
  s.update module fun m => { m with references := m.references.insert name }

/-- Notes that `name` is called through an import of a module. -/
def mark (s : Exploration) (module : String) (hit : Qualified) : Exploration :=
  s.update module fun m => { m with imports := m.imports.mark hit.localName hit.name }

/-- The state after a call site of a unit of `module` has been followed. -/
def follow (tracer : Tracer) (module : String) (s : Exploration) (site : CallSite) : Exploration :=
  let called := site.call.func.targetName?
  match site.target with
  | .route => s.track module called
  | .declared name =>
    -- the module is known, and so is the reference, but its unit may be new
    match (s.reference module name).unitFor tracer module name with
    | (s, some _) => s.track module called
    | (s, none) => s
  | .imported hit =>
    -- the mark is made whether or not the import leads anywhere
    match (s.mark module hit).unitFor tracer hit.module hit.name with
    | (s, some _) => (s.reference hit.module hit.name).track module called
    | (s, none) => s
  | .unknown | .unrecognized => s

/-- The state after one more unit has been visited. -/
def visit (tracer : Tracer) (s : Exploration) (u : FunctionUnit) : Exploration :=
  (sitesOf s.modules u).foldl (follow tracer u.module) { s with visited := s.visited + 1 }

/-- The state when every unit has been visited, with at most `fuel` visits. -/
def explore? (tracer : Tracer) : Nat → Exploration → Option Exploration
  | fuel, s =>
    match s.units[s.visited]? with
    | none => some s
    | some u =>
      match fuel with
      | 0 => none
      | fuel + 1 => explore? tracer fuel (s.visit tracer u)

/-- The state in which only the entry module is known. -/
def ofEntry (m : TracedModule) : Exploration where
  units := []
  modules := [m]
  unavailable := []
  requested := [m.name]
  visited := 0

end Exploration

namespace Tracer

/-- The state in which only the entry unit is known. It fails when the entry module does not resolve,
    cannot be parsed, or declares no such function, in this order. The entry module need not belong
    to the project. -/
def enter (tracer : Tracer) (module function : String) : Except Error (Exploration × Nat) :=
  match tracer.resolve module with
  | none => .error (.moduleNotFound module)
  | some ref =>
    match tracer.parse module ref.path with
    | .error e => .error e
    | .ok body =>
      let s := Exploration.ofEntry (tracer.readModule module ref body)
      match s.unitFor tracer module function with
      | (s, some id) => .ok (s, id)
      | (_, none) => .error (.entryNotFound module function)

/-- Everything that is reachable from a function, found with at most `fuel` visits. -/
def trace? (tracer : Tracer) (fuel : Nat) (module function : String) :
    Option (Except Error Trace) :=
  match tracer.enter module function with
  | .error e => some (.error e)
  | .ok (s, entry) =>
    (s.explore? tracer fuel).map fun s => .ok ⟨entry, s.units, s.modules⟩

end Tracer

end ServiceTrace
