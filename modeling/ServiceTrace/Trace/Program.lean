import ServiceTrace.Trace.Explore

/-!
# `ServiceTrace.Trace.Program` — programs held in memory

A program is a finite list of modules, each with its file and, when it can be parsed, its statements.
Only the listed names resolve, so a trace through a program visits each declared function at most
once, and the number of declared functions is fuel enough.

## Contents
- **`Program`** with `resolve`, `parse` and `size`.
- **`Program.trace?`** — the trace of a program.
-/

namespace ServiceTrace

/-- A module held in memory. -/
structure ProgramModule where
  ref : ModuleRef
  body : Option (List Stmt)

/-- A program held in memory. -/
structure Program where
  modules : List ProgramModule

namespace Program

/-- The module of a name. -/
def find? (p : Program) (name : String) : Option ProgramModule :=
  p.modules.find? (·.ref.name = name)

/-- Resolves the names of the listed modules. -/
def resolve (p : Program) : Resolver := fun name =>
  (p.find? name).map (·.ref)

/-- The statements of a listed module. -/
def parse (p : Program) : ModuleParser := fun name _ =>
  match (p.find? name).bind (·.body) with
  | some body => .ok body
  | none => .error (.noBody name)

/-- The number of functions that the modules declare. -/
def size (p : Program) : Nat :=
  (p.modules.flatMap fun m => Stmt.functionsIn (m.body.getD [])).length

/-- The trace from a function of a program; `none` never arises, because every visit is that of
    another declared function. -/
def trace? (p : Program) (clients : Clients) (module function : String) :
    Option (Except Error Trace) :=
  Tracer.trace? ⟨p.resolve, p.parse, clients⟩ p.size module function

end Program

end ServiceTrace
