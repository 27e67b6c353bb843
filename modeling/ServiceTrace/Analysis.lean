import ServiceTrace.Ast.Export
import ServiceTrace.FileTree.Modules
import ServiceTrace.Graph.Build
import ServiceTrace.Prune

/-!
# `ServiceTrace.Analysis` — one run over a file tree

A run finds the module of the entry file, traces what is reachable from the entry function, draws the
call graph, and reduces the bodies of the units if it is asked to.

## Contents
- **`AnalysisOptions`**, **`Analysis`**.
- **`FileTree.analyze`** — the run.
- **`Analysis.output`** — its result as JSON.
-/

namespace ServiceTrace

/-- What a run is asked for. -/
structure AnalysisOptions where
  /-- The directory that module names are relative to; the directory of the entry file by default. -/
  root : Option Path
  /-- More directories to look for modules in. -/
  searchPaths : List Path
  /-- Whether bodies are reduced to tracked calls. -/
  prune : Bool
  /-- Whether calls of functions outside the project are drawn. -/
  external : Bool
  settings : Settings

/-- The result of a run. -/
structure Analysis where
  entryModule : String
  trace : Trace
  graph : CallGraph
  /-- Whether bodies are reduced. -/
  prune : Bool

/-- The body of a unit, reduced to the calls that are tracked in its module. -/
def Trace.prunedBody (t : Trace) (u : FunctionUnit) : List Stmt :=
  Stmt.pruneIn (t.trackedIn u.module) u.body

namespace FileTree

/-- The number of visits that a trace through a file tree may take. A module goes by a name that some
    statement imports, alone or lengthened by a chain, so a unit needs an import, a chain and a
    definition, each written somewhere in the files; the cube of their size is meant to be above the
    number of such triples. That it always is has not been proved, and parse trees that no parser gives
    can name modules without end. A run is proved to come to an end when the modules that it can read
    declare no more functions than this; a trace beyond the bound fails with `Error.unfinished`. -/
def traceFuel (tree : FileTree) : Nat :=
  Nat.pow (tree.files.foldl (fun total (_, file) => total + file.content.size) 2) 3

/-- A run over a file tree. -/
def analyze (tree : FileTree) (entry : Path) (function : String) (catalog : Catalog)
    (opts : AnalysisOptions) : Except Error Analysis := do
  let root := opts.root.getD (tree.defaultRoot entry)
  let entryModule ← tree.entryModule root entry
  let search := ModuleSearch.within tree root opts.searchPaths opts.settings.externalDirs
  let tracer : Tracer :=
    { resolve := search.resolve
      parse := tree.parseModule opts.settings.maxFileSize
      clients := .ofNames catalog opts.settings.httpClients }
  let trace ← (tracer.trace? tree.traceFuel entryModule function).getD (.error .unfinished)
  let graph ← trace.graph
    { policy := opts.settings.unresolvedCalls
      external := opts.external
      samePath := Path.same tree.canonical }
  return ⟨entryModule, trace, graph, opts.prune⟩

end FileTree

namespace Analysis

/-- The body of a unit as it is shown. -/
def bodyOf (a : Analysis) (u : FunctionUnit) : List Stmt :=
  if a.prune then a.trace.prunedBody u else u.body

/-- A unit with its body as an object. -/
def unitToJson (a : Analysis) (u : FunctionUnit) : Json :=
  .obj [("id", .nat u.id), ("module", .str u.module), ("file", .str u.file.text),
    ("func_name", .str u.name), ("body", Stmt.arrayOf (a.bodyOf u))]

/-- The units that are nodes of the graph, with their bodies. -/
def bodies (a : Analysis) : Json :=
  .arr ((a.graph.nodes.filterMap fun n => a.trace.units[n.id]?).map a.unitToJson)

/-- The graph as an object, with the bodies of its units when they are asked for. -/
def output (a : Analysis) (emitBodies : Bool) : Json :=
  .obj <| ("graph", a.graph.export.toJson) :: if emitBodies then [("bodies", a.bodies)] else []

end Analysis

end ServiceTrace
