import ServiceTrace.Analysis
import ServiceTrace.CommandLine.Args
import ServiceTrace.Flow.Discovery
import ServiceTrace.Json.Printer
import ServiceTrace.Route.Discovery

/-!
# `ServiceTrace.CommandLine.Run` — running a command line

A run sees a file tree and the environment, and ends in one of three ways: with a text for the
standard output, with a failure, or with a usage error.

## Contents
- **`Outcome`** with `exitCode` and `output`.
- **`TraceRequest.run`**, **`Request.run`**, **`runCommandLine`**.
-/

namespace ServiceTrace

/-- How a run ends. -/
inductive Outcome where
  | success (output : String)
  | failure (error : Error)
  | usage

namespace Outcome

/-- The exit code of a run. -/
def exitCode : Outcome → Nat
  | .success _ => 0
  | .failure _ => 1
  | .usage => 2

/-- What a run writes to the standard output. -/
def output : Outcome → String
  | .success output => output
  | .failure _ | .usage => ""

end Outcome

/-- The name of the program and its version. -/
def versionText : String := "flowtrace 0.1.0"

/-- The catalog that a request names. -/
def CatalogSource.load (tree : FileTree) : CatalogSource → Except Error Catalog
  | .none => .ok .empty
  | .file path => do Catalog.read (← tree.read path)
  | .inline text => Catalog.read text

/-- The file and the function where a trace starts. -/
def TraceStart.find (tree : FileTree) : TraceStart → Except Error (Path × String)
  | .function file name => .ok (file, name)
  | .flow name repo => do
    let flow ← Flow.find (tree.flows false repo) name
    return (flow.start.file, flow.start.function)

/-- The text that a trace writes. The start is looked up first, then the catalog is loaded, then the
    run begins. -/
def TraceRequest.run (r : TraceRequest) (tree : FileTree) (settings : Settings) :
    Except Error String := do
  let (file, function) ← r.start.find tree
  let catalog ← r.catalog.load tree
  let settings := if r.strict then { settings with unresolvedCalls := .error } else settings
  let analysis ← tree.analyze file function catalog
    { root := r.root
      searchPaths := r.searchPaths
      prune := r.prune
      external := r.external
      settings := settings }
  let json := analysis.output r.emitBodies
  return (if r.pretty then json.pretty else json.compact) ++ "\n"

/-- The outcome of a request. -/
def Request.run (r : Request) (tree : FileTree) (settings : Settings) : Outcome :=
  match r with
  | .version => .success (versionText ++ "\n")
  | .routes repo noIgnore =>
    .success ((Json.arr ((tree.routes noIgnore repo).map Route.toJson)).pretty ++ "\n")
  | .flows repo noIgnore =>
    .success ((Json.arr ((tree.flows noIgnore repo).map Flow.toJson)).pretty ++ "\n")
  | .trace request =>
    match request.run tree settings with
    | .ok output => .success output
    | .error e => .failure e

/-- The outcome of a command line. -/
def runCommandLine (tree : FileTree) (environment : String → Option String) (args : List String) :
    Outcome :=
  match Request.read? args with
  | some request => request.run tree (Settings.ofEnvironment environment)
  | none => .usage

end ServiceTrace
