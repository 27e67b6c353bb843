import ServiceTrace.CommandLine.Run
import ServiceTrace.FileTree.Snapshot
import ServiceTrace.Json.Reader

/-!
# `ServiceTrace.Main` — the program

The program reads a snapshot of a file tree from the standard input, takes its command from the
command line and its settings from the environment, and writes its result to the standard output. The
snapshot is an object as `FileTree.ofJson` reads it, with one more member `working`, the absolute path
of the working directory. What is written about a failure goes to the standard error.
-/

namespace ServiceTrace

/-- How deep the values of a snapshot may be nested. -/
def snapshotNesting : Nat := 1000000

/-- The environment variables that settings come from. -/
def settingVariables : List String :=
  ["FLOWTRACE_HTTP_CLIENTS", "FLOWTRACE_EXTERNAL_DIRS", "FLOWTRACE_UNRESOLVED_CALLS",
    "FLOWTRACE_MAX_FILE_SIZE"]

/-- All lines of a stream. -/
partial def readAll (input : IO.FS.Stream) (lines : List String) : IO String := do
  let line ← input.getLine
  if line.isEmpty then return String.join lines.reverse
  readAll input (line :: lines)

/-- The values of the environment variables that are set. -/
def readEnvironment : IO (List (String × String)) :=
  settingVariables.filterMapM fun name => do
    return (← IO.getEnv name).map (name, ·)

/-- Runs a command line over the snapshot on the standard input. -/
def runProgram (args : List String) : IO UInt32 := do
  let text ← readAll (← IO.getStdin) []
  let environment ← readEnvironment
  match Json.read? snapshotNesting text with
  | none =>
    (← IO.getStderr).putStrLn "the standard input holds no snapshot"
    return 1
  | some snapshot =>
    let working := Text.pieces '/' (((snapshot.field? "working").bind Json.str?).getD "")
    let tree := FileTree.ofJson working snapshot
    let lookup (name : String) : Option String :=
      (environment.find? (·.1 = name)).map (·.2)
    let outcome := runCommandLine tree lookup args
    (← IO.getStdout).putStr outcome.output
    match outcome with
    | .failure error => (← IO.getStderr).putStrLn ("Error: " ++ error.message)
    | .usage => (← IO.getStderr).putStrLn "usage: flowtrace [-v] trace|routes|flows [options]"
    | .success _ => pure ()
    return UInt32.ofNat outcome.exitCode

end ServiceTrace

/-- The program. -/
def main (args : List String) : IO UInt32 :=
  ServiceTrace.runProgram args
