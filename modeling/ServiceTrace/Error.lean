import ServiceTrace.Path

/-!
# `ServiceTrace.Error` — why a run fails

Failures are causes with the data that belongs to them; the wording is in one place,
`Error.message`. What is not a failure has no constructor: an import that leads nowhere, a module
outside the project, a file that cannot be read during a scan, a routing call without a matching
route. Those only mean that there is nothing to follow.

## Contents
- **`Error`** — the causes.
- **`Error.message`** — one line of text for each.
- **`Path.relative`** — a path relative to a directory, or the failure when it is not below it.
-/

namespace ServiceTrace

/-- Why a run fails. -/
inductive Error where
  /-- The entry module declares no function of the entry name. -/
  | entryNotFound (module function : String)
  /-- The entry module does not resolve. -/
  | moduleNotFound (module : String)
  /-- A module file is larger than the settings allow. -/
  | tooLarge (path : Path) (size : Nat)
  /-- A callee is neither a name nor an attribute, and the settings ask for an error. -/
  | unrecognizedCall (module function : String) (line : Nat)
  /-- No start marker has the name of the requested flow. -/
  | flowNotFound (name : String)
  /-- A route catalog is not JSON. -/
  | catalogSyntax
  /-- A route catalog is JSON, but no array. -/
  | catalogNotArray
  /-- A record of a route catalog has a member of the wrong type. -/
  | catalogRecord (index : Nat)
  /-- A file does not exist, or is not UTF-8. -/
  | unreadable (path : Path)
  /-- A module that is held in memory has no statements. -/
  | noBody (module : String)
  /-- A path does not lie below a directory. -/
  | notBelow (directory path : Path)
  /-- The entry file does not lie below the root. -/
  | entryOutside (entry root : Path)
  /-- A word that names no policy. -/
  | unknownPolicy (word : String)
  /-- A trace did not come to an end within its bound. -/
  | unfinished
deriving DecidableEq

/-- The text for a failure. -/
def Error.message : Error → String
  | .entryNotFound module function =>
    "function `" ++ function ++ "` not found in module `" ++ module ++ "`"
  | .moduleNotFound module =>
    "module `" ++ module ++ "` could not be resolved under the analysis root"
  | .tooLarge path size => path.text ++ " is " ++ toString size ++ " bytes, above the configured limit"
  | .unrecognizedCall module function line =>
    "unrecognized call shape in " ++ module ++ "." ++ function ++ " at line " ++ toString line
  | .flowNotFound name => "flow `" ++ name ++ "` has no flow-start marker"
  | .catalogSyntax => "invalid route catalog: syntax"
  | .catalogNotArray => "invalid route catalog: expected a JSON array"
  | .catalogRecord index => "invalid route catalog: record " ++ toString index
  | .unreadable path => "read " ++ path.text
  | .noBody module => "no body for " ++ module
  | .notBelow directory path => "strip prefix " ++ directory.text ++ " from " ++ path.text
  | .entryOutside entry root => "entry file " ++ entry.text ++ " is outside " ++ root.text
  | .unknownPolicy word => "unknown policy `" ++ word ++ "` (expected ignore|error)"
  | .unfinished => "trace did not come to an end"

/-- The components of a path below a directory. -/
def Path.relative (directory path : Path) : Except Error (List Path.Component) :=
  match Path.below? directory path with
  | some components => .ok components
  | none => .error (.notBelow directory path)

end ServiceTrace
