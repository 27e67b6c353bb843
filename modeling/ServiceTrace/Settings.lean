import ServiceTrace.Error
import ServiceTrace.Text.Blank
import ServiceTrace.Text.Digits
import ServiceTrace.Text.Split

/-!
# `ServiceTrace.Settings` — settings and where they come from

Four settings can be changed by environment variables. A variable with an unusable value is passed
over, and the default stays.

## Contents
- **`Policy`**, **`Policy.read`** — what to do with a callee of no known shape.
- **`Settings`**, **`Settings.default`**, **`Settings.ofEnvironment`**.
-/

namespace ServiceTrace

/-- What to do with a call whose callee is neither a name nor an attribute. -/
inductive Policy where
  | ignore
  | error
deriving DecidableEq, Repr

/-- The policy that a word names, whatever the case of its letters and the blanks around it. -/
def Policy.read (word : String) : Except Error Policy :=
  let lowered := Text.lower (Text.trim word)
  if lowered = "ignore" then .ok .ignore
  else if lowered = "error" then .ok .error
  else .error (.unknownPolicy lowered)

/-- The settings of a run. -/
structure Settings where
  /-- The names that HTTP clients go by. -/
  httpClients : List String
  /-- The names of directories that hold foreign code. -/
  externalDirs : List String
  unresolvedCalls : Policy
  /-- Module files with more bytes are not read. -/
  maxFileSize : Nat
deriving DecidableEq

namespace Settings

/-- The settings when nothing is said. -/
def default : Settings where
  httpClients := ["requests", "httpx"]
  externalDirs := ["site-packages", "dist-packages", ".venv", "venv", "__pypackages__"]
  unresolvedCalls := .ignore
  maxFileSize := 2 * 1024 * 1024

/-- The items of a list that is written with commas; blank ones are left out. -/
def splitList (text : String) : List String :=
  ((Text.split ',' text).map Text.trim).filter (· ≠ "")

/-- A size of at most 64 bits: digits, with an optional plus sign in front. -/
def readSize? (text : String) : Option Nat :=
  let digits :=
    match text.toList with
    | '+' :: rest => rest
    | cs => cs
  (Text.readDigits? digits).filter (· < UInt64.size)

/-- The settings that environment variables ask for. -/
def ofEnvironment (lookup : String → Option String) : Settings :=
  let clients := ((lookup "FLOWTRACE_HTTP_CLIENTS").map splitList).getD []
  { httpClients := if clients = [] then default.httpClients else clients
    externalDirs :=
      ((lookup "FLOWTRACE_EXTERNAL_DIRS").map splitList).getD default.externalDirs
    unresolvedCalls :=
      match (lookup "FLOWTRACE_UNRESOLVED_CALLS").map Policy.read with
      | some (.ok policy) => policy
      | _ => default.unresolvedCalls
    maxFileSize :=
      ((lookup "FLOWTRACE_MAX_FILE_SIZE").bind readSize?).getD default.maxFileSize }

end Settings

end ServiceTrace
