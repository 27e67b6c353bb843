import ServiceTrace.Path
import ServiceTrace.Text.Split

/-!
# `ServiceTrace.CommandLine.Args` — reading command lines

A command line names one of three commands, `trace`, `routes` and `flows`, with options in between. An
option takes a value, either as the next word or behind an equals sign; a flag takes none. Words
without a dash in front are positional. Two dashes alone end the options. No flag may be given twice,
and no option but those that collect values. A value that is the next word must not begin with a dash,
and a path must not be empty.

## Contents
- **`ArgKind`**, **`ArgSpec`**, **`ArgReading`**, **`readArgs`** — options and positional words.
- **`Request`**, **`Request.read?`** — what a command line asks for; `none` is a usage error.
-/

namespace ServiceTrace

/-! ## Options and words -/

/-- What an option takes. -/
inductive ArgKind where
  | flag
  | text
  | path
deriving DecidableEq, Repr

/-- An option of a command. -/
structure ArgSpec where
  name : String
  kind : ArgKind
  /-- Whether the option collects the values of several uses. -/
  collects : Bool
deriving DecidableEq, Repr

/-- What a command line holds so far. -/
structure ArgReading where
  /-- The options with their values; flags have the empty value. -/
  options : List (String × String)
  words : List String
  /-- The option whose value comes next. -/
  pending : Option ArgSpec
  /-- Whether two dashes have ended the options. -/
  ended : Bool

namespace ArgReading

/-- Nothing has been read. -/
def empty : ArgReading :=
  ⟨[], [], none, false⟩

/-- Whether an option has been given. -/
def has (r : ArgReading) (name : String) : Bool :=
  r.options.any (·.1 = name)

/-- The value of an option. -/
def value? (r : ArgReading) (name : String) : Option String :=
  (r.options.find? (·.1 = name)).map (·.2)

/-- The values of an option that collects. -/
def values (r : ArgReading) (name : String) : List String :=
  (r.options.filter (·.1 = name)).map (·.2)

/-- One more use of an option. -/
def give (r : ArgReading) (spec : ArgSpec) (value : String) : Option ArgReading :=
  if r.has spec.name ∧ ¬ spec.collects then none
  else if spec.kind = .path ∧ value = "" then none
  else some { r with options := r.options ++ [(spec.name, value)], pending := none }

/-- A word that begins with two dashes: a flag, an option whose value is the next word, or an option
    with its value behind an equals sign. -/
def long (specs : List ArgSpec) (r : ArgReading) (body : List Char) : Option ArgReading :=
  let (name, behind) := body.span (· ≠ '=')
  match specs.find? (·.name = String.ofList name), behind with
  | none, _ => none
  | some spec, [] =>
    if spec.kind = .flag then r.give spec "" else some { r with pending := some spec }
  | some spec, _ :: value => if spec.kind = .flag then none else r.give spec (String.ofList value)

/-- A word that begins with one dash: the letters of flags. The only one is `v`. -/
def short (specs : List ArgSpec) (r : ArgReading) (letters : List Char) : Option ArgReading :=
  letters.foldlM
    (fun r c =>
      if c = 'v' then (specs.find? (·.name = "verbose")).bind fun spec => r.give spec "" else none)
    r

/-- One more word. -/
def step (specs : List ArgSpec) (r : ArgReading) (word : String) : Option ArgReading :=
  match r.pending, word.toList with
  -- a word with a dash is never a value; a dash alone is
  | some _, '-' :: _ :: _ => none
  | some spec, _ => r.give spec word
  | none, '-' :: '-' :: [] =>
    if r.ended then some { r with words := r.words ++ [word] } else some { r with ended := true }
  | none, '-' :: '-' :: body =>
    if r.ended then some { r with words := r.words ++ [word] } else r.long specs body
  | none, '-' :: c :: cs =>
    if r.ended then some { r with words := r.words ++ [word] } else r.short specs (c :: cs)
  | none, _ => some { r with words := r.words ++ [word] }

end ArgReading

/-- The options and words of a command line; `none` when it cannot be read, or ends where a value has
    to follow. -/
def readArgs (specs : List ArgSpec) (args : List String) : Option ArgReading :=
  (args.foldlM (ArgReading.step specs) .empty).filter (·.pending.isNone)

/-! ## Requests -/

/-- Where a trace starts. -/
inductive TraceStart where
  /-- A function of a file. -/
  | function (file : Path) (name : String)
  /-- The start of a flow that is marked in a repository. -/
  | flow (name : String) (repo : Path)
deriving DecidableEq, Repr

/-- Where the route catalog of a trace comes from. -/
inductive CatalogSource where
  | none
  | file (path : Path)
  | inline (text : String)
deriving DecidableEq, Repr

/-- A request for a trace. -/
structure TraceRequest where
  start : TraceStart
  catalog : CatalogSource
  root : Option Path
  searchPaths : List Path
  prune : Bool
  emitBodies : Bool
  strict : Bool
  external : Bool
  pretty : Bool
deriving DecidableEq, Repr

/-- What a command line asks for. -/
inductive Request where
  | version
  | trace (request : TraceRequest)
  | routes (repo : Path) (noIgnore : Bool)
  | flows (repo : Path) (noIgnore : Bool)
deriving DecidableEq, Repr

namespace Request

/-- The flag that is known everywhere. -/
def verboseSpec : ArgSpec := ⟨"verbose", .flag, false⟩

/-- The options of `trace`. -/
def traceSpecs : List ArgSpec :=
  [verboseSpec, ⟨"flow", .text, false⟩, ⟨"repo", .path, false⟩, ⟨"routes", .path, false⟩,
    ⟨"routes-json", .text, false⟩, ⟨"root", .path, false⟩, ⟨"search-path", .path, true⟩,
    ⟨"prune", .flag, false⟩, ⟨"emit-bodies", .flag, false⟩, ⟨"strict", .flag, false⟩,
    ⟨"external", .flag, false⟩, ⟨"pretty", .flag, false⟩]

/-- The options of `routes` and `flows`. -/
def scanSpecs : List ArgSpec :=
  [verboseSpec, ⟨"repo", .path, false⟩, ⟨"no-ignore", .flag, false⟩]

/-- The repository that an option names; the working directory by default. -/
def repoOf (r : ArgReading) : Path :=
  ⟨(r.value? "repo").getD "."⟩

/-- Where a trace starts: at a flow, or at a function of a file, but not both. -/
def startOf? (r : ArgReading) : Option TraceStart :=
  match r.value? "flow", r.words with
  | some name, [] => some (.flow name (repoOf r))
  | none, [file, name] => if file = "" then none else some (.function ⟨file⟩ name)
  | _, _ => none

/-- Where the catalog comes from: a file or the command line, but not both. -/
def catalogOf? (r : ArgReading) : Option CatalogSource :=
  match r.value? "routes", r.value? "routes-json" with
  | some _, some _ => none
  | some path, none => some (.file ⟨path⟩)
  | none, some text => some (.inline text)
  | none, none => some .none

/-- A request for a trace. -/
def readTrace? (args : List String) : Option Request := do
  let r ← readArgs traceSpecs args
  let start ← startOf? r
  let catalog ← catalogOf? r
  return .trace
    { start := start
      catalog := catalog
      root := (r.value? "root").map (⟨·⟩)
      searchPaths := (r.values "search-path").map (⟨·⟩)
      prune := r.has "prune"
      emitBodies := r.has "emit-bodies"
      strict := r.has "strict"
      external := r.has "external"
      pretty := r.has "pretty" }

/-- A request for the scan of a repository. -/
def readScan? (make : Path → Bool → Request) (args : List String) : Option Request := do
  let r ← readArgs scanSpecs args
  if r.words = [] then some (make (repoOf r) (r.has "no-ignore")) else none

/-- Whether a word asks for the version, possibly behind a `v` that has not been given before. -/
def asksVersion (verbose : Bool) (word : String) : Bool :=
  word = "--version" || Text.beginsWith "-V" word || (!verbose && Text.beginsWith "-vV" word)

/-- What a command line asks for, given whether `--verbose` has come before. -/
def readAfter? (verbose : Bool) : List String → Option Request
  | [] => none
  | word :: args =>
    if asksVersion verbose word then some .version
    else if word = "-v" ∨ word = "--verbose" then
      if verbose then none else readAfter? true args
    else if word = "trace" then readTrace? args
    else if word = "routes" then readScan? .routes args
    else if word = "flows" then readScan? .flows args
    else none

/-- What a command line asks for; `none` is a usage error. -/
def read? (args : List String) : Option Request :=
  readAfter? false args

end Request

end ServiceTrace
