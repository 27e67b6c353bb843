import ServiceTrace.FileTree.Basic
import ServiceTrace.Glob.Match
import ServiceTrace.Text.Blank
import ServiceTrace.Text.Split

/-!
# `ServiceTrace.FileTree.Ignore` — ignore files

The files `.gitignore` and `.ignore` of a directory say which of the paths below it are left out of
scans. Each line is a pattern with a few marks around it: `!` in front takes a path in again, a slash
in front ties the pattern to the directory of the file, a slash behind restricts it to directories.
A pattern without any slash matches at every depth. Of several lines that match, the last one counts;
of several files, the deepest one that says anything; and all of `.ignore` counts before all of
`.gitignore`.

## Contents
- **`IgnoreRule`**, **`IgnoreRule.ofLine?`** — one line.
- **`ignoreLines`**, **`ignoreRules`** — a file; **`FileTree.ignoreTable`** — all files.
- **`seenFrom`** — a path as the patterns of a directory see it.
- **`verdict?`**, **`Walk.isIgnored`** — what the files say about a path.
-/

namespace ServiceTrace

/-- A line of an ignore file. -/
structure IgnoreRule where
  glob : List GlobToken
  /-- Whether the rule takes paths in again. -/
  keeps : Bool
  dirOnly : Bool

/-! ## Lines -/

/-- The marks of a line and what is left of it between them. -/
structure MarkedLine where
  keeps : Bool
  anchored : Bool
  dirOnly : Bool
  pattern : List Char

/-- A line without the blanks at its end, unless the last of them is escaped. -/
def trimLineEnd (line : List Char) : List Char :=
  match line.reverse with
  | ' ' :: '\\' :: _ => line
  | backwards => (backwards.dropWhile Text.isBlank).reverse

/-- The marks in front of a line. A backslash in front of `!` or `#` only protects the character. -/
def marksInFront : List Char → MarkedLine
  | '\\' :: '!' :: rest => ⟨false, false, false, '!' :: rest⟩
  | '\\' :: '#' :: rest => ⟨false, false, false, '#' :: rest⟩
  | '!' :: '/' :: rest => ⟨true, true, false, rest⟩
  | '!' :: rest => ⟨true, false, false, rest⟩
  | '/' :: rest => ⟨false, true, false, rest⟩
  | rest => ⟨false, false, false, rest⟩

/-- The slash behind a line, with the backslash that may escape it. -/
def markBehind (m : MarkedLine) : MarkedLine :=
  match m.pattern.reverse with
  | '/' :: '\\' :: rest => { m with dirOnly := true, pattern := rest.reverse }
  | '/' :: rest => { m with dirOnly := true, pattern := rest.reverse }
  | _ => m

/-- The pattern of a line as it is compared with paths: a pattern without slash applies at every depth,
    and `/**` at the end to everything below a directory but not to the directory itself. -/
def MarkedLine.glob (m : MarkedLine) : List Char :=
  let everywhere := ['*', '*', '/']
  let widened :=
    if m.anchored || m.pattern.contains '/' || m.pattern = ['*', '*'] then m.pattern
    else everywhere ++ m.pattern
  -- `/**` backwards
  if ['*', '*', '/'].isPrefixOf widened.reverse then widened ++ ['/', '*'] else widened

/-- The rule of a line. Comments, blank lines and invalid patterns make none. -/
def IgnoreRule.ofLine? (line : List Char) : Option IgnoreRule :=
  match line with
  | '#' :: _ => none  -- a comment
  | _ =>
    match trimLineEnd line with
    | [] => none
    | trimmed =>
      let m := markBehind (marksInFront trimmed)
      (Glob.parse? m.glob).map fun glob => ⟨glob, m.keeps, m.dirOnly⟩

/-! ## Files -/

/-- The text of bytes that are UTF-8. -/
def decodeLine? (bytes : List UInt8) : Option (List Char) :=
  (String.fromUTF8? ⟨bytes.toArray⟩).map String.toList

/-- The lines of bytes, up to the first one that is no UTF-8. -/
def readableLines : List (List UInt8) → List (List Char)
  | [] => []
  | line :: rest =>
    match decodeLine? line with
    | some text => text :: readableLines rest
    | none => []

/-- The lines of an ignore file; the first one may begin with a byte order mark, which does not
    count. -/
def ignoreLines (content : FileContent) : List (List Char) :=
  match readableLines (Text.lines 0x0A 0x0D content.octets) with
  | first :: rest => first.dropWhile (· = Char.ofNat 0xFEFF) :: rest
  | [] => []

/-- How deeply a pattern may be nested. -/
def nestingLimit : Nat := 250

/-- The rules of an ignore file. A pattern that is nested too deeply takes all rules of the file with
    it, since they are matched as one. -/
def ignoreRules (content : FileContent) : List IgnoreRule :=
  let rules := (ignoreLines content).filterMap IgnoreRule.ofLine?
  if rules.all fun r => Glob.nesting r.glob ≤ nestingLimit then rules else []

/-! ## Paths -/

/-- A path without the `./` that it begins with. -/
def withoutDot (path : List Char) : List Char :=
  (Text.dropInitial? ['.', '/'] path).getD path

/-- A path below a directory as its ignore files see it. The comparison is one of texts: a `./` at the
    beginning of either counts for nothing, but only once, so that for `././d` the patterns see the
    whole path `d/a` of a file. -/
def seenFrom (dir : Path) (path : List Char) : List Char :=
  let dir := withoutDot dir.text.toList
  let path := withoutDot path
  if (⟨String.ofList dir⟩ : Path).components = [.current] ∨ '/' ∉ path then path
  else
    match Text.dropInitial? dir path with
    | some rest => (Text.dropInitial? ['/'] rest).getD rest
    | none => path

/-- A path below the start of a walk, relative to it. -/
def relativeToStart (start : Path) (path : List Char) : List Char :=
  if start.components = [.current] then path
  else
    match Text.dropInitial? (withoutDot start.text.toList) path with
    | some rest => (Text.dropInitial? ['/'] rest).getD rest
    | none => (Text.dropInitial? ['/'] path).getD path

/-! ## Verdicts -/

/-- What rules say about a path: whether it is ignored, if they say anything. The last matching rule
    counts. -/
def verdict? (rules : List IgnoreRule) (isDir : Bool) (path : List Char) : Option Bool :=
  let path := (String.ofList path).toUTF8.toList
  (rules.reverse.find? fun r => (isDir || !r.dirOnly) && Glob.accepts r.glob path).map (!·.keeps)

/-- The rules of the ignore files of a file tree by the locations of the files. -/
abbrev RuleTable := List (Location × List IgnoreRule)

/-- The names of ignore files. All of an earlier one counts before all of a later one. -/
def ignoreNames : List String :=
  [".ignore", ".gitignore"]

/-- The rules of all ignore files of a file tree. -/
def FileTree.ignoreTable (tree : FileTree) : RuleTable :=
  tree.files.filterMap fun (location, file) =>
    if location.getLast?.any (· ∈ ignoreNames) then some (location, ignoreRules file.content)
    else none

/-- A directory that may hold ignore files, and the path by which it is opened. -/
structure IgnoreScope where
  location : Location
  path : Path

namespace RuleTable

/-- What the ignore file of a name in a directory says about a path. -/
def verdictIn? (table : RuleTable) (fileName : String) (isDir : Bool) (path : List Char)
    (scope : IgnoreScope) : Option Bool :=
  let file := scope.path.join ⟨fileName⟩
  if file.text.utf8ByteSize < FileTree.pathLimit then
    (table.find? (·.1 = scope.location ++ [fileName])).bind fun (_, rules) =>
      verdict? rules isDir (seenFrom scope.path path)
  else none

end RuleTable

/-- A walk from a directory: the path that it starts with, and where that leads. -/
structure Walk where
  start : Path
  base : Location

namespace Walk

/-- The path by which a walk comes to the end of some names below its start. -/
def pathTo (w : Walk) (names : List String) : Path :=
  names.foldl (fun p name => p.join ⟨name⟩) w.start

/-- The directories on the way to some names, the deepest first, the start being the last. -/
def scopes (w : Walk) (names : List String) : List IgnoreScope :=
  (List.range names.length).reverse.map fun depth =>
    ⟨w.base ++ names.take depth, w.pathTo (names.take depth)⟩

/-- The directories above the start, the deepest first. They go by their absolute paths. -/
def scopesAbove (w : Walk) : List IgnoreScope :=
  (List.range w.base.length).reverse.map fun depth =>
    ⟨w.base.take depth, FileTree.pathOf (w.base.take depth)⟩

/-- Whether the ignore files leave out what some names below the start lead to. The deepest file of a
    name that says anything counts. -/
def isIgnored (w : Walk) (table : RuleTable) (isDir : Bool) (names : List String) : Bool :=
  let path := withoutDot (w.pathTo names).text.toList
  let absolute := (FileTree.pathOf w.base).join ⟨String.ofList (relativeToStart w.start path)⟩
  let said := ignoreNames.findSome? fun fileName =>
    ((w.scopes names).findSome? (table.verdictIn? fileName isDir path)).or
      (w.scopesAbove.findSome? (table.verdictIn? fileName isDir absolute.text.toList))
  said.getD false

end Walk

end ServiceTrace
