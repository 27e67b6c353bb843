import ServiceTrace.Text.Split

/-!
# `ServiceTrace.Path` — paths of files

A path is kept as it was written, because results show it that way. What it means is its list of
components: empty parts count for nothing, and neither does `.`, except as the very first part of a
relative path; `..` is a component like any other, since only a file system can tell where it leads.

## Contents
- **`Path`**, **`Path.Component`**, **`Path.components`**.
- **`join`**, **`parent?`**, **`fileName?`**, **`fileStem?`**, **`extension?`**,
  **`withExtension`** — the usual operations.
- **`below?`** — the components of a path below another one.
- **`plain`** — components as a text with single slashes, for names relative to a directory.
- **`same`** — whether two paths name the same file.
-/

namespace ServiceTrace

/-- A path as it was written. -/
structure Path where
  text : String
deriving DecidableEq, Repr

namespace Path

/-- One step of a path. -/
inductive Component where
  | root
  | current
  | parent
  | name (text : String)
deriving DecidableEq, Repr

/-- A component as it is written. -/
def Component.text : Component → String
  | .root => "/"
  | .current => "."
  | .parent => ".."
  | .name text => text

/-- Whether a path starts at the root. -/
def isAbsolute (p : Path) : Bool :=
  p.text.toList.head? = some '/'

/-- The component that a part between slashes stands for, `.` and the empty part apart. -/
def Component.ofPart (part : String) : Component :=
  if part = ".." then .parent else .name part

/-- The components of a path. -/
def components (p : Path) : List Component :=
  let parts := Text.split '/' p.text
  -- a part `.` counts only where a relative path begins
  let start : List Component :=
    if p.isAbsolute then [.root] else if parts.head? = some "." then [.current] else []
  start ++ (parts.filter fun part => part ≠ "" ∧ part ≠ ".").map Component.ofPart

/-- A path taken relative to a directory: an absolute path stays itself. -/
def join (base sub : Path) : Path :=
  if sub.isAbsolute then sub
  else if base.text = "" ∨ base.text.toList.getLast? = some '/' then ⟨base.text ++ sub.text⟩
  else ⟨base.text ++ "/" ++ sub.text⟩

/-- A path, given backwards, without the slashes and `.` parts at its end. The root stays. -/
def dropTrailing : List Char → List Char
  | ['/'] => ['/']
  | '/' :: rest => dropTrailing rest
  | '.' :: '/' :: rest => dropTrailing ('/' :: rest)
  | cs => cs

/-- The path without its last component. The root and the empty path have none. -/
def parent? (p : Path) : Option Path :=
  match dropTrailing p.text.toList.reverse with
  | [] => none
  | ['/'] => none
  | backwards =>
    -- the last component goes, and with it what separates it from the one before
    some ⟨String.ofList (dropTrailing (backwards.dropWhile (· ≠ '/'))).reverse⟩

/-- The last component, when it is a name. -/
def fileName? (p : Path) : Option String :=
  match p.components.getLast? with
  | some (.name text) => some text
  | _ => none

/-- A file name before and after its last dot. A name whose only dot is its first character has no
    extension. -/
def splitExtension (name : String) : String × Option String :=
  match Text.splitLast? '.' name.toList with
  | some (before, after) =>
    if before = [] then (name, none) else (String.ofList before, some (String.ofList after))
  | none => (name, none)

/-- The file name without its extension. -/
def fileStem? (p : Path) : Option String :=
  p.fileName?.map fun name => (splitExtension name).1

/-- The extension of the file name. -/
def extension? (p : Path) : Option String :=
  p.fileName?.bind fun name => (splitExtension name).2

/-- The path with the extension of its file name replaced. -/
def withExtension (p : Path) (extension : String) : Path :=
  match p.fileName? with
  | none => p
  | some name =>
    -- without trailing slashes the text ends with the file name
    let backwards := dropTrailing p.text.toList.reverse
    let directory := String.ofList (backwards.drop name.length).reverse
    ⟨directory ++ (splitExtension name).1 ++ "." ++ extension⟩

/-- The components of `p` that follow those of `base`, when `p` begins with `base`. -/
def below? (base p : Path) : Option (List Component) :=
  go base.components p.components
where
  /-- What follows an initial segment of components. -/
  go : List Component → List Component → Option (List Component)
    | [], rest => some rest
    | _ :: _, [] => none
    | b :: bs, c :: cs => if b = c then go bs cs else none

/-- Names and `..` steps joined by slashes, or `.` when there are none. The root and `.` are left
    out. -/
def plain (components : List Component) : String :=
  let parts := components.filterMap fun
    | .name text => some text
    | .parent => some ".."
    | _ => none
  if parts = [] then "." else String.intercalate "/" parts

/-! ## Comparing -/

/-- A path as other tools may have recorded it: with forward slashes, without slashes at its end, in
    lower case. -/
def folded (p : Path) : List Char :=
  let slashed := p.text.toList.map fun c => if c = '\\' then '/' else c
  (slashed.reverse.dropWhile (· = '/')).reverse.map Char.toLower

/-- Whether two paths name the same file, where `canonical` finds the path that a file system has for
    a file: they lead to the same place, or differ only in how they are recorded. -/
def same (canonical : Path → Path) (p q : Path) : Bool :=
  (canonical p).components = (canonical q).components || p.folded = q.folded

end Path

end ServiceTrace
