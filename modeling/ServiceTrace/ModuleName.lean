import ServiceTrace.Path
import ServiceTrace.Text.Blank

/-!
# `ServiceTrace.ModuleName` — dotted module names

A module is named by the dotted list of the directories and the file that lead to it. A package is
named by its directory; its file is `__init__.py`. An import may name a module relative to the package
of the importing module, one leading dot for that package and one more for every level above it.

## Contents
- **`ModuleName.ofPath`** — the name of the module in a file.
- **`ModuleName.parts`**, **`ModuleName.member`** — names and their parts.
- **`ModuleName.absolute?`** — a relative name made absolute.
- **`ModuleRef`** with `isPackage` and `packageParts` — a module and its file.
-/

namespace ServiceTrace

namespace ModuleName

/-- The file name of a module that stands for its directory. -/
def packageFile : String := "__init__.py"

/-- The name of the module in a file, given by its path below the root. The file of a package adds
    nothing to the name of its directory, except directly below the root. -/
def ofPath (path : Path) : String :=
  let parts := path.components.map Path.Component.text
  match parts.getLast? with
  | none => "__init__"
  | some file =>
    let stem := (Path.fileStem? ⟨file⟩).getD file
    let names := if stem = "__init__" then parts.dropLast else parts.dropLast ++ [stem]
    if names = [] then "__init__" else String.intercalate "." names

/-- The parts of a dotted name; empty parts count for nothing. -/
def parts (name : String) : List String :=
  Text.pieces '.' name

/-- The name of a member of a package. The empty package is the top level. -/
def member (package name : String) : String :=
  if package = "" then name else package ++ "." ++ name

/-- A module as an import names it, made absolute: leading dots go up from the package of the
    importing module. There is no such module above the top level, nor without a name. The empty name
    stands for the top level itself. -/
def absolute? (package : List String) (name : String) : Option String :=
  let chars := Text.trimBlank name.toList
  let dots := chars.takeWhile (· = '.')
  let rest := String.ofList (chars.dropWhile (· = '.'))
  if dots = [] then if chars = [] then none else some rest
  else
    let up := dots.length - 1
    if package.length < up then none
    else some (String.intercalate "." (package.take (package.length - up) ++ parts rest))

end ModuleName

/-- A module and the file that it is in. -/
structure ModuleRef where
  name : String
  path : Path
  /-- Whether the file belongs to the project, that is, lies below the root and in no directory for
      foreign code. -/
  owned : Bool
deriving DecidableEq

namespace ModuleRef

/-- Whether a module is a package. -/
def isPackage (m : ModuleRef) : Bool :=
  m.path.fileName? = some ModuleName.packageFile

/-- The package that relative imports in a module start from: the module itself when it is a package,
    the package around it otherwise. -/
def packageParts (m : ModuleRef) : List String :=
  let parts := ModuleName.parts m.name
  if m.isPackage then parts else parts.dropLast

end ModuleRef

end ServiceTrace
