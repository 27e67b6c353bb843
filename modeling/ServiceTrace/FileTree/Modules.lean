import ServiceTrace.FileTree.Basic
import ServiceTrace.ParseTree.Lowering
import ServiceTrace.Trace.Explore

/-!
# `ServiceTrace.FileTree.Modules` — modules in a file tree

A dotted name is looked up below the root first and below the search paths after it. The parts of the
name are directories, the last one is a file `name.py` or a directory with a file `__init__.py`; the
file counts before the directory. A module belongs to the project when its file lies below the root
and not in a directory for foreign code.

## Contents
- **`FileTree.moduleFile?`** — the file of a module below a directory.
- **`ModuleSearch`**, **`ModuleSearch.resolve`** — the lookup.
- **`FileTree.parseModule`** — the statements of a module file.
- **`FileTree.entryModule`**, **`FileTree.defaultRoot`** — the module of an entry file.
-/

namespace ServiceTrace

namespace FileTree

/-- The file of a module below a directory. -/
def moduleFile? (tree : FileTree) (base : Path) (name : String) : Option Path :=
  let parts := ModuleName.parts name
  let relative : Path := parts.foldl (fun p part => p.join ⟨part⟩) ⟨""⟩
  let above := (relative.parent?.map (·.text)).getD ""
  let file := base.join (relative.withExtension "py")
  let package := base.join (relative.join ⟨ModuleName.packageFile⟩)
  -- the empty path above a single part is the directory itself and needs no test
  if parts = [] then none
  else if above ≠ "" ∧ ¬ tree.isDir (base.join ⟨above⟩) then none
  else if tree.isFile file then some file
  else if tree.isFile package then some package
  else none

/-- The statements of a module file of at most `maxSize` bytes. -/
def parseModule (tree : FileTree) (maxSize : Nat) : ModuleParser := fun _ path =>
  if maxSize < tree.size path then .error (.tooLarge path (tree.size path))
  else
    match tree.read path, tree.parseTree? path with
    | .error e, _ => .error e
    | .ok text, some parsed => .ok (parsed.body text)
    | .ok _, none => .ok []

/-- The name of the module in an entry file, which has to lie below the root. -/
def entryModule (tree : FileTree) (root entry : Path) : Except Error String :=
  let root := tree.canonical root
  let entry := tree.canonical entry
  match Path.below? root entry with
  | some components => .ok (ModuleName.ofPath ⟨Path.plain components⟩)
  | none => .error (.entryOutside entry root)

/-- The directory of an entry file, or the working directory when the path names no directory. -/
def defaultRoot (tree : FileTree) (entry : Path) : Path :=
  match (tree.canonical entry).parent? with
  | some above => if above.text = "" then ⟨"."⟩ else above
  | none => ⟨"."⟩

end FileTree

/-- Where modules are looked up. -/
structure ModuleSearch where
  tree : FileTree
  root : Path
  searchPaths : List Path
  externalDirs : List String

namespace ModuleSearch

/-- The lookup in a file tree below the given directories. -/
def within (tree : FileTree) (root : Path) (searchPaths : List Path) (externalDirs : List String) :
    ModuleSearch :=
  ⟨tree, tree.canonical root, searchPaths.map tree.canonical, externalDirs⟩

/-- Whether a file belongs to the project. -/
def owns (search : ModuleSearch) (path : Path) : Bool :=
  match Path.below? search.root path with
  | none => false
  | some components =>
    !components.any fun
      | .name text => text ∈ search.externalDirs
      | _ => false

/-- The module of a name, from the first directory that has it. -/
def resolve (search : ModuleSearch) : Resolver := fun name =>
  ((search.root :: search.searchPaths).findSome? (search.tree.moduleFile? · name)).map fun file =>
    let path := search.tree.canonical file
    ⟨name, path, search.owns path⟩

end ModuleSearch

end ServiceTrace
