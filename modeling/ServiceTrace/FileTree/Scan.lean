import ServiceTrace.FileTree.Ignore

/-!
# `ServiceTrace.FileTree.Scan` — the source files of a repository

A scan lists the Python files below a directory, sorted by their paths relative to it. Directories of
version control, caches and virtual environments are left out, and so is everything that ignore files
name, unless the scan is told not to ask them. A directory that is left out is not looked into. The
repository itself is never left out, and it may be a single file.

## Contents
- **`ScannedFile`** — a file with its relative path, and its path starting with that of the
  repository.
- **`FileTree.scan`**.
-/

namespace ServiceTrace

/-- A source file of a repository. -/
structure ScannedFile where
  /-- The path relative to the repository, with single slashes. -/
  relative : String
  /-- The path that starts with the path of the repository. -/
  path : Path
deriving DecidableEq, Repr

/-- The names of files and directories that are left out at any depth. -/
def skippedNames : List String :=
  [".git", "__pycache__", ".venv", "venv", "node_modules"]

/-- Whether a path names a Python file. -/
def isPython (p : Path) : Bool :=
  p.extension? = some "py"

/-- A list of scanned files with one more, in order of their relative paths. -/
def insertScanned (f : ScannedFile) : List ScannedFile → List ScannedFile
  | [] => [f]
  | g :: gs => if f.relative < g.relative then f :: g :: gs else g :: insertScanned f gs

/-- Whether a walk reaches a file, given by the names that lead to it from the names `above` below the
    start: no directory on the way and not the file itself may be left out, and every directory must
    be opened by its path. -/
def Walk.reaches (w : Walk) (ignored : Bool → List String → Bool) (above : List String) :
    List String → Bool
  | [] => true
  | name :: names =>
    let below := above ++ [name]
    (w.pathTo above).text.utf8ByteSize < FileTree.pathLimit && name ∉ skippedNames &&
      !ignored (!names.isEmpty) below && w.reaches ignored below names

/-- The names that lead from one location to another one below it. -/
def below? : Location → Location → Option (List String)
  | [], rest => some rest
  | _ :: _, [] => none
  | a :: as, b :: bs => if a = b then below? as bs else none

/-- A file at a location as part of a walk, where `ignored` says which files and directories below the
    start are left out. -/
def Walk.scanned? (w : Walk) (ignored : Bool → List String → Bool) (location : Location) :
    Option ScannedFile :=
  match below? w.base location with
  | none => none
  | some [] => if isPython w.start then some ⟨".", w.start⟩ else none
  | some names =>
    let path := w.pathTo names
    if isPython path && w.reaches ignored [] names then some ⟨String.intercalate "/" names, path⟩
    else none

/-- The Python files of a repository, sorted by their relative paths. The path `-` stands for the
    standard input, in which there are no files. -/
def FileTree.scan (tree : FileTree) (noIgnore : Bool) (repo : Path) : List ScannedFile :=
  if repo.components = [.name "-"] then []
  else
    match tree.openable? repo with
    | none => []
    | some base =>
      let w : Walk := ⟨repo, base⟩
      let table := if noIgnore then [] else tree.ignoreTable
      (tree.files.filterMap fun (location, _) => w.scanned? (w.isIgnored table) location).foldr
        insertScanned []

end ServiceTrace
