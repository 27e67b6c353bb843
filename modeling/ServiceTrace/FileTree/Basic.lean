import ServiceTrace.Error
import ServiceTrace.ParseTree.Basic
import ServiceTrace.Path

/-!
# `ServiceTrace.FileTree.Basic` — files and directories

A file tree is a snapshot of the files that a run can see, together with the directory that relative
paths start from. A *location* is the list of names that leads from the root to a file or a directory;
every directory on the way to a file exists. A path leads to a location when everything that it passes
through exists, so that `a/../b` leads nowhere when there is no directory `a`.

A source file comes with its parse tree.

## Contents
- **`FileContent`**, **`SourceFile`**, **`FileTree`**.
- **`FileTree.locate?`** — where a path leads; `canonical`.
- **`FileTree.openable?`** — what can be opened by a path; `fileOf?`, `isFile`, `isDir`.
- **`FileTree.read`**, **`FileTree.size`**, **`FileTree.parseTree?`** — the contents of files.
-/

namespace ServiceTrace

/-- What a file holds: text, or bytes that are no UTF-8. -/
inductive FileContent where
  | text (chars : String)
  | bytes (octets : List UInt8)

/-- The number of bytes of a file. -/
def FileContent.size : FileContent → Nat
  | .text chars => chars.utf8ByteSize
  | .bytes octets => octets.length

/-- The bytes of a file. -/
def FileContent.octets : FileContent → List UInt8
  | .text chars => chars.toUTF8.toList
  | .bytes octets => octets

/-- A file: its contents, and its parse tree when it is a source file. -/
structure SourceFile where
  content : FileContent
  tree : Option ParseTree

/-- A sequence of names from the root. -/
abbrev Location := List String

/-- The files and directories that a run can see. -/
structure FileTree where
  files : List (Location × SourceFile)
  /-- Directories that exist although nothing is in them. -/
  directories : List Location
  /-- The directory that relative paths start from. -/
  working : Location

namespace FileTree

/-- The file at a location. -/
def file? (tree : FileTree) (location : Location) : Option SourceFile :=
  (tree.files.find? (·.1 = location)).map (·.2)

/-- Whether there is a directory at a location: the root, the working directory, an empty directory,
    and everything above these and above files. -/
def isDirAt (tree : FileTree) (location : Location) : Bool :=
  location.isPrefixOf tree.working ||
    tree.directories.any (location.isPrefixOf ·) ||
    tree.files.any fun (file, _) => location.isPrefixOf file && location ≠ file

/-- Whether there is anything at a location. -/
def existsAt (tree : FileTree) (location : Location) : Bool :=
  tree.isDirAt location || (tree.file? location).isSome

/-! ## Paths -/

/-- The location after one more step of a path. A step needs a directory to start from and something to
    arrive at; the root is its own parent. -/
def step (tree : FileTree) (location : Location) (c : Path.Component) : Option Location :=
  match c with
  | .root => some []
  | .current => some location
  | .parent => if tree.isDirAt location then some location.dropLast else none
  | .name text =>
    let next := location ++ [text]
    if tree.isDirAt location && tree.existsAt next then some next else none

/-- Whether a path can only lead to a directory, because it ends in a slash or in `/.`. -/
def needsDir (p : Path) : Bool :=
  match p.text.toList.reverse with
  | '/' :: _ => true
  | '.' :: '/' :: _ => true
  | _ => false

/-- The location that a path leads to. The empty path leads nowhere. -/
def locate? (tree : FileTree) (p : Path) : Option Location :=
  if p.text = "" then none
  else
    match p.components.foldlM tree.step tree.working with
    | none => none
    | some location => if needsDir p && !tree.isDirAt location then none else some location

/-- The absolute path of a location. -/
def pathOf (location : Location) : Path :=
  ⟨"/" ++ String.intercalate "/" location⟩

/-- The shortest absolute path to what a path leads to. A path that leads nowhere stays as it is. -/
def canonical (tree : FileTree) (p : Path) : Path :=
  match tree.locate? p with
  | some location => pathOf location
  | none => p

/-! ## Opening -/

/-- The number of bytes from which on a path is too long for anything to be opened by it. -/
def pathLimit : Nat := 4096

/-- The location that can be opened by a path. The path must not be too long, even if only for steps
    that lead nowhere; finding its canonical form is not bound by that. -/
def openable? (tree : FileTree) (p : Path) : Option Location :=
  if p.text.utf8ByteSize < pathLimit then tree.locate? p else none

/-- The file that a path opens. -/
def fileOf? (tree : FileTree) (p : Path) : Option SourceFile :=
  (tree.openable? p).bind tree.file?

/-- Whether a path opens a file. -/
def isFile (tree : FileTree) (p : Path) : Bool :=
  (tree.fileOf? p).isSome

/-- Whether a path opens a directory. -/
def isDir (tree : FileTree) (p : Path) : Bool :=
  (tree.openable? p).any tree.isDirAt

/-! ## Contents -/

/-- The text of the file that a path opens. -/
def read (tree : FileTree) (p : Path) : Except Error String :=
  match tree.fileOf? p with
  | some ⟨.text chars, _⟩ => .ok chars
  | _ => .error (.unreadable p)

/-- The size of the file that a path opens; nothing has size zero. -/
def size (tree : FileTree) (p : Path) : Nat :=
  match tree.fileOf? p with
  | some file => file.content.size
  | none => 0

/-- The parse tree of the file that a path opens. -/
def parseTree? (tree : FileTree) (p : Path) : Option ParseTree :=
  (tree.fileOf? p).bind (·.tree)

end FileTree

end ServiceTrace
