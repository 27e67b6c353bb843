import ServiceTrace.FileTree.Basic
import ServiceTrace.Json.Basic

/-!
# `ServiceTrace.FileTree.Snapshot` — file trees written as JSON

A snapshot is an object with the member `files`, which gives the text of every file under its path, or
an array of bytes for a file that is no text; the member `trees`, which gives the parse tree of every
source file under its path; and the member `dirs`, which lists empty directories. All paths are
relative to the working directory.

A parse tree is an array: the kind of the node, 1 or 0 for named or not, the field that it fills or
`null`, the first byte, the byte behind the last one, and the array of its children.

## Contents
- **`ParseTree.ofJson?`**, **`FileTree.ofJson`**.
-/

namespace ServiceTrace

/-- The label that the first five items of a node spell. -/
def Label.ofJson? (kind named field start stop : Json) : Option Label := do
  return ⟨← kind.str?, (← named.nat?) = 1, field.str?, ← start.nat?, ← stop.nat?⟩

mutual

/-- The parse tree that a value spells. -/
def ParseTree.ofJson? : Json → Option ParseTree
  | .arr items => ParseTree.ofItems? items
  | _ => none

/-- The parse tree that the items of an array spell. -/
def ParseTree.ofItems? : List Json → Option ParseTree
  | [kind, named, field, start, stop, children] => do
    let label ← Label.ofJson? kind named field start stop
    return ⟨label, ← ParseTree.childrenOf? children⟩
  | _ => none

/-- The children that a value spells. -/
def ParseTree.childrenOf? : Json → Option (List ParseTree)
  | .arr items => ParseTree.allOf? items
  | _ => none

/-- The parse trees that a list of values spells. -/
def ParseTree.allOf? : List Json → Option (List ParseTree)
  | [] => some []
  | j :: js => return (← ParseTree.ofJson? j) :: (← ParseTree.allOf? js)

end

/-- The contents that a value spells: text, or an array of bytes. -/
def FileContent.ofJson : Json → FileContent
  | .str chars => .text chars
  | .arr items => .bytes (items.map fun j => UInt8.ofNat (j.nat?.getD 0))
  | _ => .bytes []

/-- The members of an object. -/
def Json.members : Json → List (String × Json)
  | .obj members => members
  | _ => []

namespace FileTree

/-- The location of a path without `.` and `..` that is relative to a directory. -/
def locationIn (working : Location) (path : String) : Location :=
  working ++ Text.pieces '/' path

/-- The file tree of a snapshot that was taken in the given working directory. -/
def ofJson (working : Location) (snapshot : Json) : FileTree :=
  let trees := (snapshot.field? "trees").getD .null
  let files := ((snapshot.field? "files").getD .null).members
  let dirs := ((snapshot.field? "dirs").bind Json.arr?).getD []
  { files := files.map fun (path, content) =>
      (locationIn working path,
        ⟨FileContent.ofJson content, (trees.field? path).bind ParseTree.ofJson?⟩)
    directories := (dirs.filterMap Json.str?).map (locationIn working)
    working := working }

end FileTree

end ServiceTrace
