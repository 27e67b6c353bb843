import ServiceTrace.FileTree.Scan
import ServiceTrace.Flow.Basic

/-!
# `ServiceTrace.Flow.Discovery` — flows that source files mark

Flow markers are collected from every Python file of a repository, in the order of a scan, so that the
first marker of a name is the one in the first file.

## Contents
- **`FileTree.markersIn`**, **`FileTree.flows`**.
-/

namespace ServiceTrace.FileTree

/-- The flow markers of a file. A file that cannot be read has none. -/
def markersIn (tree : FileTree) (file : ScannedFile) : List FlowMarker :=
  match tree.read file.path with
  | .ok text => FlowMarker.inSource (file.path.fileStem?.getD "") file.path text
  | .error _ => []

/-- The flows that the files of a repository mark, sorted by name. -/
def flows (tree : FileTree) (noIgnore : Bool) (repo : Path) : List Flow :=
  Flow.ofMarkers ((tree.scan noIgnore (tree.canonical repo)).flatMap tree.markersIn)

end ServiceTrace.FileTree
