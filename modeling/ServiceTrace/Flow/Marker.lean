import ServiceTrace.Path
import ServiceTrace.Text.Blank
import ServiceTrace.Text.Split

/-!
# `ServiceTrace.Flow.Marker` — flow markers in source text

A comment `# flow-start(name)` tags the function defined next below it as the start of the flow
`name`, `# flow-end(name)` as its end. Markers are found in the text, line by line: a run of number
signs, blanks, the word, and a name that reaches to the last closing parenthesis of the line. A line
with both kinds counts as a start. A marker without a definition below it is passed over.

## Contents
- **`markerName?`**, **`definedName?`** — what a line says.
- **`FlowPoint`**, **`FlowMarker`**, **`FlowMarker.inSource`**.
-/

namespace ServiceTrace

/-! ## Lines -/

/-- The name in a marker of the given word that begins with the first character: number signs,
    blanks, the word, and a parenthesized name. -/
def markerHere? (word : List Char) (cs : List Char) : Option (List Char) :=
  match cs with
  | '#' :: _ =>
    let rest := (cs.dropWhile (· = '#')).dropWhile Text.isBlank
    match (Text.dropInitial? word rest).bind (Text.splitLast? ')') with
    | some (c :: name, _) => some (c :: name)
    | _ => none
  | _ => none

/-- The name in the first marker of the given word in a line, without blanks around it. -/
def markerName? (word : List Char) : List Char → Option (List Char)
  | [] => none
  | c :: cs => (markerHere? word (c :: cs)).or (markerName? word cs)

/-- What follows a word that is ended by blanks. -/
def afterWord? (word : String) (cs : List Char) : Option (List Char) :=
  match Text.dropInitial? word.toList cs with
  | some (c :: rest) => if Text.isBlank c then some (rest.dropWhile Text.isBlank) else none
  | _ => none

/-- Whether a character can begin a name. -/
def isNameStart (c : Char) : Bool :=
  c.isAlpha || c = '_'

/-- Whether a character can continue a name. -/
def isNameChar (c : Char) : Bool :=
  c.isAlphanum || c = '_'

/-- The name of the function whose definition begins in a line. -/
def definedName? (line : List Char) : Option (List Char) :=
  let cs := line.dropWhile Text.isBlank
  match afterWord? "def" ((afterWord? "async" cs).getD cs) with
  | some (c :: rest) =>
    let (name, tail) := (c :: rest).span isNameChar
    if isNameStart c && (tail.dropWhile Text.isBlank).head? = some '(' then some name else none
  | _ => none

/-! ## Markers -/

/-- A place where a flow starts or ends. -/
structure FlowPoint where
  /-- The stem of the file. -/
  module : String
  file : Path
  function : String
  /-- The line of the marker. -/
  line : Nat
deriving DecidableEq, Repr

/-- Whether a marker tags the start or the end of a flow. -/
inductive MarkerKind where
  | start
  | stop
deriving DecidableEq, Repr

/-- A flow marker. -/
structure FlowMarker where
  kind : MarkerKind
  name : String
  point : FlowPoint
deriving DecidableEq, Repr

/-- The kind and the name of the marker in a line. -/
def markerIn? (line : List Char) : Option (MarkerKind × List Char) :=
  match markerName? "flow-start(".toList line with
  | some name => some (.start, name)
  | none => (markerName? "flow-end(".toList line).map (.stop, ·)

namespace FlowMarker

/-- The markers of the lines from a line number on. -/
def inLines (module : String) (file : Path) (number : Nat) : List (List Char) → List FlowMarker
  | [] => []
  | line :: below =>
    let rest := inLines module file (number + 1) below
    match markerIn? line, below.findSome? definedName? with
    | some (kind, name), some function =>
      ⟨kind, String.ofList (Text.trimBlank name),
        ⟨module, file, String.ofList function, number⟩⟩ :: rest
    | _, _ => rest

/-- The markers of a source text. -/
def inSource (module : String) (file : Path) (text : String) : List FlowMarker :=
  inLines module file 1 (Text.lines '\n' '\r' text.toList)

end FlowMarker

end ServiceTrace
