/-!
# `ServiceTrace.Text.Split` — cutting texts at characters

Paths, dotted names, URL paths and source files are all cut at single characters. The functions here
work on lists of characters, so that their laws are plain list inductions; the versions on `String`
only convert. Files that need not be text are cut into lines byte by byte.

## Contents
- **`splitAt`** — the pieces between separators; there is always at least one piece.
- **`lines`** — the pieces between line ends.
- **`pieces`** — the non-empty pieces, for separators that may be doubled.
- **`splitLast?`** — the cut at the last separator.
- **`dropInitial?` / `findSub?`** — an initial segment, and the first occurrence of a segment.
- **`upper` / `lower`** — ASCII letter case; other letters are left alone.
-/

namespace ServiceTrace.Text

/-- The pieces of a sequence between the separators `sep`; a sequence without separator is one
    piece. -/
def splitAt {α : Type} [DecidableEq α] (sep : α) : List α → List (List α)
  | [] => [[]]
  | c :: cs =>
    if c = sep then [] :: splitAt sep cs
    else
      match splitAt sep cs with
      -- there is always a first piece, which grows by the character in front of it
      | [] => [[c]]
      | piece :: rest => (c :: piece) :: rest

/-- The lines of a sequence. They end at newlines; a carriage return in front of a newline belongs to
    the line end. Nothing after the last newline is no line. -/
def lines {α : Type} [DecidableEq α] (newline carriage : α) (text : List α) : List (List α) :=
  let pieces := splitAt newline text
  let ended := pieces.dropLast.map fun line =>
    if line.getLast? = some carriage then line.dropLast else line
  -- the last piece has no newline behind it, so a carriage return at its end is its own
  ended ++ (pieces.getLast?.filter (· ≠ [])).toList

/-- The pieces of a string between the separators `sep`. -/
def split (sep : Char) (s : String) : List String :=
  (splitAt sep s.toList).map String.ofList

/-- The non-empty pieces of a string between the separators `sep`. -/
def pieces (sep : Char) (s : String) : List String :=
  (split sep s).filter (· ≠ "")

/-- The text before and after the last `sep`, when there is one. -/
def splitLast? (sep : Char) : List Char → Option (List Char × List Char)
  | [] => none
  | c :: cs =>
    match splitLast? sep cs with
    | some (before, after) => some (c :: before, after)
    | none => if c = sep then some ([], cs) else none

/-- What follows the initial segment `start`, when the text begins with it. -/
def dropInitial? : List Char → List Char → Option (List Char)
  | [], cs => some cs
  | _ :: _, [] => none
  | d :: ds, c :: cs => if d = c then dropInitial? ds cs else none

/-- What follows the first occurrence of `sub`, when there is one. -/
def findSub? (sub : List Char) : List Char → Option (List Char)
  | [] => dropInitial? sub []
  | c :: cs =>
    match dropInitial? sub (c :: cs) with
    | some rest => some rest
    | none => findSub? sub cs

/-- What follows the initial segment `start` of a string, when the string begins with it. -/
def dropStart? (start s : String) : Option String :=
  (dropInitial? start.toList s.toList).map String.ofList

/-- Whether a string begins with `start`. -/
def beginsWith (start s : String) : Bool :=
  (dropInitial? start.toList s.toList).isSome

/-- Whether a string ends with `tail`. -/
def endsWith (tail s : String) : Bool :=
  (dropInitial? tail.toList.reverse s.toList.reverse).isSome

/-- A string with its ASCII letters in upper case. -/
def upper (s : String) : String :=
  String.ofList (s.toList.map Char.toUpper)

/-- A string with its ASCII letters in lower case. -/
def lower (s : String) : String :=
  String.ofList (s.toList.map Char.toLower)

/-- An initial segment followed by what comes after it is the text. -/
theorem dropInitial?_eq_some_iff {start cs rest : List Char} :
    dropInitial? start cs = some rest ↔ cs = start ++ rest := by
  induction start generalizing cs with
  | nil => simp [dropInitial?, eq_comm]
  | cons d ds ih =>
    cases cs with
    | nil => simp [dropInitial?]
    | cons c cs =>
      by_cases h : d = c
      · simp [dropInitial?, h, ih]
      · simp [dropInitial?, h, Ne.symm h]

end ServiceTrace.Text
