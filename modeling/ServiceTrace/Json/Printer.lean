import ServiceTrace.Json.Basic

/-!
# `ServiceTrace.Json.Printer` — writing JSON text

A value has two written forms. The compact one has no blanks at all. The indented one puts every
item and member on a line of its own, two spaces deeper than its container, with a space after the
colon; empty containers stay on one line in both. Strings escape the quote, the backslash and the
controls, the five common controls by a letter and the others by their code; all other characters
stand for themselves.

## Contents
- **`quoteString`** — the written form of a string.
- **`Json.compact`** / **`Json.pretty`** — the two forms.
-/

namespace ServiceTrace.Json

/-- The written form of one character of a string. -/
def writeChar (c : Char) : List Char :=
  if c = '"' then ['\\', '"']
  else if c = '\\' then ['\\', '\\']
  else if c = '\x08' then ['\\', 'b']
  else if c = '\x0c' then ['\\', 'f']
  else if c = '\n' then ['\\', 'n']
  else if c = '\r' then ['\\', 'r']
  else if c = '\t' then ['\\', 't']
  else if c.toNat < 0x20 then
    ['\\', 'u', '0', '0', Nat.digitChar (c.toNat / 16), Nat.digitChar (c.toNat % 16)]
  else [c]

/-- The written form of a string, quotes included. -/
def quoteString (s : String) : String :=
  String.ofList ('"' :: s.toList.flatMap writeChar ++ ['"'])

/-! ## The compact form -/

mutual

/-- The pieces of the compact form, in order. -/
def compactPieces : Json → List String
  | .null => ["null"]
  | .bool true => ["true"]
  | .bool false => ["false"]
  | .num literal => [literal]
  | .str text => [quoteString text]
  | .arr items => "[" :: (compactItems items).drop 1 ++ ["]"]
  | .obj members => "\x7b" :: (compactMembers members).drop 1 ++ ["\x7d"]

/-- Items, each behind a comma; the first comma is dropped by the container. -/
def compactItems : List Json → List String
  | [] => []
  | item :: items => "," :: compactPieces item ++ compactItems items

/-- Members, each behind a comma; the first comma is dropped by the container. -/
def compactMembers : List (String × Json) → List String
  | [] => []
  | member :: members => "," :: compactMember member ++ compactMembers members

/-- One member: its key, a colon, its value. -/
def compactMember : String × Json → List String
  | (key, value) => quoteString key :: ":" :: compactPieces value

end

/-- The compact written form. -/
def compact (value : Json) : String :=
  String.join (compactPieces value)

/-! ## The indented form -/

/-- A new line that is indented by `depth` levels. -/
def newLine (depth : Nat) : String :=
  String.ofList ('\n' :: List.replicate (2 * depth) ' ')

mutual

/-- The pieces of the indented form of a value whose container is `depth` levels deep. -/
def prettyPieces (depth : Nat) : Json → List String
  | .null => ["null"]
  | .bool true => ["true"]
  | .bool false => ["false"]
  | .num literal => [literal]
  | .str text => [quoteString text]
  | .arr items =>
    if items.isEmpty then ["[]"]
    else "[" :: (prettyItems (depth + 1) items).drop 1 ++ [newLine depth, "]"]
  | .obj members =>
    if members.isEmpty then ["\x7b\x7d"]
    else "\x7b" :: (prettyMembers (depth + 1) members).drop 1 ++ [newLine depth, "\x7d"]

/-- Items, each on a line of its own behind a comma; the container drops the first comma. -/
def prettyItems (depth : Nat) : List Json → List String
  | [] => []
  | item :: items => "," :: newLine depth :: prettyPieces depth item ++ prettyItems depth items

/-- Members, each on a line of its own behind a comma; the container drops the first comma. -/
def prettyMembers (depth : Nat) : List (String × Json) → List String
  | [] => []
  | member :: members =>
    "," :: newLine depth :: prettyMember depth member ++ prettyMembers depth members

/-- One member: its key, a colon and a space, its value. -/
def prettyMember (depth : Nat) : String × Json → List String
  | (key, value) => quoteString key :: ": " :: prettyPieces depth value

end

/-- The indented written form. -/
def pretty (value : Json) : String :=
  String.join (prettyPieces 0 value)

end ServiceTrace.Json
