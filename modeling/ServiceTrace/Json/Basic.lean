import ServiceTrace.Text.Digits

/-!
# `ServiceTrace.Json.Basic` — JSON values

Route catalogs come in as JSON and every result goes out as JSON. A number keeps its literal text:
nothing here calculates with numbers, and whether a line number was written as a plain natural
number can only be told from its spelling. An object is the list of its members as written; a
repeated key is kept, and looking a key up finds its last member.

## Contents
- **`Json`** — the values.
- **`Json.field?`** — looking up a key.
- **`Json.nat`**, **`Json.strings`**, **`Json.optional`** — values made from numbers, lists of strings and
  optional members.
- **`Json.str?`**, **`Json.arr?`**, **`Json.nat?`** — values taken apart.
-/

namespace ServiceTrace

/-- A JSON value. Numbers keep their literal text, objects their members in order. -/
inductive Json where
  | null
  | bool (value : Bool)
  | num (literal : String)
  | str (text : String)
  | arr (items : List Json)
  | obj (members : List (String × Json))

namespace Json

/-- The number `n`, written in decimal. -/
def nat (n : Nat) : Json :=
  .num (toString n)

/-- An array of strings. -/
def strings (texts : List String) : Json :=
  .arr (texts.map .str)

/-- The value under `key` of an object: of several members with that key the last one counts. A
    value that is not an object has no members. -/
def field? (key : String) : Json → Option Json
  | .obj members => (members.reverse.find? (·.1 = key)).map (·.2)
  | _ => none

/-- The text of a string value. -/
def str? : Json → Option String
  | .str text => some text
  | _ => none

/-- The items of an array value. -/
def arr? : Json → Option (List Json)
  | .arr items => some items
  | _ => none

/-- The value of a number that is written with digits alone. -/
def nat? : Json → Option Nat
  | .num literal => Text.readDigits? literal.toList
  | _ => none

/-- The one-member list for a value that is there, the empty list otherwise. Objects leave out the
    members that they have no value for. -/
def optional (key : String) : Option Json → List (String × Json)
  | some value => [(key, value)]
  | none => []

end Json

end ServiceTrace
