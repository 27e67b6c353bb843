/-!
# `ServiceTrace.ParseTree.Basic` — parse trees over a source text

A parse tree says which grammar rule covers which bytes of a source text. Every node has a label: its
kind, whether the rule is named or mere punctuation, the field that it fills in its parent, and the
half-open range of bytes that it covers.

## Contents
- **`Source`** — a text with its line ends; `Source.slice` cuts out a range of bytes, `Source.line`
  counts lines.
- **`ParseTree`** — labels and children.
-/

namespace ServiceTrace

/-! ## Source texts -/

/-- The text without its first `n` bytes, when these are whole characters. -/
def dropBytes : Nat → List Char → Option (List Char)
  | 0, cs => some cs
  | _ + 1, [] => none
  | n + 1, c :: cs => if c.utf8Size ≤ n + 1 then dropBytes (n + 1 - c.utf8Size) cs else none

/-- The first `n` bytes of a text, when these are whole characters. -/
def takeBytes : Nat → List Char → Option (List Char)
  | 0, _ => some []
  | _ + 1, [] => none
  | n + 1, c :: cs =>
    if c.utf8Size ≤ n + 1 then (takeBytes (n + 1 - c.utf8Size) cs).map (c :: ·) else none

/-- The byte offsets of the newlines in a text that begins at byte `offset`. -/
def newlineOffsets (offset : Nat) : List Char → List Nat
  | [] => []
  | c :: cs =>
    let rest := newlineOffsets (offset + c.utf8Size) cs
    if c = '\n' then offset :: rest else rest

/-- A source text: its characters, and the byte offsets of its newlines. -/
structure Source where
  chars : List Char
  newlines : List Nat := newlineOffsets 0 chars

namespace Source

/-- The source with a given text. -/
def ofString (text : String) : Source where
  chars := text.toList

/-- The characters in a range of bytes; none when the range is not made of whole characters. -/
def slice (src : Source) (start stop : Nat) : List Char :=
  if start ≤ stop then ((dropBytes start src.chars).bind (takeBytes (stop - start))).getD [] else []

/-- The line of a byte, counted from one. -/
def line (src : Source) (offset : Nat) : Nat :=
  src.newlines.countP (· < offset) + 1

end Source

/-! ## Trees -/

/-- What a parse tree says about one node. -/
structure Label where
  kind : String
  named : Bool
  /-- The field that the node fills in its parent. -/
  field : Option String
  start : Nat
  stop : Nat
deriving DecidableEq

/-- A parse tree. -/
structure ParseTree where
  label : Label
  children : List ParseTree

end ServiceTrace
