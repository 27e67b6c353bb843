/-!
# `ServiceTrace.ParseTree.Literal` — the contents of string literals

The text between the quotes of a literal is decoded as far as URLs need it: escaped backslashes,
quotes and slashes, newlines, tabs and carriage returns, and a line break that a backslash hides. Any
other escape keeps its backslash. In a raw literal nothing is decoded.

## Contents
- **`unescape`** — the decoded text; **`isRawOpening`** — whether the opening of a literal is raw.
-/

namespace ServiceTrace

/-- The characters that a backslash and the character after it stand for. -/
def escapeMeaning : Char → List Char
  | '\\' => ['\\']
  | '\'' => ['\'']
  | '"' => ['"']
  | '/' => ['/']
  | 'n' => ['\n']
  | 't' => ['\t']
  | 'r' => ['\r']
  | '\n' => []
  | other => ['\\', other]

/-- The text of a literal with its escapes decoded. -/
def unescape : List Char → List Char
  | [] => []
  | [c] => [c]
  | c :: d :: cs => if c = '\\' then escapeMeaning d ++ unescape cs else c :: unescape (d :: cs)

/-- Whether the opening of a literal, its letters and its quotes, makes it raw. -/
def isRawOpening (opening : List Char) : Bool :=
  opening.contains 'r' || opening.contains 'R'

end ServiceTrace
