import ServiceTrace.Json.Basic
import ServiceTrace.Json.Numeral

/-!
# `ServiceTrace.Json.Reader` — reading JSON text

Reading is strict: no comments, no trailing commas, no byte order mark, blanks are the space, the
tab, the newline and the carriage return, controls inside strings are refused, and so are escapes of
lone surrogates. Both halves are folds, one step per character and one step per token.

## Contents
- **`scan?`** — the tokens of a text. `Scan` is what the scanner is in the middle of.
- **`assemble?`** — the value that a list of tokens spells. The containers that are still open wait in
  a stack of `Frame`s, and their number is bounded.
- **`Json.read?`** — both together.
-/

namespace ServiceTrace.Json

/-! ## Tokens -/

/-- The pieces of JSON text: punctuation, and values without parts. -/
inductive Token where
  | openArray
  | closeArray
  | openObject
  | closeObject
  | colon
  | comma
  | scalar (value : Json)

/-- What the scanner is in the middle of. Characters already seen are kept in reverse. -/
inductive Scan where
  | between
  | word (seen : List Char)
  | number (seen : List Char)
  | string (seen : List Char)
  | escape (seen : List Char)
  /-- Inside the four digits of an escape. `high` is the leading surrogate that the escape before
      this one named. -/
  | code (seen : List Char) (high : Option Nat) (digits : Nat) (value : Nat)
  /-- A leading surrogate was named, its partner has to follow. -/
  | pair (seen : List Char) (high : Nat) (backslash : Bool)

/-- The value of a hexadecimal digit. -/
def hexDigit? (c : Char) : Option Nat :=
  if '0' ≤ c ∧ c ≤ '9' then some (c.toNat - '0'.toNat)
  else if 'a' ≤ c ∧ c ≤ 'f' then some (c.toNat - 'a'.toNat + 10)
  else if 'A' ≤ c ∧ c ≤ 'F' then some (c.toNat - 'A'.toNat + 10)
  else none

/-- The character that a one-letter escape stands for. -/
def escaped? : Char → Option Char
  | '"' => some '"'
  | '\\' => some '\\'
  | '/' => some '/'
  | 'b' => some '\x08'
  | 'f' => some '\x0c'
  | 'n' => some '\n'
  | 'r' => some '\r'
  | 't' => some '\t'
  | _ => none

/-- The value of one of the three words. -/
def word? (letters : List Char) : Option Json :=
  if letters = ['n', 'u', 'l', 'l'] then some .null
  else if letters = ['t', 'r', 'u', 'e'] then some (.bool true)
  else if letters = ['f', 'a', 'l', 's', 'e'] then some (.bool false)
  else none

/-- The value of a number literal in range. -/
def number? (literal : List Char) : Option Json := do
  let numeral ← Numeral.ofChars? literal
  if numeral.outOfRange then none else some (.num (String.ofList literal))

/-- Whether a character can stand in a number literal. -/
def isNumberChar (c : Char) : Bool :=
  c.isDigit || c = '-' || c = '+' || c = '.' || c = 'e' || c = 'E'

/-- The step of the scanner between two tokens. -/
def scanBetween (c : Char) (done : List Token) : Option (Scan × List Token) :=
  if c = ' ' ∨ c = '\t' ∨ c = '\n' ∨ c = '\r' then some (.between, done)
  else if c = '[' then some (.between, .openArray :: done)
  else if c = ']' then some (.between, .closeArray :: done)
  else if c = '{' then some (.between, .openObject :: done)
  else if c = '}' then some (.between, .closeObject :: done)
  else if c = ':' then some (.between, .colon :: done)
  else if c = ',' then some (.between, .comma :: done)
  else if c = '"' then some (.string [], done)
  else if c = '-' ∨ c.isDigit then some (.number [c], done)
  else if c.isAlpha then some (.word [c], done)
  else none

/-- The state after the four digits of an escape: a character of its own, the first half of a pair,
    or the second half. A surrogate without its partner is refused. -/
def scanCode (seen : List Char) (high : Option Nat) (value : Nat) : Option Scan :=
  match high with
  | none =>
    if 0xD800 ≤ value ∧ value < 0xDC00 then some (.pair seen value false)
    else if 0xDC00 ≤ value ∧ value < 0xE000 then none
    else some (.string (Char.ofNat value :: seen))
  | some first =>
    if 0xDC00 ≤ value ∧ value < 0xE000 then
      some (.string (Char.ofNat (0x10000 + (first - 0xD800) * 0x400 + (value - 0xDC00)) :: seen))
    else none

/-- One step of the scanner. The finished tokens are kept in reverse. -/
def scanStep : Scan × List Token → Char → Option (Scan × List Token)
  | (.between, done), c => scanBetween c done
  | (.word seen, done), c =>
    if c.isAlpha then some (.word (c :: seen), done)
    else do scanBetween c (.scalar (← word? seen.reverse) :: done)
  | (.number seen, done), c =>
    if isNumberChar c then some (.number (c :: seen), done)
    else do scanBetween c (.scalar (← number? seen.reverse) :: done)
  | (.string seen, done), c =>
    if c = '"' then some (.between, .scalar (.str (String.ofList seen.reverse)) :: done)
    else if c = '\\' then some (.escape seen, done)
    else if c.toNat < 0x20 then none
    else some (.string (c :: seen), done)
  | (.escape seen, done), c =>
    if c = 'u' then some (.code seen none 0 0, done)
    else (escaped? c).map fun d => (.string (d :: seen), done)
  | (.code seen high digits value, done), c => do
    let value := 16 * value + (← hexDigit? c)
    if digits = 3 then (scanCode seen high value).map (·, done)
    else some (.code seen high (digits + 1) value, done)
  | (.pair seen high false, done), c =>
    if c = '\\' then some (.pair seen high true, done) else none
  | (.pair seen high true, done), c =>
    if c = 'u' then some (.code seen (some high) 0 0, done) else none

/-- The tokens of a text, when every piece of it is one. -/
def scan? (text : List Char) : Option (List Token) := do
  match ← text.foldlM scanStep (.between, []) with
  | (.between, done) => some done.reverse
  | (.word seen, done) => some (.scalar (← word? seen.reverse) :: done).reverse
  | (.number seen, done) => some (.scalar (← number? seen.reverse) :: done).reverse
  | _ => none

/-! ## Values -/

/-- A container that is still open, with its finished parts in reverse. -/
inductive Frame where
  | items (done : List Json)
  | members (done : List (String × Json)) (key : String)

/-- What has to come next. -/
inductive Expect where
  | value
  | firstItem
  | firstKey (done : List (String × Json))
  | key (done : List (String × Json))
  | colon (done : List (String × Json)) (key : String)
  | afterValue (value : Json)

/-- One step of the assembler: `limit` bounds the number of containers that are open at once. -/
def assembleStep (limit : Nat) : Expect × List Frame → Token → Option (Expect × List Frame)
  | (.value, frames), token => start token frames
  | (.firstItem, frames), .closeArray => some (.afterValue (.arr []), frames)
  | (.firstItem, frames), token => start token (.items [] :: frames)
  | (.firstKey _, frames), .closeObject => some (.afterValue (.obj []), frames)
  | (.firstKey done, frames), .scalar (.str key) => some (.colon done key, frames)
  | (.key done, frames), .scalar (.str key) => some (.colon done key, frames)
  | (.colon done key, frames), .colon => some (.value, .members done key :: frames)
  | (.afterValue v, .items done :: frames), .comma => some (.value, .items (v :: done) :: frames)
  | (.afterValue v, .items done :: frames), .closeArray =>
    some (.afterValue (.arr (v :: done).reverse), frames)
  | (.afterValue v, .members done key :: frames), .comma => some (.key ((key, v) :: done), frames)
  | (.afterValue v, .members done key :: frames), .closeObject =>
    some (.afterValue (.obj ((key, v) :: done).reverse), frames)
  | _, _ => none
where
  /-- A value begins. -/
  start (token : Token) (frames : List Frame) : Option (Expect × List Frame) :=
    match token with
    | .scalar v => some (.afterValue v, frames)
    | .openArray => if frames.length < limit then some (.firstItem, frames) else none
    | .openObject => if frames.length < limit then some (.firstKey [], frames) else none
    | _ => none

/-- The value that a list of tokens spells. -/
def assemble? (limit : Nat) (tokens : List Token) : Option Json :=
  match tokens.foldlM (assembleStep limit) (.value, []) with
  | some (.afterValue v, []) => some v
  | _ => none

/-- The value that a text spells, with arrays and objects nested at most `limit` deep. -/
def read? (limit : Nat) (text : String) : Option Json := do
  assemble? limit (← scan? text.toList)

end ServiceTrace.Json
