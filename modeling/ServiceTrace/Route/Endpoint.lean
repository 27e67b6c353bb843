import ServiceTrace.Ast.Basic
import ServiceTrace.Text.Blank
import ServiceTrace.Text.Split

/-!
# `ServiceTrace.Route.Endpoint` — the endpoint that a URL expression names

The URL of a routing call is an expression: a string, a string with interpolations, a concatenation, a
template with its values. Its *endpoint* is the list of its path segments, each a literal or a
placeholder. The expression is walked from left to right. Literal text has its backslashes turned into
slashes; the first literal loses its scheme and host; a `?` or a `#` ends the path. Any other
expression is one placeholder, but only once a literal has been seen, so a URL that begins with a
variable does not count that variable.

## Contents
- **`Segment`**, **`Endpoint`** with its three texts `code`, `regexSource` and `display`.
- **`isPlaceholderText`** — literal text that stands for a value.
- **`UrlWalk`**, **`UrlWalk.literal`**, **`UrlWalk.placeholder`**, **`UrlWalk.walk`**.
- **`Endpoint.ofUrl`** — the endpoint of an expression.
-/

namespace ServiceTrace

/-- One segment of a URL path. -/
inductive Segment where
  | literal (text : String)
  | placeholder
deriving DecidableEq, Repr

/-- The path that a URL names. -/
structure Endpoint where
  segments : List Segment
deriving DecidableEq, Repr

/-- The characters that have a meaning in regular expressions. -/
def regexSpecial : List Char :=
  ['\\', '.', '+', '*', '?', '(', ')', '|', '[', ']', '{', '}', '^', '$', '#', '&', '-', '~']

/-- A text as a regular expression that matches just it. -/
def regexEscape (text : String) : String :=
  String.ofList (text.toList.flatMap fun c => if c ∈ regexSpecial then ['\\', c] else [c])

namespace Segment

/-- The letter of a segment in a pattern code. -/
def code : Segment → Char
  | .literal _ => 'c'
  | .placeholder => 'v'

/-- A segment as a regular expression. -/
def regex : Segment → String
  | .literal text => regexEscape text
  | .placeholder => "([^/]+)"

/-- A segment as it is shown. -/
def display : Segment → String
  | .literal text => text
  | .placeholder => "\x7b\x7d"

end Segment

namespace Endpoint

/-- The pattern code of an endpoint. -/
def code (e : Endpoint) : String :=
  String.ofList (e.segments.map Segment.code)

/-- The regular expression that the names of matching routes begin with. -/
def regexSource (e : Endpoint) : String :=
  "^/" ++ String.intercalate "/" (e.segments.map Segment.regex) ++ "/"

/-- The endpoint as it is shown, between slashes. -/
def display (e : Endpoint) : String :=
  let body := String.intercalate "/" (e.segments.map Segment.display)
  if body = "" then "/" else "/" ++ body ++ "/"

end Endpoint

/-! ## Literal text -/

/-- Whether a text looks like a UUID: hexadecimal digits, at least sixteen of them, and dashes, at
    least one. -/
def looksLikeUuid (text : List Char) : Bool :=
  let isHex (c : Char) : Bool :=
    c.isDigit || ('a' ≤ c && c ≤ 'f') || ('A' ≤ c && c ≤ 'F')
  text.all (fun c => c = '-' || isHex c) && text.any (· = '-') && 16 ≤ text.countP isHex

/-- Whether a literal segment stands for a value: a format placeholder, a number, a UUID. -/
def isPlaceholderText (segment : List Char) : Bool :=
  let text := Text.trimBlank segment
  let opens :=
    match text with
    | c :: _ => c = '{' || c = '<' || c = ':'
    | [] => false
  opens || text.contains '%' || text.all Char.isDigit || looksLikeUuid text

/-- The segment that a part of a literal stands for. -/
def Segment.ofPart (part : List Char) : Segment :=
  if isPlaceholderText part then .placeholder else .literal (String.ofList part)

/-- A URL without its scheme and its host. A text without `://` has neither. -/
def dropHost (url : List Char) : List Char :=
  match Text.findSub? [':', '/', '/'] url with
  | none => url
  | some rest => rest.dropWhile (· ≠ '/')

/-- Whether a character ends the path of a URL. -/
def endsPath (c : Char) : Bool :=
  c = '?' || c = '#'

/-! ## Walking a URL expression -/

/-- What is known about a URL after some of its pieces. -/
structure UrlWalk where
  segments : List Segment
  /-- Whether a literal piece has been seen. -/
  seenLiteral : Bool
  /-- Whether the path has ended. -/
  ended : Bool
deriving DecidableEq

namespace UrlWalk

/-- Nothing has been seen yet. -/
def start : UrlWalk :=
  ⟨[], false, false⟩

/-- The walk after a literal piece. -/
def literal (w : UrlWalk) (value : String) : UrlWalk :=
  let slashed := value.toList.map fun c => if c = '\\' then '/' else c
  let text := if w.seenLiteral then slashed else dropHost slashed
  let path := text.takeWhile fun c => !endsPath c
  let parts := (Text.splitAt '/' path).filter (· ≠ [])
  -- an empty literal counts as seen, although it adds no segment
  ⟨w.segments ++ parts.map Segment.ofPart, true, text.any endsPath⟩

/-- The walk after a piece whose text is not known. -/
def placeholder (w : UrlWalk) : UrlWalk :=
  if w.seenLiteral then { w with segments := w.segments ++ [.placeholder] } else w

mutual

/-- The walk over an expression. Once the path has ended nothing is added. -/
def walk (w : UrlWalk) : Expr → UrlWalk
  | .str value => if w.ended then w else w.literal value
  | .joined parts => w.walkAll parts
  | .binary left op right =>
    if w.ended then w
    else if op = "+" then (w.walk left).walk right
    else if op = "%" then w.walk left  -- the values on the right fill the template
    else w.placeholder
  | .call c => if w.ended then w else w.walkCall c
  | _ => if w.ended then w else w.placeholder

/-- The walk over the parts of a string with interpolations. -/
def walkAll (w : UrlWalk) : List Expr → UrlWalk
  | [] => w
  | e :: es => (w.walk e).walkAll es

/-- The walk over a call: only `format` on a string or on a string with interpolations is looked
    into. -/
def walkCall (w : UrlWalk) : Call → UrlWalk
  | ⟨func, _, _, _, _⟩ => w.walkFormat func

/-- The walk over the callee of a call. -/
def walkFormat (w : UrlWalk) : Expr → UrlWalk
  | .attribute value attr => if attr = "format" then w.walkTemplate value else w.placeholder
  | _ => w.placeholder

/-- The walk over the receiver of `format`. -/
def walkTemplate (w : UrlWalk) : Expr → UrlWalk
  | .str value => w.literal value
  | .joined parts => w.walkAll parts
  | _ => w.placeholder

end

end UrlWalk

/-- The endpoint that a URL expression names. -/
def Endpoint.ofUrl (url : Expr) : Endpoint :=
  ⟨(UrlWalk.start.walk url).segments⟩

end ServiceTrace
