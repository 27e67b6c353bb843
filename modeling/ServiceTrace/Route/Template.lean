import ServiceTrace.Route.Basic
import ServiceTrace.Text.Blank
import ServiceTrace.Text.Split

/-!
# `ServiceTrace.Route.Template` — URL templates and normalized routes

A template is a list of segments between slashes. A segment that begins with `<`, `{` or `:` is a
variable, everything else is literal, and the *pattern code* of a template says which is which. A
normalized route has a name that begins and ends with a slash, methods in upper case, at least one of
them, and a pattern code; what the record leaves open is filled in.

## Contents
- **`normalizeName`** — the name between single slashes.
- **`patternCode`** — one letter for each segment.
- **`Route.normalize`**, **`Route.accepts`**.
-/

namespace ServiceTrace

/-- The characters that are stripped from both ends of a template. -/
def isTemplateMargin (c : Char) : Bool :=
  c = ' ' || c = '/' || c = '\\'

/-- A template between single slashes; without any segment it is one slash. -/
def normalizeName (name : String) : String :=
  match Text.trimWhere isTemplateMargin name.toList with
  | [] => "/"
  | inner => String.ofList ('/' :: inner ++ ['/'])

/-- Whether a segment of a template is a variable. -/
def isVariable (segment : List Char) : Bool :=
  match segment with
  | c :: _ => c = '<' || c = '{' || c = ':'
  | [] => false

/-- The pattern code of a template: `v` for a variable segment, `c` for a literal one. Empty segments
    count for nothing. -/
def patternCode (name : String) : String :=
  let segments := (Text.splitAt '/' name.toList).filter (· ≠ [])
  String.ofList (segments.map fun segment => if isVariable segment then 'v' else 'c')

namespace Route

/-- The methods without blanks around them, in upper case, empty ones left out. A route without
    methods accepts `GET`. -/
def normalizeMethods (methods : List String) : List String :=
  match (methods.map fun m => Text.upper (Text.trim m)).filter (· ≠ "") with
  | [] => ["GET"]
  | ms => ms

/-- A route in normal form. A pattern code that is given is kept, a blank one follows from the
    name. -/
def normalize (r : Route) : Route :=
  let name := normalizeName r.name
  { r with
    name := name
    methods := normalizeMethods r.methods
    pattern := if Text.trim r.pattern = "" then patternCode name else r.pattern }

/-- Whether a route accepts a method, whatever the case of its letters. -/
def accepts (r : Route) (method : String) : Bool :=
  r.methods.any fun m => Text.lower m = Text.lower method

end Route

end ServiceTrace
