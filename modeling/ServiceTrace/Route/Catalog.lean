import ServiceTrace.Error
import ServiceTrace.Json.Reader
import ServiceTrace.Route.Template

/-!
# `ServiceTrace.Route.Catalog` — the routes that calls are matched against

A catalog is a list of normalized routes; where several match, the first one counts. It is read from
JSON: an array of records, each with at least a `name`. Values without a name are no route records
and are passed over, unknown members are ignored, but a member of the wrong type makes the whole
catalog invalid.

## Contents
- **`Catalog`**, **`Catalog.ofRoutes`**.
- **`Route.ofJson?`** — one record.
- **`Catalog.ofJson`**, **`Catalog.read`** — the whole catalog.
-/

namespace ServiceTrace

/-- The routes that calls are matched against. -/
structure Catalog where
  routes : List Route
deriving DecidableEq

/-- The member of a record that is a string, or empty when it is missing. -/
def Json.textMember? (record : Json) (key : String) : Option String :=
  match record.field? key with
  | none => some ""
  | some value => value.str?

/-- The member of a record that is a path; it may be missing or `null`. -/
def Json.pathMember? (record : Json) (key : String) : Option (Option Path) :=
  match record.field? key with
  | none | some .null => some none
  | some value => value.str?.map fun text => some ⟨text⟩

/-- The member of a record that is a list of strings, or empty when it is missing. -/
def Json.textsMember? (record : Json) (key : String) : Option (List String) :=
  match record.field? key with
  | none => some []
  | some value => value.arr?.bind fun items => items.mapM Json.str?

/-- The member of a record that is a line number of at most 64 bits; it may be missing or `null`. -/
def Json.lineMember? (record : Json) (key : String) : Option (Option Nat) :=
  match record.field? key with
  | none | some .null => some none
  | some value => (value.nat?.filter (· < UInt64.size)).map some

/-- A record as a route, before it is normalized. -/
def Route.ofJson? (record : Json) : Option Route := do
  let name ← (← record.field? "name").str?
  let methods ← record.textsMember? "methods"
  let pattern ← record.textMember? "route_pattern"
  let module ← record.textMember? "module"
  let function ← record.textMember? "func_name"
  let file ← record.pathMember? "file"
  let line ← record.lineMember? "lineno"
  let projectPath ← record.pathMember? "project_path"
  return ⟨name, methods, pattern, module, function, file, line, projectPath⟩

namespace Catalog

/-- The catalog without routes. -/
def empty : Catalog :=
  ⟨[]⟩

/-- The catalog of the given routes. -/
def ofRoutes (routes : List Route) : Catalog :=
  ⟨routes.map Route.normalize⟩

/-- The routes of a list of records that begins with record `index`. -/
def routesOf (index : Nat) : List Json → Except Error (List Route)
  | [] => .ok []
  | record :: records =>
    match record.field? "name", Route.ofJson? record with
    | none, _ => routesOf (index + 1) records
    | some _, none => .error (.catalogRecord index)
    | some _, some route => (routesOf (index + 1) records).map (route :: ·)

/-- The catalog that a JSON value holds. -/
def ofJson : Json → Except Error Catalog
  | .arr records => (routesOf 0 records).map ofRoutes
  | _ => .error .catalogNotArray

/-- How deep arrays and objects may be nested in the text of a catalog. -/
def maxNesting : Nat := 127

/-- The catalog that a text holds. -/
def read (text : String) : Except Error Catalog :=
  match Json.read? maxNesting text with
  | none => .error .catalogSyntax
  | some value => ofJson value

end Catalog

end ServiceTrace
