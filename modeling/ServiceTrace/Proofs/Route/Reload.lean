import ServiceTrace.Ast.Export
import ServiceTrace.Proofs.Json.RoundTrip
import ServiceTrace.Proofs.Route.Normal
import ServiceTrace.Route.Catalog

/-!
# `ServiceTrace.Proofs.Route.Reload` — catalogs that are written down and loaded again

The routes of a repository are written out as JSON by one run and loaded as a catalog by the next. The record
of a route names every field that the reader looks for, and leaves out the optional ones without a value, so
a record is read as the route that it was written for (`Route.ofJson?_toJson`). The catalog normalizes what
it reads; the routes of a catalog are normal already and stay as they are.

## Contents
- **`Catalog.toJson`** — a catalog as the array of its routes.
- **`Catalog.ofJson_toJson`** — the array is taken for the catalog.
- **`Catalog.read_written`** — so is every text that it is written as.
-/

namespace ServiceTrace

/-! ## Records -/

namespace Json

theorem field?_nil (key : String) : (Json.obj []).field? key = none :=
  rfl

/-- A member behind another one comes before it. -/
theorem field?_append (key : String) (members more : List (String × Json)) :
    (Json.obj (members ++ more)).field? key =
      ((Json.obj more).field? key).or ((Json.obj members).field? key) := by
  simp only [field?, List.reverse_append, List.find?_append, Option.map_or]

theorem field?_cons (key name : String) (value : Json) (members : List (String × Json)) :
    (Json.obj ((name, value) :: members)).field? key =
      ((Json.obj members).field? key).or (if name = key then some value else none) := by
  have hsingle : (Json.obj [(name, value)]).field? key = if name = key then some value else none := by
    by_cases h : name = key <;> simp [field?, h]
  rw [← List.singleton_append, field?_append, hsingle]

theorem field?_optional (key name : String) (value : Option Json) :
    (Json.obj (optional name value)).field? key = if name = key then value else none := by
  cases value with
  | none => rw [optional, field?_nil, ite_self]
  | some value =>
    rw [optional, field?_cons, field?_nil, Option.none_or]

theorem value_of_mem_optional {key : String} {value : Option Json} {member : String × Json}
    (h : member ∈ optional key value) : value = some member.2 := by
  cases value with
  | none => exact absurd h List.not_mem_nil
  | some value => rw [List.mem_singleton.mp h]

theorem writable_strings (texts : List String) (depth : Nat) : Writable (depth + 1) (strings texts) := by
  apply Writable.arr
  intro item hitem
  obtain ⟨text, -, rfl⟩ := List.mem_map.mp hitem
  exact .str text

theorem mapM_str? (texts : List String) : (texts.map Json.str).mapM str? = some texts := by
  induction texts with
  | nil => rfl
  | cons text texts ih =>
    rw [List.map_cons, List.mapM_cons, ih]
    rfl

end Json

/-- Whether the line of a route, when it is known, is a number of at most 64 bits. -/
def Route.FitsLine (r : Route) : Prop :=
  ∀ n, r.line = some n → n < UInt64.size

/-- Every part of a route is found in its record under its own name. -/
theorem Route.field?_toJson (r : Route) :
    r.toJson.field? "name" = some (.str r.name) ∧ r.toJson.field? "methods" = some (.strings r.methods) ∧
      r.toJson.field? "route_pattern" = some (.str r.pattern) ∧
      r.toJson.field? "module" = some (.str r.module) ∧
      r.toJson.field? "func_name" = some (.str r.function) ∧
      r.toJson.field? "file" = r.file.map (.str ·.text) ∧
      r.toJson.field? "lineno" = r.line.map .nat ∧
      r.toJson.field? "project_path" = r.projectPath.map (.str ·.text) := by
  simp [Route.toJson, Json.field?_append, Json.field?_cons, Json.field?_optional]

theorem Route.ofJson?_toJson {r : Route} (h : r.FitsLine) : Route.ofJson? r.toJson = some r := by
  obtain ⟨hname, hmethods, hpattern, hmodule, hfunction, hfile, hline, hproject⟩ := r.field?_toJson
  have hfile' : r.toJson.pathMember? "file" = some r.file := by
    rw [Json.pathMember?, hfile]
    cases r.file <;> rfl
  have hproject' : r.toJson.pathMember? "project_path" = some r.projectPath := by
    rw [Json.pathMember?, hproject]
    cases r.projectPath <;> rfl
  -- the line is the one part that is written as digits, and read only when it fits into 64 bits
  have hline' : r.toJson.lineMember? "lineno" = some r.line := by
    rw [Json.lineMember?, hline]
    cases hn : r.line with
    | none => rfl
    | some n =>
      show ((Text.readDigits? (toString n).toList).filter _).map some = _
      rw [Text.readDigits?_toString, Option.filter_some, if_pos (decide_eq_true (h n hn))]
      rfl
  have hmethods' : r.toJson.textsMember? "methods" = some r.methods := by
    rw [Json.textsMember?, hmethods]
    exact Json.mapM_str? r.methods
  simp only [Route.ofJson?, Json.textMember?, hname, hmethods', hpattern, hmodule, hfunction, hfile', hline',
    hproject', Option.bind_eq_bind, Option.bind_some, Json.str?]
  rfl

/-- A record is an object that holds a list of strings. -/
theorem Route.writable_toJson {r : Route} (h : r.FitsLine) (depth : Nat) :
    Json.Writable (depth + 2) r.toJson := by
  have hpath : ∀ (path : Option Path) (value : Json), path.map (.str ·.text) = some value →
      Json.Writable (depth + 1) value := by
    intro path value hvalue
    obtain ⟨p, -, rfl⟩ := Option.map_eq_some_iff.mp hvalue
    exact .str p.text
  apply Json.Writable.obj
  intro member hmember
  simp only [List.mem_append, List.mem_cons, List.not_mem_nil, or_false] at hmember
  rcases hmember with (((rfl | rfl | rfl | rfl | rfl) | hfile) | hline) | hproject
  · exact .str r.name
  · exact Json.writable_strings r.methods depth
  · exact .str r.pattern
  · exact .str r.module
  · exact .str r.function
  · exact hpath r.file member.2 (Json.value_of_mem_optional hfile)
  · obtain ⟨n, hn, hvalue⟩ := Option.map_eq_some_iff.mp (Json.value_of_mem_optional hline)
    rw [← hvalue]
    exact .nat (h n hn)
  · exact hpath r.projectPath member.2 (Json.value_of_mem_optional hproject)

namespace Catalog

/-! ## Catalogs -/

/-- A catalog as the array of its routes. -/
def toJson (c : Catalog) : Json :=
  .arr (c.routes.map Route.toJson)

/-- Records that were written for routes are read as these routes, from any position on. -/
theorem routesOf_map_toJson {routes : List Route} (h : ∀ r ∈ routes, r.FitsLine) (index : Nat) :
    routesOf index (routes.map Route.toJson) = .ok routes := by
  -- the position is there for errors, of which there are none
  induction routes generalizing index with
  | nil => rfl
  | cons r routes ih =>
    have hrest := ih (fun r hr => h r (List.mem_cons_of_mem _ hr)) (index + 1)
    rw [List.map_cons, routesOf, r.field?_toJson.1, Route.ofJson?_toJson (h r List.mem_cons_self)]
    show (routesOf (index + 1) (routes.map Route.toJson)).map (r :: ·) = _
    rw [hrest]
    rfl

variable {routes : List Route}

theorem fitsLine_ofRoutes (h : ∀ r ∈ routes, r.FitsLine) : ∀ r ∈ (ofRoutes routes).routes, r.FitsLine := by
  intro r hr
  obtain ⟨given, hgiven, rfl⟩ := List.mem_map.mp hr
  exact h given hgiven

/-- The routes of a catalog are normal, so a catalog of them is the same catalog. -/
theorem ofRoutes_routes (routes : List Route) : ofRoutes (ofRoutes routes).routes = ofRoutes routes := by
  show Catalog.mk ((routes.map Route.normalize).map Route.normalize) = ⟨routes.map Route.normalize⟩
  rw [List.map_map]
  exact congrArg Catalog.mk (List.map_congr_left fun r _ => r.normalize_normalize)

/-- The array of the routes of a catalog is taken for the catalog. -/
theorem ofJson_toJson (h : ∀ r ∈ routes, r.FitsLine) :
    ofJson (ofRoutes routes).toJson = .ok (ofRoutes routes) := by
  rw [toJson, ofJson, routesOf_map_toJson (fitsLine_ofRoutes h)]
  exact congrArg Except.ok (ofRoutes_routes routes)

theorem writable_toJson (h : ∀ r ∈ routes, r.FitsLine) :
    Json.Writable maxNesting (ofRoutes routes).toJson := by
  show Json.Writable (126 + 1) _
  apply Json.Writable.arr
  intro item hitem
  obtain ⟨r, hr, rfl⟩ := List.mem_map.mp hitem
  exact Route.writable_toJson (fitsLine_ofRoutes h r hr) 124

/-- **A catalog survives being written and loaded again.** For all routes, whatever their texts are, the
    catalog of them is read back from the JSON array of its routes, in the compact form and in the indented
    one, with or without a line end behind it. For normalizing twice is normalizing once: what has been
    normalized is in normal form, and a route in normal form stays as it is. -/
theorem read_written (routes : List Route) (hlines : ∀ r ∈ routes, r.FitsLine) :
    read (ofRoutes routes).toJson.compact = .ok (ofRoutes routes) ∧
      read (ofRoutes routes).toJson.pretty = .ok (ofRoutes routes) ∧
      read ((ofRoutes routes).toJson.pretty ++ "\n") = .ok (ofRoutes routes) ∧
      (∀ text, Json.read? maxNesting text = some (ofRoutes routes).toJson →
        read text = .ok (ofRoutes routes)) ∧
      ∀ r : Route, r.normalize.normalize = r.normalize ∧ r.normalize.IsNormal ∧
        (r.IsNormal → r.normalize = r) := by
  have hwritable := writable_toJson hlines
  have hread : ∀ text, Json.read? maxNesting text = some (ofRoutes routes).toJson →
      read text = .ok (ofRoutes routes) := by
    intro text htext
    rw [read, htext]
    exact ofJson_toJson hlines
  refine ⟨?_, ?_, ?_, hread,
    fun r => ⟨r.normalize_normalize, r.isNormal_normalize, Route.IsNormal.normalize_eq⟩⟩
  · exact hread _ (Json.read?_compact hwritable)
  · exact hread _ (Json.read?_pretty hwritable)
  · exact hread _ (Json.read?_pretty_line hwritable)

/-- Two routes as a user may write them: the root, and a template with blanks and slashes around it. -/
def plainRoutes : List Route :=
  [⟨" / ", [], " ", "home", "index", none, none, none⟩,
    ⟨"\\carts/<int:id>/ ", [" get ", "", "Post"], "", "cart", "show", some ⟨"/srv/cart.py"⟩, some 12,
      some ⟨"/srv"⟩⟩]

theorem plainRoutes_reloaded :
    (ofRoutes plainRoutes).routes =
        [⟨"/", ["GET"], "", "home", "index", none, none, none⟩,
          ⟨"/carts/<int:id>/", ["GET", "POST"], "cv", "cart", "show", some ⟨"/srv/cart.py"⟩, some 12,
            some ⟨"/srv"⟩⟩] ∧
      (∀ r ∈ plainRoutes, r.FitsLine) ∧
      read ((ofRoutes plainRoutes).toJson.pretty ++ "\n") = .ok (ofRoutes plainRoutes) := by
  have hlines : ∀ r ∈ plainRoutes, r.FitsLine := by
    intro r hr n hn
    rcases List.mem_cons.mp hr with rfl | hr
    · exact absurd hn nofun
    · obtain rfl := List.mem_singleton.mp hr
      obtain rfl := Option.some.inj hn
      decide
  exact ⟨by decide, hlines, (read_written plainRoutes hlines).2.2.1⟩

end Catalog

end ServiceTrace
