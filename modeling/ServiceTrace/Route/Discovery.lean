import ServiceTrace.FileTree.Scan
import ServiceTrace.ParseTree.Lowering
import ServiceTrace.Route.Template

/-!
# `ServiceTrace.Route.Discovery` — routes that source files declare

Web frameworks declare routes by decorators: `@app.route("/path", methods=[...])` in one style,
`@app.get("/path")` in another. Discovery collects them from every Python file of a repository, the
functions of classes included. The first directory below the repository is the owning service.

## Contents
- **`Stmt.handlersIn`** — the functions that may serve routes.
- **`FunctionDef.declaredRoutes`** — the routes that the decorators of a function declare.
- **`FileTree.routes`** — the routes of a repository.
-/

namespace ServiceTrace

mutual

/-- The functions of a statement that may serve routes: the function itself, or those of a class. -/
def Stmt.handlers : Stmt → List FunctionDef
  | .function d => [d]
  | .classDef d => d.handlers
  | _ => []

/-- The functions of a class that may serve routes. -/
def ClassDef.handlers : ClassDef → List FunctionDef
  | ⟨_, _, _, body, _⟩ => Stmt.handlersIn body

/-- The functions of a body that may serve routes. -/
def Stmt.handlersIn : List Stmt → List FunctionDef
  | [] => []
  | s :: ss => s.handlers ++ Stmt.handlersIn ss

end

/-- The text of a string literal. -/
def Expr.text? : Expr → Option String
  | .str value => some value
  | _ => none

/-- The strings in a list literal, or the one string that stands in its place. -/
def Expr.texts : Expr → List String
  | .other _ children => children.filterMap Expr.text?
  | e => e.text?.toList

/-- The names of decorators that are verbs. -/
def decoratorVerbs : List String :=
  ["get", "post", "put", "delete", "patch", "head"]

/-- A URL template with its methods, and the line that declares it. -/
structure DeclaredRoute where
  name : String
  methods : List String
  line : Nat
deriving DecidableEq

/-- The route that a decorator declares. A verb needs a path that begins with a slash. -/
def Call.declaredRoute? (c : Call) : Option DeclaredRoute :=
  match c.func with
  | .attribute _ attr =>
    let verb := Text.lower attr
    let path := ((c.args[0]?.or (c.keyword? "rule")).or (c.keyword? "path")).bind Expr.text?
    path.bind fun path =>
      if verb = "route" ∨ verb = "api_route" then
        some ⟨path, ((c.keyword? "methods").map Expr.texts).getD [], c.line⟩
      else if verb ∈ decoratorVerbs ∧ Text.beginsWith "/" path then
        some ⟨path, [Text.upper verb], c.line⟩
      else none
  | _ => none

/-- The routes that the decorators of a function declare. -/
def FunctionDef.declaredRoutes (d : FunctionDef) : List DeclaredRoute :=
  d.decorators.filterMap fun
    | .call c => c.declaredRoute?
    | _ => none

namespace FileTree

/-- The directory of the service that a file belongs to: the first one below the repository. -/
def serviceOf (repo : Path) (relative : String) : Path :=
  match Text.split '/' relative with
  | service :: _ :: _ => repo.join ⟨service⟩
  | _ => repo

/-- The routes that a file of a repository declares. A file that cannot be read declares none. -/
def routesIn (tree : FileTree) (repo : Path) (file : ScannedFile) : List Route :=
  match tree.read file.path, tree.parseTree? file.path with
  | .ok text, some parsed =>
    (Stmt.handlersIn (parsed.body text)).flatMap fun d =>
      d.declaredRoutes.map fun r =>
        Route.normalize
          { name := r.name
            methods := r.methods
            pattern := ""
            module := (Path.fileStem? ⟨file.relative⟩).getD ""
            function := d.name
            file := some file.path
            line := some r.line
            projectPath := some (serviceOf repo file.relative) }
  | _, _ => []

/-- The routes that the files of a repository declare. -/
def routes (tree : FileTree) (noIgnore : Bool) (repo : Path) : List Route :=
  let repo := tree.canonical repo
  (tree.scan noIgnore repo).flatMap (tree.routesIn repo)

end FileTree

end ServiceTrace
