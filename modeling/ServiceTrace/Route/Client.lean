import ServiceTrace.Ast.Calls
import ServiceTrace.Route.Catalog
import ServiceTrace.Route.Endpoint

/-!
# `ServiceTrace.Route.Client` — routing calls and the routes they reach

A call is a routing call when its callee is an attribute of something that looks like an HTTP client
and the attribute is one of the verbs, or `request` with the method as its first argument. Its
endpoint is looked up in the catalog: the first route counts that accepts the method, has the same
pattern code, and whose name begins with the endpoint, variables standing for any one segment.

## Contents
- **`Clients`** — the catalog and the names of clients.
- **`Clients.candidate?`** — the method and the URL of a routing call.
- **`Endpoint.startsName`**, **`Clients.find?`** — the lookup.
- **`Clients.routing?`**, **`Clients.annotate`** — what is attached to a call.
-/

namespace ServiceTrace

/-- The attributes of a client that send a request. -/
def routeVerbs : List String :=
  ["get", "post", "put", "delete", "head"]

/-- The names that clients go by, in lower case, and the routes that their calls are matched
    against. -/
structure Clients where
  catalog : Catalog
  names : List String

namespace Clients

/-- The clients with the given names, whatever the case of their letters. -/
def ofNames (catalog : Catalog) (names : List String) : Clients :=
  ⟨catalog, names.map Text.lower⟩

end Clients

/-- The last name of a receiver, looking through calls. -/
def Expr.receiverName? : Expr → Option String
  | .name id => some id
  | .attribute _ attr => some attr
  | .call ⟨func, _, _, _, _⟩ => func.receiverName?
  | _ => none

/-- Whether a receiver is a client: one of the known names, or any name that ends in `session` or
    `client`. -/
def Clients.isClient (clients : Clients) (receiver : Expr) : Bool :=
  match receiver.receiverName? with
  | none => false
  | some name =>
    let lowered := Text.lower name
    lowered ∈ clients.names || Text.endsWith "session" lowered || Text.endsWith "client" lowered

/-- The method and the URL of a call of `request`: its first two arguments, or those passed by
    keyword. The method has to be a plain string. -/
def Call.requestTarget? (c : Call) : Option (String × Expr) := do
  match ← c.args[0]?.or (c.keyword? "method") with
  | .str method => return (Text.upper (Text.trim method), ← c.args[1]?.or (c.keyword? "url"))
  | _ => none

/-- The method and the URL of a routing call. -/
def Clients.candidate? (clients : Clients) (c : Call) : Option (String × Expr) :=
  match c.func with
  | .attribute receiver attr =>
    let verb := Text.lower attr
    if !clients.isClient receiver then none
    else if verb = "request" then c.requestTarget?
    else if verb ∈ routeVerbs then
      (c.args[0]?.or (c.keyword? "url")).map fun url => (Text.upper verb, url)
    else none
  | _ => none

/-! ## The lookup -/

/-- Whether a text begins with the segments, each followed by a slash. A placeholder stands for any
    text without a slash but the empty one. -/
def Segment.startText : List Segment → List Char → Bool
  | [], _ => true
  | .literal text :: rest, cs =>
    match Text.dropInitial? (text.toList ++ ['/']) cs with
    | some tail => Segment.startText rest tail
    | none => false
  | .placeholder :: rest, cs =>
    match cs.span (· ≠ '/') with
    | (_ :: _, _ :: tail) => Segment.startText rest tail
    | _ => false

/-- Whether the name of a route begins with an endpoint. This is the meaning of the endpoint's regular
    expression. -/
def Endpoint.startsName (e : Endpoint) (name : String) : Bool :=
  match name.toList with
  | c :: cs => c = '/' && Segment.startText e.segments cs
  | [] => false

/-- The route that a request reaches. An endpoint without segments reaches none. -/
def Clients.find? (clients : Clients) (method : String) (e : Endpoint) : Option Route :=
  if e.segments = [] then none
  else
    clients.catalog.routes.find? fun r =>
      r.accepts method && r.pattern = e.code && e.startsName r.name

/-! ## Annotating -/

/-- What is known about a call when it is a routing call. -/
def Clients.routing? (clients : Clients) (c : Call) : Option Routing :=
  (clients.candidate? c).map fun (method, url) =>
    let endpoint := Endpoint.ofUrl url
    { method := method
      chain := c.func.render
      pattern := endpoint.code
      endpoint := endpoint.display
      matched := clients.find? method endpoint }

/-- A body with its routing calls annotated. -/
def Clients.annotate (clients : Clients) (body : List Stmt) : List Stmt :=
  let visitor : Visitor Unit := fun c => pure ⟨c.line, (clients.routing? c).or c.route⟩
  ((Stmt.visitIn visitor body).run ()).1

end ServiceTrace
