import ServiceTrace.Path

/-!
# `ServiceTrace.Route.Basic` — routes and routing calls

A *route* is an endpoint that some service offers: a URL template, the methods it accepts and the
function that serves it. A *routing call* is a call of an HTTP client. What is known about one, the
method, the endpoint and the route it reaches, is attached to the call in the syntax tree.

## Contents
- **`Route`** — one record of a route catalog.
- **`Routing`** — what is attached to a routing call.
-/

namespace ServiceTrace

/-- A route: a URL template and the function that serves it. -/
structure Route where
  /-- The URL template, which begins and ends with a slash once the route is normalized. -/
  name : String
  /-- The methods that the route accepts. -/
  methods : List String
  /-- One `c` (literal) or `v` (variable) for each segment of the template. -/
  pattern : String
  /-- The module of the serving function. -/
  module : String
  /-- The name of the serving function. -/
  function : String
  /-- The file of the serving function, when it is known. -/
  file : Option Path
  /-- The line of the decorator, when it is known. -/
  line : Option Nat
  /-- The directory of the owning service, when it is known. -/
  projectPath : Option Path
deriving DecidableEq

/-- What is known about a routing call. -/
structure Routing where
  /-- The method in upper case. -/
  method : String
  /-- The callee as written, such as `requests.get`. -/
  chain : String
  /-- The pattern code of the endpoint. -/
  pattern : String
  /-- The endpoint with braces in place of its variable segments. -/
  endpoint : String
  /-- The route that the call reaches, when the catalog has one. -/
  matched : Option Route
deriving DecidableEq

end ServiceTrace
