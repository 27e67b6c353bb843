import ServiceTrace.Graph.Basic
import ServiceTrace.Graph.Walk
import ServiceTrace.Settings

/-!
# `ServiceTrace.Graph.Build` — the call graph of a trace

The graph is drawn along the depth-first walk, one call site after the other. A site that leads to a
unit adds its node and an edge; a routing call adds an edge to the node of its route and a dotted edge
from the route before it; a call of an imported function outside the trace adds an edge to an external
node, when these are asked for. Every site counts, also a repeated or a recursive one: a second call
between the same two nodes adds its line to their edge.

Units keep their numbers. Other nodes are numbered after them in the order they come up:

- a route that is not in the catalog gets a node for every call;
- a route of the catalog turns the node of its serving function into a route node, when that function
  is a unit with a node already, and shares a node of its own with other routes of that function
  otherwise;
- an external function has one node.

## Contents
- **`GraphOptions`**, **`Draft`** — the settings and the graph so far.
- **`Draft.addEdge`**, **`Draft.routeTarget`**, **`Draft.externalTarget`**, **`Draft.record`**.
- **`Trace.graph`** — the graph of a trace.
-/

namespace ServiceTrace

/-- What a graph is drawn with. -/
structure GraphOptions where
  policy : Policy
  /-- Whether calls of functions outside the project are drawn. -/
  external : Bool
  /-- Whether two paths name the same file. -/
  samePath : Path → Path → Bool

/-- The word for a module or a file that is not known. -/
def unknownPlace : String := "unknown"

/-- A graph that is being drawn. -/
structure Draft where
  nodes : List GraphNode
  edges : List CallEdge
  dotted : List (Nat × Nat)
  /-- The node of the last routing call. -/
  lastRoute : Option Nat
  /-- The nodes of routes by module, function and file. -/
  routeNodes : List ((String × String × String) × Nat)
  /-- The nodes of external functions by module and name. -/
  externalNodes : List ((String × String) × Nat)
  /-- The number of the next node that is no unit. -/
  nextId : Nat

/-- The node of a unit. -/
def FunctionUnit.node (u : FunctionUnit) : GraphNode where
  id := u.id
  module := u.module
  file := u.file.text
  function := u.name
  isRoute := false
  external := false
  route := none
  line := some u.line
  projectPath := none

/-- Edges with one more call between two nodes. -/
def addCall (start stop line : Nat) : List CallEdge → List CallEdge
  | [] => [⟨start, stop, [line]⟩]
  | e :: es =>
    if e.start = start ∧ e.stop = stop then { e with lines := e.lines ++ [line] } :: es
    else e :: addCall start stop line es

namespace Draft

/-- The number of a node, when there is one of that number. -/
def hasNode (d : Draft) (id : Nat) : Bool :=
  d.nodes.any (·.id = id)

/-- The draft with a node. -/
def addNode (d : Draft) (node : GraphNode) : Draft :=
  { d with nodes := CallGraph.insertNode node d.nodes }

/-- The draft with the node of a unit; a node that is there stays as it is. -/
def addUnit (t : Trace) (d : Draft) (id : Nat) : Draft :=
  match t.units[id]? with
  | some u => if d.hasNode id then d else d.addNode u.node
  | none => d

/-- The draft with one more call. -/
def addEdge (d : Draft) (start stop line : Nat) : Draft :=
  { d with edges := addCall start stop line d.edges }

/-- The draft with a node that is no unit, and the number of the node. -/
def addTarget (d : Draft) (node : Nat → GraphNode) : Draft × Nat :=
  ({ d.addNode (node d.nextId) with nextId := d.nextId + 1 }, d.nextId)

/-- The node of a routing call that reaches no route of the catalog. -/
def unmatchedNode (r : Routing) (id : Nat) : GraphNode where
  id := id
  module := unknownPlace
  file := unknownPlace
  function := r.chain
  isRoute := true
  external := true
  route := some ⟨r.endpoint, [r.method], r.pattern⟩
  line := none
  projectPath := none

/-- What a node shows of a route. -/
def routeInfo (r : Route) : RouteInfo :=
  ⟨r.name, r.methods, r.pattern⟩

/-- The file of a route, as a node shows it. -/
def routeFile (r : Route) : String :=
  (r.file.map (·.text)).getD unknownPlace

/-- The node of a route that no unit serves. -/
def routeNode (r : Route) (id : Nat) : GraphNode where
  id := id
  module := r.module
  file := routeFile r
  function := r.function
  isRoute := true
  external := false
  route := some (routeInfo r)
  line := r.line
  projectPath := r.projectPath.map (·.text)

/-- Whether a unit serves a route: it has the name of the serving function, and its file, or its
    module when the route names no file. -/
def serves (opts : GraphOptions) (r : Route) (u : FunctionUnit) : Bool :=
  u.name = r.function &&
    match r.file with
    | some file => opts.samePath file u.file
    | none => u.module = r.module

/-- The draft with a node turned into that of a route. -/
def setRoute (d : Draft) (id : Nat) (r : Route) : Draft :=
  { d with
    nodes := d.nodes.map fun n =>
      if n.id = id then { n with isRoute := true, route := some (routeInfo r) } else n }

/-- The node that a matched routing call leads to. -/
def matchedTarget (opts : GraphOptions) (t : Trace) (d : Draft) (r : Route) : Draft × Nat :=
  -- a unit that serves the route counts only when the walk has met it before
  match (t.units.find? (serves opts r)).filter (d.hasNode ·.id) with
  | some owner => (d.setRoute owner.id r, owner.id)
  | none =>
    let key := (r.module, r.function, routeFile r)
    match d.routeNodes.find? (·.1 = key) with
    -- a node that is shared keeps showing the first route that came to it
    | some (_, id) => (d, id)
    | none =>
      let (d, id) := d.addTarget (routeNode r)
      ({ d with routeNodes := (key, id) :: d.routeNodes }, id)

/-- The node that a routing call leads to. -/
def routeTarget (opts : GraphOptions) (t : Trace) (d : Draft) (r : Routing) : Draft × Nat :=
  match r.matched with
  | none => d.addTarget (unmatchedNode r)
  | some route => d.matchedTarget opts t route

/-- The node of a function outside the project. -/
def externalNode (hit : Qualified) (id : Nat) : GraphNode where
  id := id
  module := hit.module
  file := unknownPlace
  function := hit.name
  isRoute := false
  external := true
  route := none
  line := none
  projectPath := none

/-- The node that a call of a function outside the project leads to. -/
def externalTarget (d : Draft) (hit : Qualified) : Draft × Nat :=
  let key := (hit.module, hit.name)
  match d.externalNodes.find? (·.1 = key) with
  | some (_, id) => (d, id)
  | none =>
    let (d, id) := d.addTarget (externalNode hit)
    ({ d with externalNodes := (key, id) :: d.externalNodes }, id)

/-- The draft with the dotted edge that ends at the node of a routing call. -/
def addRouteStep (d : Draft) (id : Nat) : Draft :=
  { d with
    dotted := d.dotted ++ (d.lastRoute.map (·, id)).toList
    lastRoute := some id }

/-- The draft after a call site. -/
def record (opts : GraphOptions) (t : Trace) (d : Draft) (site : CallSite) : Draft :=
  let caller := site.unit.id
  let line := site.call.line
  match site.target, site.call.route, t.callee? site with
  | .route, some routing, _ =>
    let (d, target) := d.routeTarget opts t routing
    (d.addEdge caller target line).addRouteStep target
  | .declared _, _, some callee | .imported _, _, some callee =>
    (d.addUnit t callee).addEdge caller callee line
  | .imported hit, _, none =>
    if opts.external && (t.module? hit.module).isNone then
      let (d, target) := d.externalTarget hit
      d.addEdge caller target line
    else d
  | _, _, _ => d

/-- The draft that only knows the entry. -/
def start (t : Trace) : Draft :=
  addUnit t ⟨[], [], [], none, [], [], t.units.length⟩ t.entry

/-- The graph that has been drawn. -/
def graph (d : Draft) : CallGraph :=
  ⟨d.nodes, d.edges, d.dotted⟩

end Draft

/-- The failure for a call site of no known shape. -/
def CallSite.unrecognized (site : CallSite) : Error :=
  .unrecognizedCall site.unit.module site.unit.name site.call.line

/-- The call graph of a trace. Under the strict policy it fails at the first call site of no known
    shape. -/
def Trace.graph (opts : GraphOptions) (t : Trace) : Except Error CallGraph :=
  match t.sites.find? fun site => opts.policy = .error ∧ site.target = .unrecognized with
  | some site => .error site.unrecognized
  | none => .ok (t.sites.foldl (Draft.record opts t) (Draft.start t)).graph

end ServiceTrace
