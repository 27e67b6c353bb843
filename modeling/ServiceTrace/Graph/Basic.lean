import ServiceTrace.Json.Basic

/-!
# `ServiceTrace.Graph.Basic` — call graphs and their written form

The nodes of a call graph are functions and routes, numbered and kept in the order of their numbers.
An edge joins a caller to what it calls and lists the lines of the calls. A dotted edge joins two
consecutive routing calls. In written form a node goes by its qualified name, with its number behind
when another node has that name already.

## Contents
- **`GraphNode`**, **`CallEdge`**, **`CallGraph`**, **`CallGraph.insertNode`**.
- **`CallGraph.nodeKeys`**, **`CallGraph.export`** — the written form.
- **`CallGraph.edge?`**, **`CallGraph.nodeNamed?`** — lookups.
-/

namespace ServiceTrace

/-- The route that a node stands for. -/
structure RouteInfo where
  name : String
  methods : List String
  pattern : String
deriving DecidableEq, Repr

/-- A node of a call graph. -/
structure GraphNode where
  id : Nat
  module : String
  file : String
  function : String
  isRoute : Bool
  /-- Whether the node is an end point without a body of its own. -/
  external : Bool
  route : Option RouteInfo
  line : Option Nat
  projectPath : Option String
deriving DecidableEq, Repr

/-- An edge, with the lines of its calls in order. -/
structure CallEdge where
  start : Nat
  stop : Nat
  lines : List Nat
deriving DecidableEq, Repr

/-- A call graph. The nodes are in the order of their numbers. -/
structure CallGraph where
  nodes : List GraphNode
  edges : List CallEdge
  /-- The pairs of consecutive routing calls. -/
  dotted : List (Nat × Nat)
deriving DecidableEq

namespace CallGraph

/-- Nodes in order with one more, in place of the node that has its number. -/
def insertNode (node : GraphNode) : List GraphNode → List GraphNode
  | [] => [node]
  | n :: ns =>
    if node.id = n.id then node :: ns
    else if node.id < n.id then node :: n :: ns
    else n :: insertNode node ns

/-- The node of a number. -/
def node? (g : CallGraph) (id : Nat) : Option GraphNode :=
  g.nodes.find? (·.id = id)

/-- The edge between two nodes. -/
def edge? (g : CallGraph) (start stop : Nat) : Option CallEdge :=
  g.edges.find? fun e => e.start = start ∧ e.stop = stop

/-- The first node for a function of a module. -/
def nodeNamed? (g : CallGraph) (module function : String) : Option GraphNode :=
  g.nodes.find? fun n => n.module = module ∧ n.function = function

/-! ## The written form -/

/-- The keys of nodes, given the keys that are taken: the qualified name, with the number of the node
    behind when it is taken. -/
def keysFor (taken : List String) : List GraphNode → List (Nat × String)
  | [] => []
  | n :: ns =>
    let name := n.module ++ "." ++ n.function
    let key := if name ∈ taken then name ++ "#" ++ toString n.id else name
    (n.id, key) :: keysFor (key :: taken) ns

/-- The key of every node, in the order of the nodes. -/
def nodeKeys (g : CallGraph) : List (Nat × String) :=
  keysFor [] g.nodes

/-- The key of a number; a number without a node is written as it is. -/
def keyOf (keys : List (Nat × String)) (id : Nat) : String :=
  ((keys.find? (·.1 = id)).map (·.2)).getD (toString id)

end CallGraph

/-- A call graph in written form: nodes sorted by key, edges between keys. -/
structure GraphExport where
  nodes : List (String × GraphNode)
  edges : List (String × String × List Nat)
  dotted : List (String × String)
deriving DecidableEq

/-- Keyed nodes in order with one more, in place of the node that has its key. -/
def insertKeyed (key : String) (node : GraphNode) :
    List (String × GraphNode) → List (String × GraphNode)
  | [] => [(key, node)]
  | (k, n) :: rest =>
    if key = k then (key, node) :: rest
    else if key < k then (key, node) :: (k, n) :: rest
    else (k, n) :: insertKeyed key node rest

/-- The written form of a call graph. -/
def CallGraph.export (g : CallGraph) : GraphExport :=
  let keys := g.nodeKeys
  let key := keyOf keys
  { nodes := g.nodes.foldl (fun nodes n => insertKeyed (key n.id) n nodes) []
    edges := g.edges.map fun e => (key e.start, key e.stop, e.lines)
    dotted := g.dotted.map fun (start, stop) => (key start, key stop) }

/-! ## As JSON -/

/-- The route of a node as an object. -/
def RouteInfo.toJson (r : RouteInfo) : Json :=
  .obj [("name", .str r.name), ("methods", .strings r.methods), ("pattern", .str r.pattern)]

/-- A node as an object. -/
def GraphNode.toJson (n : GraphNode) : Json :=
  .obj <|
    [("id", .nat n.id), ("module", .str n.module), ("file", .str n.file),
      ("func_name", .str n.function), ("is_route", .bool n.isRoute),
      ("external", .bool n.external)] ++
    Json.optional "route" (n.route.map RouteInfo.toJson) ++
    Json.optional "lineno" (n.line.map .nat) ++
    Json.optional "project_path" (n.projectPath.map .str)

/-- A written call graph as an object. -/
def GraphExport.toJson (g : GraphExport) : Json :=
  .obj [
    ("nodes", .obj (g.nodes.map fun (key, n) => (key, n.toJson))),
    ("edges", .arr (g.edges.map fun (start, stop, lines) =>
      .obj [("start_node", .str start), ("end_node", .str stop),
        ("call_lines", .arr (lines.map .nat))])),
    ("dotted_edges", .arr (g.dotted.map fun (start, stop) =>
      .obj [("start_node", .str start), ("end_node", .str stop)]))]

end ServiceTrace
