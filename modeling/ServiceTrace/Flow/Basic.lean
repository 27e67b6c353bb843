import ServiceTrace.Error
import ServiceTrace.Flow.Marker
import ServiceTrace.Json.Basic

/-!
# `ServiceTrace.Flow.Basic` — flows across services

A flow has a name, the point where it starts, and the point where it ends, if there is one. Flows are
made from markers: the first start marker of a name makes the flow, the first end marker of that name
ends it, wherever it stands in the list. Further markers of a name, and end markers of a flow that
never starts, count for nothing.

## Contents
- **`Flow`**, **`Flow.addStart`**, **`Flow.addEnd`**, **`Flow.ofMarkers`**.
- **`Flow.find`** — the flow of a name.
- **`Flow.toJson`**.
-/

namespace ServiceTrace

/-- A flow. -/
structure Flow where
  name : String
  start : FlowPoint
  stop : Option FlowPoint
deriving DecidableEq, Repr

namespace Flow

/-- Flows in order of their names, with the one that a start marker makes, unless its name is taken. -/
def addStart (name : String) (point : FlowPoint) : List Flow → List Flow
  | [] => [⟨name, point, none⟩]
  | f :: fs =>
    if name = f.name then f :: fs
    else if name < f.name then ⟨name, point, none⟩ :: f :: fs
    else f :: addStart name point fs

/-- Flows with the one of a name ended, unless it has an end. -/
def addEnd (name : String) (point : FlowPoint) (flows : List Flow) : List Flow :=
  flows.map fun f =>
    if f.name = name then { f with stop := f.stop.or (some point) } else f

/-- The flows that markers make, in order of their names. -/
def ofMarkers (markers : List FlowMarker) : List Flow :=
  -- all starts come first, so that an end may stand before its start
  let starts := markers.filter (·.kind = .start)
  let ends := markers.filter (·.kind = .stop)
  let flows := starts.foldl (fun flows m => addStart m.name m.point flows) []
  ends.foldl (fun flows m => addEnd m.name m.point flows) flows

/-- The flow of a name. -/
def find (flows : List Flow) (name : String) : Except Error Flow :=
  match flows.find? (·.name = name) with
  | some flow => .ok flow
  | none => .error (.flowNotFound name)

end Flow

/-- A point as an object. -/
def FlowPoint.toJson (p : FlowPoint) : Json :=
  .obj [("module", .str p.module), ("file", .str p.file.text), ("function", .str p.function),
    ("line", .nat p.line)]

/-- A flow as an object. -/
def Flow.toJson (f : Flow) : Json :=
  .obj <| [("name", .str f.name), ("start", f.start.toJson)] ++
    Json.optional "end" (f.stop.map FlowPoint.toJson)

end ServiceTrace
