import ServiceTrace.Trace.Basic

/-!
# `ServiceTrace.Graph.Walk` — the call sites of a trace, depth first

The sites of a trace are met in the order of a depth-first walk from the entry. A call that leads to a
unit is followed by the sites of that unit's body when the body is entered for the first time, and by
the rest of the calling body otherwise. So the walk keeps an *agenda*, the sites that are still to be
met, and puts a body in front of it on entering; every body is entered at most once.

## Contents
- **`Trace.callee?`** — the unit that a site leads to.
- **`Trace.splitAtEntry`** — an agenda up to the first site that enters a body.
- **`Trace.walk`**, **`Trace.sites`** — the walk.
-/

namespace ServiceTrace.Trace

/-- The unit that a call site leads to. -/
def callee? (t : Trace) (site : CallSite) : Option Nat :=
  match site.target with
  | .declared name => t.unitId? site.unit.module name
  | .imported hit => t.unitId? hit.module hit.name
  | .route | .unknown | .unrecognized => none

/-- An agenda cut behind its first site that leads to a body which has not been entered: the sites up
    to it, the unit that it enters, and the sites after it. -/
def splitAtEntry (t : Trace) (entered : List Nat) :
    List CallSite → Option (List CallSite × Nat × List CallSite)
  | [] => none
  | site :: rest =>
    match (t.callee? site).filter (· ∉ entered) with
    | some id => some ([site], id, rest)
    | none =>
      (t.splitAtEntry entered rest).map fun (before, id, after) => (site :: before, id, after)

/-- The sites that are met from an agenda on, with at most the given number of bodies to enter. -/
def walk (t : Trace) : Nat → List Nat → List CallSite → List CallSite
  | 0, _, agenda => agenda
  | bodies + 1, entered, agenda =>
    match t.splitAtEntry entered agenda with
    | none => agenda
    | some (before, id, after) => before ++ t.walk bodies (id :: entered) (t.sitesAt id ++ after)

/-- The call sites of a trace in depth-first order. A walk enters every unit at most once, so the
    number of units bounds the number of bodies. -/
def sites (t : Trace) : List CallSite :=
  t.walk t.units.length [t.entry] (t.sitesAt t.entry)

end ServiceTrace.Trace
