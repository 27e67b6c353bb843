import ServiceTrace.Proofs.Graph.WellFormed

/-!
# `ServiceTrace.Proofs.Graph.Allotment` — which nodes a draft has handed out

A draft looks at a call site for one thing only, the node that the site asks for: its `Errand`. Every errand
but that of a unit goes to a node behind the units, and which of them is there already depends on the sites
met before. `Draft.Allotted` says what the sites met so far come to:

* a unit has its node when the walk has *reached* it (`Trace.ReachedBy`);
* a place in the sources has a node of its own, apart from the units, when a route of that place was called
  *early*, before the walk had reached the unit that owns the route (`Trace.CalledEarly`);
* a function outside the project has a node when it was called, and a route that is in no catalog has one
  for every call.

Nothing else has a node, so the numbers that were handed out can be counted. `Allotted.record` is one site
and `Allotted.of_prefix` the sites up to some point of the walk.
-/

namespace ServiceTrace

/-! ## Errands -/

/-- What a call site asks a draft for. -/
inductive Errand where
  /-- The node of a unit. -/
  | unit (id : Nat)
  /-- The node of a route of the catalog. -/
  | matched (route : Route)
  /-- A new node for a route that is not in the catalog. -/
  | unmatched (routing : Routing)
  /-- The node of a function outside the project. -/
  | outside (hit : Qualified)
  | nothing

/-- Whether a site asks for a route that is not in the catalog. -/
def Errand.isUnmatched : Errand → Bool
  | .unmatched _ => true
  | _ => false

/-- The errand of a call site. -/
def Trace.errand (opts : GraphOptions) (t : Trace) (site : CallSite) : Errand :=
  match site.target, site.call.route, t.callee? site with
  | .route, some routing, _ =>
    match routing.matched with
    | some route => .matched route
    | none => .unmatched routing
  | .declared _, _, some id | .imported _, _, some id => .unit id
  | .imported hit, _, none =>
    if opts.external && (t.module? hit.module).isNone then .outside hit else .nothing
  | _, _, _ => .nothing

theorem Trace.errand_eq_unit_iff {opts : GraphOptions} {t : Trace} {site : CallSite} {i : Nat} :
    t.errand opts site = .unit i ↔ t.callee? site = some i := by
  unfold errand
  cases htarget : site.target with
  | route =>
    have hnone : t.callee? site = none := by rw [callee?_eq, htarget]; rfl
    rw [hnone]
    cases site.call.route with
    | none => simp
    | some routing => cases hmatched : routing.matched <;> simp [hmatched]
  | declared name => cases t.callee? site <;> simp
  | imported hit =>
    cases t.callee? site with
    | some j => simp
    | none =>
      dsimp only
      split <;> simp
  | unknown =>
    have hnone : t.callee? site = none := by rw [callee?_eq, htarget]; rfl
    simp [hnone]
  | unrecognized =>
    have hnone : t.callee? site = none := by rw [callee?_eq, htarget]; rfl
    simp [hnone]

/-- A site with another errand leads to no unit. -/
theorem Trace.callee?_eq_none {opts : GraphOptions} {t : Trace} {site : CallSite}
    (h : ∀ i, t.errand opts site ≠ .unit i) : t.callee? site = none := by
  refine Option.eq_none_iff_forall_ne_some.mpr fun i hi => ?_
  exact h i (errand_eq_unit_iff.mpr hi)

/-- **A draft sees the errand of a site and nothing else of it.** -/
theorem Draft.reach_eq (opts : GraphOptions) (t : Trace) (d : Draft) (site : CallSite) :
    d.reach opts t site =
      match t.errand opts site with
      | .unit i => some (d.addUnit t i, i)
      | .matched r => some (d.matchedTarget opts t r)
      | .unmatched routing => some (d.addTarget (unmatchedNode routing))
      | .outside hit => some (d.externalTarget hit)
      | .nothing => none := by
  unfold reach Trace.errand
  cases site.target with
  | route =>
    cases site.call.route with
    | none => rfl
    | some routing => cases hmatched : routing.matched <;> simp [routeTarget, hmatched]
  | declared name => cases t.callee? site <;> rfl
  | imported hit =>
    cases t.callee? site with
    | some callee => rfl
    | none =>
      dsimp only
      split <;> rfl
  | unknown => rfl
  | unrecognized => rfl

/-! ## What the sites come to -/

/-- A function is known to readers of a graph by its module, its name and its file. -/
abbrev Place := String × String × String

/-- The place of the function that serves a route. -/
def Route.place (r : Route) : Place :=
  (r.module, r.function, Draft.routeFile r)

/-- The place that a node shows. -/
def GraphNode.place (n : GraphNode) : Place :=
  (n.module, n.function, n.file)

/-- A node is that of a route whose function lies at a place, apart from the nodes of the units. -/
structure GraphNode.StandsFor (t : Trace) (n : GraphNode) (p : Place) : Prop where
  apart : t.units.length ≤ n.id
  isRoute : n.isRoute = true
  external : n.external = false
  place : n.place = p

namespace Trace

variable {opts : GraphOptions} {t : Trace} {met : List CallSite} {site : CallSite}

/-- A unit is reached after some sites: it is the entry, or one of them leads to it. -/
def ReachedBy (t : Trace) (met : List CallSite) (i : Nat) : Prop :=
  i = t.entry ∨ ∃ site ∈ met, t.callee? site = some i

/-- The unit that owns a route, the first one that serves it. -/
def owner? (opts : GraphOptions) (t : Trace) (r : Route) : Option FunctionUnit :=
  t.units.find? (Draft.serves opts r)

/-- A route is early after some sites: these have not reached the unit that owns it, or no unit does. -/
def Early (opts : GraphOptions) (t : Trace) (met : List CallSite) (r : Route) : Prop :=
  ∀ u, t.owner? opts r = some u → ¬ t.ReachedBy met u.id

/-- Among some sites, one calls a route of a place that is early after the sites before it. -/
def CalledEarly (opts : GraphOptions) (t : Trace) (met : List CallSite) (p : Place) : Prop :=
  ∃ before site r, before ++ [site] <+: met ∧ t.errand opts site = .matched r ∧ r.place = p ∧
    t.Early opts before r

/-- One of some sites calls a function outside the project. -/
def CalledOutside (opts : GraphOptions) (t : Trace) (met : List CallSite) (f : FunctionKey) : Prop :=
  ∃ site ∈ met, ∃ hit, t.errand opts site = .outside hit ∧ (hit.module, hit.name) = f

/-- The number of sites that call a route which is not in the catalog. -/
def countUnmatched (opts : GraphOptions) (t : Trace) (met : List CallSite) : Nat :=
  met.countP fun site => (t.errand opts site).isUnmatched

theorem Coherent.id_lt (ht : t.Coherent) {u : FunctionUnit} (hu : u ∈ t.units) :
    u.id < t.units.length := by
  obtain ⟨i, hi⟩ := List.mem_iff_getElem?.mp hu
  rw [ht.numbered i u hi]
  exact (List.getElem?_eq_some_iff.mp hi).1

theorem reachedBy_concat {i : Nat} :
    t.ReachedBy (met ++ [site]) i ↔ t.ReachedBy met i ∨ t.callee? site = some i := by
  unfold ReachedBy
  simp only [List.mem_append, List.mem_singleton, or_and_right, exists_or, exists_eq_left, or_assoc]

theorem calledEarly_concat {p : Place} :
    t.CalledEarly opts (met ++ [site]) p ↔ t.CalledEarly opts met p ∨
      ∃ r, t.errand opts site = .matched r ∧ r.place = p ∧ t.Early opts met r := by
  constructor
  · rintro ⟨before, last, r, hcut, h⟩
    rcases List.prefix_concat_iff.mp hcut with heq | hcut
    · obtain ⟨rfl, hlast⟩ := List.append_inj' heq rfl
      obtain rfl := List.cons.inj hlast |>.1
      exact Or.inr ⟨r, h⟩
    · exact Or.inl ⟨before, last, r, hcut, h⟩
  · rintro (⟨before, last, r, hcut, h⟩ | ⟨r, h⟩)
    · exact ⟨before, last, r, hcut.trans (List.prefix_append _ _), h⟩
    · exact ⟨met, site, r, List.prefix_refl _, h⟩

theorem calledOutside_concat {f : FunctionKey} :
    t.CalledOutside opts (met ++ [site]) f ↔ t.CalledOutside opts met f ∨
      ∃ hit, t.errand opts site = .outside hit ∧ (hit.module, hit.name) = f := by
  unfold CalledOutside
  simp only [List.mem_append, List.mem_singleton, or_and_right, exists_or, exists_eq_left]

theorem countUnmatched_concat :
    t.countUnmatched opts (met ++ [site]) =
      t.countUnmatched opts met + if (t.errand opts site).isUnmatched then 1 else 0 := by
  unfold countUnmatched
  rw [List.countP_append, List.countP_singleton]

end Trace

namespace Draft

variable {opts : GraphOptions} {t : Trace} {d d' : Draft} {met : List CallSite} {site : CallSite}

/-- What a draft has handed out after some sites. -/
structure Allotted (opts : GraphOptions) (t : Trace) (met : List CallSite) (d : Draft) : Prop where
  units : ∀ i < t.units.length, (d.hasNode i = true ↔ t.ReachedBy met i)
  /-- The table of routes lists the nodes that stand for places. -/
  listed : ∀ p i, (p, i) ∈ d.routeNodes ↔ ∃ n, d.node? i = some n ∧ n.StandsFor t p
  places : (d.routeNodes.map (·.1)).Nodup
  early : ∀ p, p ∈ d.routeNodes.map (·.1) ↔ t.CalledEarly opts met p
  functions : (d.externalNodes.map (·.1)).Nodup
  outside : ∀ f, f ∈ d.externalNodes.map (·.1) ↔ t.CalledOutside opts met f
  count : d.nextId = t.units.length + t.countUnmatched opts met + d.routeNodes.length +
    d.externalNodes.length

/-! ## Behind the units nothing changes -/

/-- Two drafts agree on everything behind the units. -/
structure SameBehind (t : Trace) (d d' : Draft) : Prop where
  node? : ∀ i, t.units.length ≤ i → d'.node? i = d.node? i
  routeNodes : d'.routeNodes = d.routeNodes
  externalNodes : d'.externalNodes = d.externalNodes
  nextId : d'.nextId = d.nextId

theorem SameBehind.refl (t : Trace) (d : Draft) : SameBehind t d d :=
  ⟨fun _ _ => rfl, rfl, rfl, rfl⟩

theorem sameBehind_addUnit (ht : t.Coherent) (d : Draft) (i : Nat) :
    SameBehind t d (d.addUnit t i) := by
  cases hu : t.units[i]? with
  | none =>
    unfold addUnit
    rw [hu]
    exact .refl t d
  | some u =>
    rw [addUnit_eq hu]
    split
    · exact .refl t d
    · refine ⟨fun j hj => ?_, rfl, rfl, rfl⟩
      have hlt := (List.getElem?_eq_some_iff.mp hu).1
      have hid : u.node.id = i := ht.numbered i u hu
      rw [node?_addNode, if_neg (by omega)]

theorem sameBehind_setRoute (d : Draft) {i : Nat} (hi : i < t.units.length) (r : Route) :
    SameBehind t d (d.setRoute i r) := by
  refine ⟨fun j hj => ?_, rfl, rfl, rfl⟩
  rw [node?_setRoute]
  cases hn : d.node? j with
  | none => rfl
  | some n =>
    have hid := id_of_node? hn
    rw [Option.map_some, if_neg (by omega)]

/-- A site that is met without a new node behind the units. -/
theorem Allotted.sameBehind (h : Allotted opts t met d) (hsame : SameBehind t d d')
    (hunits : ∀ i < t.units.length, (d'.hasNode i = true ↔ t.ReachedBy (met ++ [site]) i))
    (hearly : ∀ r, t.errand opts site = .matched r → t.Early opts met r →
      t.CalledEarly opts met r.place)
    (houtside : ∀ hit, t.errand opts site = .outside hit →
      t.CalledOutside opts met (hit.module, hit.name))
    (hcount : (t.errand opts site).isUnmatched = false) :
    Allotted opts t (met ++ [site]) d' := by
  refine ⟨hunits, fun p i => ?_, hsame.routeNodes ▸ h.places, fun p => ?_,
    hsame.externalNodes ▸ h.functions, fun f => ?_, ?_⟩
  · rw [hsame.routeNodes, h.listed]
    constructor
    · rintro ⟨n, hn, hstands⟩
      have hle : t.units.length ≤ i := id_of_node? hn ▸ hstands.apart
      exact ⟨n, (hsame.node? i hle).trans hn, hstands⟩
    · rintro ⟨n, hn, hstands⟩
      have hle : t.units.length ≤ i := id_of_node? hn ▸ hstands.apart
      exact ⟨n, (hsame.node? i hle).symm.trans hn, hstands⟩
  · rw [hsame.routeNodes, h.early, Trace.calledEarly_concat]
    refine ⟨Or.inl, fun hp => hp.elim id ?_⟩
    rintro ⟨r, hr, rfl, hlate⟩
    exact hearly r hr hlate
  · rw [hsame.externalNodes, h.outside, Trace.calledOutside_concat]
    refine ⟨Or.inl, fun hf => hf.elim id ?_⟩
    rintro ⟨hit, hhit, rfl⟩
    exact houtside hit hhit
  · rw [hsame.nextId, hsame.routeNodes, hsame.externalNodes, Trace.countUnmatched_concat, hcount]
    exact h.count

/-- The units that have nodes after a site that leads to no unit. -/
theorem Allotted.units_concat (h : Allotted opts t met d) {i : Nat} (hext : Extends t d d' i)
    (hcallee : t.callee? site = none) (hi : i < t.units.length → d.hasNode i = true) :
    ∀ j < t.units.length, (d'.hasNode j = true ↔ t.ReachedBy (met ++ [site]) j) := by
  intro j hj
  rw [hext.hasNode_iff, Trace.reachedBy_concat, hcallee, ← h.units j hj]
  constructor
  · rintro (hnode | rfl)
    · exact Or.inl hnode
    · exact Or.inl (hi hj)
  · rintro (hnode | hnone)
    · exact Or.inl hnode
    · exact absurd hnone (by simp)

/-! ## A new node behind the units -/

theorem Tables.exists_addTarget_iff (hd : d.Tables t) {node : Nat → GraphNode}
    (hid : (node d.nextId).id = d.nextId) {P : GraphNode → Prop} {i : Nat} :
    (∃ n, (d.addTarget node).1.node? i = some n ∧ P n) ↔
      (∃ n, d.node? i = some n ∧ P n) ∨ i = d.nextId ∧ P (node d.nextId) := by
  have hnone : d.node? d.nextId = none := by
    cases hn : d.node? d.nextId with
    | none => rfl
    | some n => exact absurd (hd.bounded _ (hasNode_iff.mpr ⟨n, hn⟩)) (Nat.lt_irrefl _)
  show (∃ n, (d.addNode (node d.nextId)).node? i = some n ∧ P n) ↔ _
  rw [node?_addNode, hid]
  by_cases hi : d.nextId = i
  · rw [if_pos hi, ← hi, hnone]
    simp
  · rw [if_neg hi]
    simp [Ne.symm hi]

/-- A site that is met with a new node behind the units, and with new tables. -/
theorem Allotted.addTarget (h : Allotted opts t met d) (hd : d.Tables t) {node : Nat → GraphNode}
    (hid : (node d.nextId).id = d.nextId) (hcallee : t.callee? site = none)
    {routeNodes : List (Place × Nat)} {externalNodes : List (FunctionKey × Nat)}
    (hlisted : ∀ p i, (p, i) ∈ routeNodes ↔
      (p, i) ∈ d.routeNodes ∨ i = d.nextId ∧ (node d.nextId).StandsFor t p)
    (hplaces : (routeNodes.map (·.1)).Nodup)
    (hearly : ∀ p, p ∈ routeNodes.map (·.1) ↔ t.CalledEarly opts (met ++ [site]) p)
    (hfunctions : (externalNodes.map (·.1)).Nodup)
    (houtside : ∀ f, f ∈ externalNodes.map (·.1) ↔ t.CalledOutside opts (met ++ [site]) f)
    (hcount : t.countUnmatched opts (met ++ [site]) + routeNodes.length + externalNodes.length =
      t.countUnmatched opts met + d.routeNodes.length + d.externalNodes.length + 1) :
    Allotted opts t (met ++ [site])
      { (d.addTarget node).1 with routeNodes := routeNodes, externalNodes := externalNodes } := by
  have hunits := h.units_concat (hd.extends_addTarget hid) hcallee
    fun hlt => absurd hlt (Nat.not_lt_of_le hd.room)
  refine ⟨hunits, fun p i => ?_, hplaces, hearly, hfunctions, houtside, ?_⟩
  · rw [hlisted, h.listed]
    exact (hd.exists_addTarget_iff hid).symm
  · show d.nextId + 1 = _
    have hold := h.count
    show d.nextId + 1 = t.units.length + t.countUnmatched opts (met ++ [site]) + routeNodes.length +
      externalNodes.length
    omega

/-- A site that calls no route of the catalog leaves the places that were called early. -/
theorem Allotted.early_concat (h : Allotted opts t met d) (hne : ∀ r, t.errand opts site ≠ .matched r)
    (p : Place) :
    p ∈ d.routeNodes.map (·.1) ↔ t.CalledEarly opts (met ++ [site]) p := by
  rw [h.early, Trace.calledEarly_concat]
  refine ⟨Or.inl, fun hp => hp.elim id ?_⟩
  rintro ⟨r, hr, -⟩
  exact absurd hr (hne r)

/-- A site that stays in the project leaves the functions outside that were called. -/
theorem Allotted.outside_concat (h : Allotted opts t met d)
    (hne : ∀ hit, t.errand opts site ≠ .outside hit) (f : FunctionKey) :
    f ∈ d.externalNodes.map (·.1) ↔ t.CalledOutside opts (met ++ [site]) f := by
  rw [h.outside, Trace.calledOutside_concat]
  refine ⟨Or.inl, fun hf => hf.elim id ?_⟩
  rintro ⟨hit, hhit, -⟩
  exact absurd hhit (hne hit)

/-- An end point stands for no place, so it needs no entry. -/
theorem listed_external {node : GraphNode} (hnode : node.external = true) (p : Place) (i : Nat) :
    (p, i) ∈ d.routeNodes ↔ (p, i) ∈ d.routeNodes ∨ i = d.nextId ∧ node.StandsFor t p := by
  refine ⟨Or.inl, fun hp => hp.elim id ?_⟩
  rintro ⟨-, hstands⟩
  exact absurd (hstands.external.symm.trans hnode) Bool.false_ne_true

/-- A key that a table does not list. -/
theorem not_mem_keys {α : Type} [DecidableEq α] {key : α} {table : List (α × Nat)}
    (h : table.find? (·.1 = key) = none) : key ∉ table.map (·.1) := by
  intro hmem
  obtain ⟨entry, he, rfl⟩ := List.mem_map.mp hmem
  exact List.find?_eq_none.mp h entry he (decide_eq_true rfl)

/-! ## One more site -/

theorem Allotted.unit (h : Allotted opts t met d) (hd : d.Tables t) (ht : t.Coherent) {i : Nat}
    (he : t.errand opts site = .unit i) : Allotted opts t (met ++ [site]) (d.addUnit t i) := by
  have hcallee := Trace.errand_eq_unit_iff.mp he
  have hext := hd.extends_addUnit ht (List.getElem?_eq_getElem (ht.callee?_lt hcallee))
  refine h.sameBehind (sameBehind_addUnit ht d i) (fun j hj => ?_) (by simp [he]) (by simp [he])
    (by simp [he, Errand.isUnmatched])
  rw [hext.hasNode_iff, Trace.reachedBy_concat, hcallee, ← h.units j hj, Option.some_inj,
    eq_comm (a := i)]

/-- A route is early as long as its owner has no node. -/
theorem Allotted.early_iff (h : Allotted opts t met d) (ht : t.Coherent) {r : Route} :
    t.Early opts met r ↔ ∀ u, t.owner? opts r = some u → d.hasNode u.id = false := by
  refine forall₂_congr fun u hu => ?_
  rw [← h.units u.id (ht.id_lt (List.mem_of_find?_eq_some hu)), Bool.not_eq_true]

/-- A route whose owner has its node turns that node into a route. -/
theorem Allotted.setRoute (h : Allotted opts t met d) (hd : d.Tables t) (ht : t.Coherent) {r : Route}
    (he : t.errand opts site = .matched r) {u : FunctionUnit} (hu : t.owner? opts r = some u)
    (hnode : d.hasNode u.id = true) : Allotted opts t (met ++ [site]) (d.setRoute u.id r) := by
  have hne : ∀ j, t.errand opts site ≠ .unit j := fun j => by simp [he]
  have hlt := ht.id_lt (List.mem_of_find?_eq_some hu)
  have hunits := h.units_concat (hd.extends_setRoute hnode r) (Trace.callee?_eq_none hne)
    fun _ => hnode
  refine h.sameBehind (sameBehind_setRoute d hlt r) hunits (fun r' hr' hearly => ?_) (by simp [he])
    (by simp [he, Errand.isUnmatched])
  obtain rfl : r = r' := Errand.matched.inj (he.symm.trans hr')
  have hfalse := (h.early_iff ht).mp hearly u hu
  exact absurd (hfalse.symm.trans hnode) Bool.false_ne_true

/-- A place that has its node shares it with another route. -/
theorem Allotted.shareRoute (h : Allotted opts t met d) (hd : d.Tables t) {r : Route}
    (he : t.errand opts site = .matched r) {i : Nat} (hmem : (r.place, i) ∈ d.routeNodes) :
    Allotted opts t (met ++ [site]) d := by
  have hne : ∀ j, t.errand opts site ≠ .unit j := fun j => by simp [he]
  have hnode := (hd.routeNodes _ hmem).hasNode
  have hunits := h.units_concat (hd.extends_self hnode) (Trace.callee?_eq_none hne) fun _ => hnode
  refine h.sameBehind (.refl t d) hunits (fun r' hr' _ => ?_) (by simp [he])
    (by simp [he, Errand.isUnmatched])
  obtain rfl : r = r' := Errand.matched.inj (he.symm.trans hr')
  exact (h.early r.place).mp (List.mem_map_of_mem (f := Prod.fst) hmem)

/-- A place gets its node with the first early call. -/
theorem Allotted.addRoute (h : Allotted opts t met d) (hd : d.Tables t) {r : Route}
    (he : t.errand opts site = .matched r) (hearly : t.Early opts met r)
    (hnew : r.place ∉ d.routeNodes.map (·.1)) :
    Allotted opts t (met ++ [site])
      { (d.addTarget (routeNode r)).1 with
        routeNodes := (r.place, d.nextId) :: d.routeNodes } := by
  have hne : ∀ j, t.errand opts site ≠ .unit j := fun j => by simp [he]
  have hstands : ∀ p, (routeNode r d.nextId).StandsFor t p ↔ r.place = p := fun p =>
    ⟨fun hs => hs.place, fun hp => ⟨hd.room, rfl, rfl, hp⟩⟩
  have hlisted : ∀ p j, (p, j) ∈ (r.place, d.nextId) :: d.routeNodes ↔
      (p, j) ∈ d.routeNodes ∨ j = d.nextId ∧ (routeNode r d.nextId).StandsFor t p := by
    intro p j
    rw [hstands, List.mem_cons, Prod.mk.injEq, or_comm, and_comm, eq_comm (a := p)]
  have hcalled : ∀ p, p ∈ ((r.place, d.nextId) :: d.routeNodes).map (·.1) ↔
      t.CalledEarly opts (met ++ [site]) p := by
    intro p
    rw [List.map_cons, List.mem_cons, h.early, Trace.calledEarly_concat, he, or_comm]
    refine or_congr_right ⟨?_, ?_⟩
    · rintro rfl
      exact ⟨r, rfl, rfl, hearly⟩
    · rintro ⟨r', hr', rfl, -⟩
      obtain rfl := Errand.matched.inj hr'
      rfl
  have houtside : ∀ f, f ∈ d.externalNodes.map (·.1) ↔ t.CalledOutside opts (met ++ [site]) f :=
    h.outside_concat fun hit => by simp [he]
  have hcount : t.countUnmatched opts (met ++ [site]) = t.countUnmatched opts met := by
    rw [Trace.countUnmatched_concat, he]
    rfl
  refine h.addTarget hd rfl (Trace.callee?_eq_none hne) hlisted (List.nodup_cons.mpr ⟨hnew, h.places⟩)
    hcalled h.functions houtside ?_
  rw [hcount, List.length_cons]
  show _ + _ + d.externalNodes.length = _
  omega

theorem Allotted.matched (h : Allotted opts t met d) (hd : d.Tables t) (ht : t.Coherent) {r : Route}
    (he : t.errand opts site = .matched r) :
    Allotted opts t (met ++ [site]) (d.matchedTarget opts t r).1 := by
  rcases matchedTarget_cases opts t d r with
    ⟨owner, howner, hnode, heq⟩ | ⟨hlate, ⟨id, hkey, heq⟩ | ⟨hkey, heq⟩⟩
  · rw [heq]
    exact h.setRoute hd ht he howner hnode
  · rw [heq]
    exact h.shareRoute hd he (List.mem_of_find?_eq_some hkey)
  · rw [heq]
    exact h.addRoute hd he ((h.early_iff ht).mpr hlate) (not_mem_keys hkey)

theorem Allotted.unmatched (h : Allotted opts t met d) (hd : d.Tables t) {routing : Routing}
    (he : t.errand opts site = .unmatched routing) :
    Allotted opts t (met ++ [site]) (d.addTarget (unmatchedNode routing)).1 := by
  have hne : ∀ j, t.errand opts site ≠ .unit j := fun j => by simp [he]
  have hcount : t.countUnmatched opts (met ++ [site]) = t.countUnmatched opts met + 1 := by
    rw [Trace.countUnmatched_concat, he]
    rfl
  refine h.addTarget hd rfl (Trace.callee?_eq_none hne) (listed_external rfl) h.places
    (h.early_concat fun r => by simp [he]) h.functions (h.outside_concat fun hit => by simp [he]) ?_
  rw [hcount]
  show _ + 1 + d.routeNodes.length + d.externalNodes.length = _
  omega

/-- A function outside the project that has its node is called again. -/
theorem Allotted.shareFunction (h : Allotted opts t met d) (hd : d.Tables t) {hit : Qualified}
    (he : t.errand opts site = .outside hit) {i : Nat}
    (hmem : ((hit.module, hit.name), i) ∈ d.externalNodes) : Allotted opts t (met ++ [site]) d := by
  have hne : ∀ j, t.errand opts site ≠ .unit j := fun j => by simp [he]
  have hnode := hd.externalNodes _ hmem
  have hunits := h.units_concat (hd.extends_self hnode) (Trace.callee?_eq_none hne) fun _ => hnode
  refine h.sameBehind (.refl t d) hunits (by simp [he]) (fun hit' hhit' => ?_)
    (by simp [he, Errand.isUnmatched])
  obtain rfl : hit = hit' := Errand.outside.inj (he.symm.trans hhit')
  exact (h.outside _).mp (List.mem_map_of_mem (f := Prod.fst) hmem)

/-- A function outside the project gets its node with the first call. -/
theorem Allotted.addFunction (h : Allotted opts t met d) (hd : d.Tables t) {hit : Qualified}
    (he : t.errand opts site = .outside hit)
    (hnew : (hit.module, hit.name) ∉ d.externalNodes.map (·.1)) :
    Allotted opts t (met ++ [site])
      { (d.addTarget (externalNode hit)).1 with
        externalNodes := ((hit.module, hit.name), d.nextId) :: d.externalNodes } := by
  have hne : ∀ j, t.errand opts site ≠ .unit j := fun j => by simp [he]
  have hcalled : ∀ f, f ∈ (((hit.module, hit.name), d.nextId) :: d.externalNodes).map (·.1) ↔
      t.CalledOutside opts (met ++ [site]) f := by
    intro f
    rw [List.map_cons, List.mem_cons, h.outside, Trace.calledOutside_concat, he, or_comm]
    refine or_congr_right ⟨?_, ?_⟩
    · rintro rfl
      exact ⟨hit, rfl, rfl⟩
    · rintro ⟨hit', hhit', rfl⟩
      obtain rfl := Errand.outside.inj hhit'
      rfl
  have hcount : t.countUnmatched opts (met ++ [site]) = t.countUnmatched opts met := by
    rw [Trace.countUnmatched_concat, he]
    rfl
  have hlisted : ∀ p i, (p, i) ∈ d.routeNodes ↔
      (p, i) ∈ d.routeNodes ∨ i = d.nextId ∧ (externalNode hit d.nextId).StandsFor t p :=
    listed_external rfl
  refine h.addTarget hd rfl (Trace.callee?_eq_none hne) hlisted h.places
    (h.early_concat fun r => by simp [he]) (List.nodup_cons.mpr ⟨hnew, h.functions⟩) hcalled ?_
  rw [hcount, List.length_cons]
  show _ + d.routeNodes.length + _ = _
  omega

theorem Allotted.outsideCall (h : Allotted opts t met d) (hd : d.Tables t) {hit : Qualified}
    (he : t.errand opts site = .outside hit) :
    Allotted opts t (met ++ [site]) (d.externalTarget hit).1 := by
  rcases externalTarget_cases d hit with ⟨id, hkey, heq⟩ | ⟨hkey, heq⟩
  · rw [heq]
    exact h.shareFunction hd he (List.mem_of_find?_eq_some hkey)
  · rw [heq]
    exact h.addFunction hd he (not_mem_keys hkey)

/-- A site without an errand. -/
theorem Allotted.nothing (h : Allotted opts t met d) (he : t.errand opts site = .nothing) :
    Allotted opts t (met ++ [site]) d := by
  have hne : ∀ j, t.errand opts site ≠ .unit j := fun j => by simp [he]
  refine h.sameBehind (.refl t d) (fun j hj => ?_) (by simp [he]) (by simp [he])
    (by simp [he, Errand.isUnmatched])
  rw [Trace.reachedBy_concat, Trace.callee?_eq_none hne, h.units j hj]
  simp

/-- Whatever node a site leads to, the draft that has it has handed out what it should. -/
theorem Allotted.reach (h : Allotted opts t met d) (hd : d.Tables t) (ht : t.Coherent) {i : Nat}
    (hr : d.reach opts t site = some (d', i)) : Allotted opts t (met ++ [site]) d' := by
  rw [reach_eq] at hr
  cases he : t.errand opts site with
  | unit j =>
    rw [he] at hr
    have hd' : d.addUnit t j = d' := congrArg Prod.fst (Option.some.inj hr)
    exact hd' ▸ h.unit hd ht he
  | matched r =>
    rw [he] at hr
    have hd' : (d.matchedTarget opts t r).1 = d' := congrArg Prod.fst (Option.some.inj hr)
    exact hd' ▸ h.matched hd ht he
  | unmatched routing =>
    rw [he] at hr
    have hd' : (d.addTarget (unmatchedNode routing)).1 = d' :=
      congrArg Prod.fst (Option.some.inj hr)
    exact hd' ▸ h.unmatched hd he
  | outside hit =>
    rw [he] at hr
    have hd' : (d.externalTarget hit).1 = d' := congrArg Prod.fst (Option.some.inj hr)
    exact hd' ▸ h.outsideCall hd he
  | nothing =>
    rw [he] at hr
    exact absurd hr (by simp)

/-- Edges say nothing of what has been handed out. -/
theorem Allotted.withEdges (h : Allotted opts t met d) (edges : List CallEdge)
    (dotted : List (Nat × Nat)) (lastRoute : Option Nat) :
    Allotted opts t met { d with edges := edges, dotted := dotted, lastRoute := lastRoute } :=
  ⟨h.units, h.listed, h.places, h.early, h.functions, h.outside, h.count⟩

/-- **One more site.** -/
theorem Allotted.record (h : Allotted opts t met d) (hd : d.Tables t) (ht : t.Coherent)
    (site : CallSite) : Allotted opts t (met ++ [site]) (d.record opts t site) := by
  rw [record_eq]
  cases hreach : d.reach opts t site with
  | none =>
    rw [reach_eq] at hreach
    cases he : t.errand opts site with
    | nothing => exact h.nothing he
    | _ =>
      rw [he] at hreach
      exact absurd hreach (by simp)
  | some reached =>
    obtain ⟨d', i⟩ := reached
    have hnext := h.reach hd ht hreach
    show Allotted opts t (met ++ [site]) (if site.target = .route then _ else _)
    split
    · exact hnext.withEdges _ _ _
    · exact hnext.withEdges _ _ _

theorem start_eq (ht : t.Coherent) : ∃ u, t.units[t.entry]? = some u ∧
    start t = ⟨[u.node], [], [], none, [], [], t.units.length⟩ := by
  have hu := List.getElem?_eq_getElem ht.entry_lt
  refine ⟨_, hu, ?_⟩
  unfold start
  rw [addUnit_eq hu]
  rfl

theorem allotted_start (opts : GraphOptions) (ht : t.Coherent) : Allotted opts t [] (start t) := by
  obtain ⟨u, hu, hstart⟩ := start_eq ht
  have hid : u.node.id = t.entry := ht.numbered _ _ hu
  rw [hstart]
  refine ⟨fun i _ => ?_, fun p i => ?_, List.nodup_nil, fun p => ?_, List.nodup_nil, fun f => ?_, rfl⟩
  · unfold hasNode Trace.ReachedBy
    simp [hid, eq_comm]
  · constructor
    · intro hmem
      exact absurd hmem List.not_mem_nil
    · rintro ⟨n, hn, hstands⟩
      -- the only node is that of the entry, and that is a unit
      obtain rfl := List.mem_singleton.mp (List.mem_of_find?_eq_some hn)
      have hapart := hstands.apart
      have hlt := ht.entry_lt
      omega
  · unfold Trace.CalledEarly
    simp
  · unfold Trace.CalledOutside
    simp

/-- **What the sites up to some point of the walk come to.** -/
theorem Allotted.of_prefix (opts : GraphOptions) (ht : t.Coherent) {before after : List CallSite}
    (h : t.sites = before ++ after) :
    Allotted opts t before (before.foldl (Draft.record opts t) (start t)) := by
  refine foldl_prefix (allotted_start opts ht) (fun before site after h hallotted => ?_) h
  exact hallotted.record (Drawn.of_prefix ht h).tables ht site

end Draft

end ServiceTrace
