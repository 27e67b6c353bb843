import ServiceTrace.Proofs.Graph.External
import ServiceTrace.Proofs.Trace.Settled

/-!
# `ServiceTrace.Proofs.Graph.Unread` — what is drawn outside the project

Nodes outside the project are meant for the functions of other projects. A graph never asks the resolver
whose a module is: it draws a function outside when a call refers to it and the trace does not list its
module. A module that is not listed has no source (`Tracer.isSome_module?_iff`). That is so for every module
that does not resolve or belongs to someone else, and also for a module of the project that cannot be parsed
(`Tracer.source?_eq_none_iff`).

So the nodes outside are exact about sources and not about the project: they are the called functions of
modules without a source (`Tracer.graph_showsUnread`), and a function of the project is among them when its
file has an error in it (`broken_outside`).

The nodes are found in the table of functions outside the project, which lists them and nothing else
(`Draft.ListsOutside`).
-/

namespace ServiceTrace

/-! ## Modules without a source -/

namespace Tracer

variable {tracer : Tracer}

/-- The resolver finds a module of this name, and it cannot be parsed. -/
def Fails (tracer : Tracer) (name : String) : Prop :=
  ∃ ref e, tracer.resolve name = some ref ∧ tracer.parse name ref.path = .error e

/-- Apart from the entry, a module has no source when it is not part of the project, or fails. -/
theorem source?_eq_none_iff {entry name : String} (hne : name ≠ entry) :
    tracer.source? entry name = none ↔ (tracer.Owns name → tracer.Fails name) := by
  unfold source? Owns Fails
  cases hresolve : tracer.resolve name with
  | none => simp
  | some ref =>
    by_cases howned : ref.owned = true
    · cases hparse : tracer.parse name ref.path with
      | error e => simp [howned, hparse]
      | ok body => simp [howned, hparse]
    · simp [howned, hne]

end Tracer

/-! ## Calls that lead outside -/

namespace Trace

variable {opts : GraphOptions} {t : Trace}

/-- A call in a unit of the trace refers to a function through the imports. -/
def CallsImported (t : Trace) (f : FunctionKey) : Prop :=
  ∃ u ∈ t.units, ∃ site ∈ sitesOf t.modules u, ∃ hit,
    site.target = .imported hit ∧ (hit.module, hit.name) = f

/-- A call of an imported function leads outside when the trace does not list the module. -/
theorem Coherent.errand_outside_iff (ht : t.Coherent) {site : CallSite} {hit : Qualified} :
    t.errand opts site = .outside hit ↔
      site.target = .imported hit ∧ opts.external = true ∧ t.module? hit.module = none := by
  constructor
  · intro he
    have htarget := target_of_errand_outside he
    have hne : ∀ i, t.errand opts site ≠ .unit i := fun i => by simp [he]
    have hcallee : t.callee? site = none := callee?_eq_none hne
    unfold errand at he
    rw [htarget, hcallee] at he
    by_cases hexternal : (opts.external && (t.module? hit.module).isNone) = true
    · rw [Bool.and_eq_true, Option.isNone_iff_eq_none] at hexternal
      exact ⟨htarget, hexternal⟩
    · simp [hexternal] at he
  · rintro ⟨htarget, hexternal, hmodule⟩
    -- a unit of that function would lie in a module that is listed
    have hcallee : t.callee? site = none := by
      rw [callee?_eq, htarget]
      refine Option.eq_none_iff_forall_ne_some.mpr fun i hi => ?_
      obtain ⟨u, hu, hkey⟩ := (ht.unitId?_eq_some_iff (f := (hit.module, hit.name))).mp hi
      have hhome := ht.homes u (List.mem_of_getElem? hu)
      rw [show u.module = hit.module from congrArg Prod.fst hkey, hmodule] at hhome
      exact Bool.false_ne_true hhome
    unfold errand
    rw [htarget, hcallee]
    simp [hexternal, hmodule]

theorem Coherent.calledOutside_iff (ht : t.Coherent) {f : FunctionKey} :
    t.CalledOutside opts t.sites f ↔
      opts.external = true ∧ t.CallsImported f ∧ t.module? f.1 = none := by
  have hsites : ∀ site, site ∈ t.sites ↔ ∃ u ∈ t.units, site ∈ sitesOf t.modules u := fun site => by
    rw [ht.sites_perm.mem_iff, List.mem_flatMap]
  constructor
  · rintro ⟨site, hsite, hit, he, rfl⟩
    obtain ⟨htarget, hexternal, hmodule⟩ := ht.errand_outside_iff.mp he
    obtain ⟨u, hu, hsite⟩ := (hsites site).mp hsite
    exact ⟨hexternal, ⟨u, hu, site, hsite, hit, htarget, rfl⟩, hmodule⟩
  · rintro ⟨hexternal, ⟨u, hu, site, hsite, hit, htarget, rfl⟩, hmodule⟩
    exact ⟨site, (hsites site).mpr ⟨u, hu, hsite⟩, hit,
      ht.errand_outside_iff.mpr ⟨htarget, hexternal, hmodule⟩, rfl⟩

end Trace

/-! ## The table of functions outside the project -/

/-- A node is that of a function outside the project. -/
def GraphNode.StandsOutside (n : GraphNode) (f : FunctionKey) : Prop :=
  n.isOutside = true ∧ (n.module, n.function) = f

namespace Draft

variable {opts : GraphOptions} {t : Trace} {d d' : Draft} {site : CallSite}

/-- The table of functions outside the project lists their nodes, and no other ones. -/
def ListsOutside (d : Draft) : Prop :=
  ∀ f i, (f, i) ∈ d.externalNodes ↔ ∃ n, d.node? i = some n ∧ n.StandsOutside f

/-- Among the numbers of the units there is nothing outside. -/
theorem Tables.not_standsOutside (hd : d.Tables t) {i : Nat} (hi : i < t.units.length)
    (f : FunctionKey) : ¬ ∃ n, d.node? i = some n ∧ n.StandsOutside f := by
  rintro ⟨n, hn, hstands⟩
  have hshows := hd.units i _ n (List.getElem?_eq_getElem hi) hn
  exact Bool.false_ne_true (hshows.isOutside.symm.trans hstands.1)

theorem ListsOutside.sameBehind (h : d.ListsOutside) (hd : d.Tables t) (hd' : d'.Tables t)
    (hsame : SameBehind t d d') : d'.ListsOutside := by
  intro f i
  rw [hsame.externalNodes, h f i]
  by_cases hi : i < t.units.length
  · exact iff_of_false (hd.not_standsOutside hi f) (hd'.not_standsOutside hi f)
  · rw [hsame.node? i (Nat.le_of_not_lt hi)]

/-- A new node goes with an entry when it is outside, and with none otherwise. -/
theorem ListsOutside.addTarget (h : d.ListsOutside) (hd : d.Tables t) {node : Nat → GraphNode}
    (hid : (node d.nextId).id = d.nextId) {externalNodes : List (FunctionKey × Nat)}
    (hlisted : ∀ f i, (f, i) ∈ externalNodes ↔
      (f, i) ∈ d.externalNodes ∨ i = d.nextId ∧ (node d.nextId).StandsOutside f)
    (routeNodes : List (Place × Nat)) :
    ListsOutside
      { (d.addTarget node).1 with routeNodes := routeNodes, externalNodes := externalNodes } := by
  intro f i
  rw [hlisted, h f i]
  exact (hd.exists_addTarget_iff hid).symm

/-- A route takes a new node without an entry. -/
theorem ListsOutside.addRoute (h : d.ListsOutside) (hd : d.Tables t) {node : Nat → GraphNode}
    (hid : (node d.nextId).id = d.nextId) (hroute : (node d.nextId).isRoute = true)
    (routeNodes : List (Place × Nat)) :
    ListsOutside { (d.addTarget node).1 with routeNodes := routeNodes } := by
  have hlisted : ∀ f i, (f, i) ∈ d.externalNodes ↔
      (f, i) ∈ d.externalNodes ∨ i = d.nextId ∧ (node d.nextId).StandsOutside f := by
    refine fun f i => ⟨Or.inl, fun hf => hf.elim id ?_⟩
    rintro ⟨-, houtside, -⟩
    simp [GraphNode.isOutside, hroute] at houtside
  exact h.addTarget hd hid hlisted routeNodes

theorem ListsOutside.routeTarget (h : d.ListsOutside) (hd : d.Tables t) (ht : t.Coherent)
    {routing : Routing} {i : Nat} (hr : d.routeTarget opts t routing = (d', i)) : d'.ListsOutside := by
  have hd' : d'.Tables t := (hd.extends_routeTarget hr).1.tables
  unfold Draft.routeTarget at hr
  split at hr
  · obtain ⟨rfl, -⟩ := Prod.mk.inj hr
    exact h.addRoute hd rfl rfl d.routeNodes
  · rename_i r _
    rcases matchedTarget_cases opts t d r with
      ⟨owner, howner, -, heq⟩ | ⟨-, ⟨_, -, heq⟩ | ⟨-, heq⟩⟩
    · obtain ⟨rfl, -⟩ := Prod.mk.inj (heq.symm.trans hr)
      have hlt := ht.id_lt (List.mem_of_find?_eq_some howner)
      exact h.sameBehind hd hd' (sameBehind_setRoute d hlt r)
    · obtain ⟨rfl, -⟩ := Prod.mk.inj (heq.symm.trans hr)
      exact h
    · obtain ⟨rfl, -⟩ := Prod.mk.inj (heq.symm.trans hr)
      exact h.addRoute hd rfl rfl _

theorem ListsOutside.externalTarget (h : d.ListsOutside) (hd : d.Tables t) {hit : Qualified} {i : Nat}
    (hr : d.externalTarget hit = (d', i)) : d'.ListsOutside := by
  rcases externalTarget_cases d hit with ⟨_, -, heq⟩ | ⟨-, heq⟩
  · obtain ⟨rfl, -⟩ := Prod.mk.inj (heq.symm.trans hr)
    exact h
  · obtain ⟨rfl, -⟩ := Prod.mk.inj (heq.symm.trans hr)
    refine h.addTarget hd rfl (fun f j => ?_) d.routeNodes
    have hstands : (externalNode hit d.nextId).StandsOutside f ↔ (hit.module, hit.name) = f :=
      and_iff_right rfl
    rw [hstands, List.mem_cons, Prod.mk.injEq, or_comm, and_comm, eq_comm (a := f)]

/-- **One more site.** -/
theorem ListsOutside.record (h : d.ListsOutside) (hd : d.Tables t) (ht : t.Coherent)
    (site : CallSite) : (d.record opts t site).ListsOutside := by
  rw [record_eq]
  cases hreach : d.reach opts t site with
  | none => exact h
  | some reached =>
    obtain ⟨d', i⟩ := reached
    have hd' : d'.Tables t := (hd.extends_reach ht hreach).1.tables
    have hnext : d'.ListsOutside := by
      rcases reach_cases hreach with ⟨-, rfl⟩ | ⟨routing, -, -, hr⟩ | ⟨hit, -, -, -, -, hr⟩
      · exact h.sameBehind hd hd' (sameBehind_addUnit ht d i)
      · exact h.routeTarget hd ht hr
      · exact h.externalTarget hd hr
    show ListsOutside (if site.target = .route then _ else _)
    split
    · exact hnext
    · exact hnext

theorem listsOutside_drawn (opts : GraphOptions) (ht : t.Coherent) : (t.drawn opts).ListsOutside := by
  have hstart : (start t).ListsOutside := by
    obtain ⟨u, hu, hstart⟩ := start_eq ht
    rw [hstart]
    intro f i
    refine iff_of_false List.not_mem_nil ?_
    rintro ⟨n, hn, houtside, -⟩
    obtain rfl := List.mem_singleton.mp (List.mem_of_find?_eq_some hn)
    exact Bool.false_ne_true houtside
  refine foldl_prefix (P := fun _ d => d.ListsOutside) hstart (fun before site after h hlists => ?_)
    (List.append_nil _).symm
  exact hlists.record (Drawn.of_prefix ht h).tables ht site

end Draft

/-! ## The graph of a trace -/

/-- What the nodes outside the project stand for. -/
structure CallGraph.ShowsUnread (tracer : Tracer) (module : String) (opts : GraphOptions) (t : Trace)
    (g : CallGraph) : Prop where
  /-- A function is shown outside when that is asked for, a call refers to it, and its module has no
      source. -/
  shown : ∀ f, (∃ n ∈ g.nodes, n.StandsOutside f) ↔
    opts.external = true ∧ t.CallsImported f ∧ tracer.source? module f.1 = none
  single : ∀ f, ∀ n ∈ g.nodes, ∀ m ∈ g.nodes, n.StandsOutside f → m.StandsOutside f → n = m
  /-- The entry is never outside, and of the project there are only modules that cannot be parsed. -/
  foreign : ∀ n ∈ g.nodes, n.external = true → n.isRoute = false →
    n.module ≠ module ∧ (tracer.Owns n.module → tracer.Fails n.module)

/-- **What is drawn outside the project has no source**: it does not resolve, it is not part of the project,
    or it cannot be parsed. -/
theorem Tracer.graph_showsUnread {tracer : Tracer} {fuel : Nat} {module function : String} {t : Trace}
    (h : tracer.trace? fuel module function = some (.ok t)) {opts : GraphOptions} {g : CallGraph}
    (hg : t.graph opts = .ok g) : g.ShowsUnread tracer module opts t := by
  have ht := tracer.trace?_coherent h
  have hdrawn := Draft.Drawn.drawn opts ht
  have hallotted : Draft.Allotted opts t t.sites (t.drawn opts) :=
    Draft.Allotted.of_prefix opts ht (List.append_nil _).symm
  have hlists := Draft.listsOutside_drawn opts ht
  obtain rfl := Trace.eq_drawn hg
  have hlisted : ∀ f, ∀ n ∈ (t.drawn opts).nodes, n.StandsOutside f →
      (f, n.id) ∈ (t.drawn opts).externalNodes := fun f n hn hstands =>
    (hlists f n.id).mpr ⟨n, hdrawn.tables.node?_of_mem hn, hstands⟩
  have hshown : ∀ f, (∃ n ∈ (t.drawn opts).nodes, n.StandsOutside f) ↔
      opts.external = true ∧ t.CallsImported f ∧ tracer.source? module f.1 = none := by
    intro f
    have hcalled := (hallotted.outside f).trans ht.calledOutside_iff
    have hread : t.CallsImported f → (t.module? f.1 = none ↔ tracer.source? module f.1 = none) := by
      rintro ⟨u, hu, site, hsite, hit, htarget, rfl⟩
      have hiff := tracer.isSome_module?_iff h hu hsite htarget
      rw [← Option.not_isSome_iff_eq_none, ← Option.not_isSome_iff_eq_none, hiff]
    rw [and_congr_right fun hcalls => hread hcalls] at hcalled
    rw [← hcalled]
    constructor
    · rintro ⟨n, hn, hstands⟩
      exact List.mem_map_of_mem (f := Prod.fst) (hlisted f n hn hstands)
    · intro hf
      obtain ⟨⟨f', i⟩, hmem, rfl⟩ := List.mem_map.mp hf
      obtain ⟨n, hn, hstands⟩ := (hlists f' i).mp hmem
      exact ⟨n, List.mem_of_find?_eq_some hn, hstands⟩
  refine ⟨hshown, ?_, ?_⟩
  · intro f n hn m hm hstands hstands'
    have hid := List.inj_on_of_nodup_map hallotted.functions (hlisted f n hn hstands)
      (hlisted f m hm hstands') rfl
    have hn' := hdrawn.tables.node?_of_mem hn
    rw [(Prod.mk.inj hid).2] at hn'
    exact Option.some.inj (hn'.symm.trans (hdrawn.tables.node?_of_mem hm))
  · intro n hn hexternal hroute
    have hstands : n.StandsOutside (n.module, n.function) :=
      ⟨by simp [GraphNode.isOutside, hexternal, hroute], rfl⟩
    obtain ⟨-, -, hsource⟩ := (hshown _).mp ⟨n, hn, hstands⟩
    have hne : n.module ≠ module := by
      intro hentry
      obtain ⟨s, hp, -⟩ := Exploration.exists_progress h
      obtain ⟨m, hm⟩ := Option.isSome_iff_exists.mp hp.valid.entryKnown
      obtain ⟨src, hsrc, -⟩ := hp.valid.source_of_moduleIn? hm
      rw [hentry, hsrc] at hsource
      exact Option.some_ne_none _ hsource
    exact ⟨hne, (tracer.source?_eq_none_iff hne).mp hsource⟩

/-- The stock, which does not belong to the project, is drawn outside. -/
theorem shop_showsUnread : ∃ t g, shopTracer.trace? 3 "shop" "main" = some (.ok t) ∧
    t.graph shopOptions = .ok g ∧ g.ShowsUnread shopTracer "shop" shopOptions t ∧
    ∃ n ∈ g.nodes, n.StandsOutside ("stock", "order") := by
  have hnode : ∃ t g, shopTracer.trace? 3 "shop" "main" = some (.ok t) ∧ t.graph shopOptions = .ok g ∧
      Draft.externalNode ⟨"order", "stock", "order"⟩ 4 ∈ g.nodes :=
    ⟨_, _, rfl, rfl, List.mem_of_getElem? (i := 4) rfl⟩
  obtain ⟨t, g, ht, hg, hn⟩ := hnode
  exact ⟨t, g, ht, hg, Tracer.graph_showsUnread ht hg, _, hn, rfl, rfl⟩

/-- An application that calls a function of a project module with an error in it. -/
def brokenProgram : Program where
  modules := [
    { ref := ⟨"app", ⟨"app.py"⟩, true⟩
      body := some [
        .importFrom "cart" [⟨"add", none⟩] false 1,
        .function ⟨"main", [], [], [.expr (.call ⟨.name "add", [], [], 4, none⟩) 4], false, 3⟩] },
    { ref := ⟨"cart", ⟨"cart.py"⟩, true⟩
      body := none }]

def brokenTracer : Tracer where
  resolve := brokenProgram.resolve
  parse := brokenProgram.parse
  clients := .ofNames ⟨[]⟩ []

/-- **Drawn outside, and part of the project**: the resolver reports `cart` as part of the project, and its
    function is drawn outside. -/
theorem broken_outside : ∃ t g n, brokenTracer.trace? 1 "app" "main" = some (.ok t) ∧
    t.graph shopOptions = .ok g ∧ n ∈ g.nodes ∧ n.external = true ∧ n.isRoute = false ∧
    brokenTracer.Owns n.module :=
  ⟨_, _, Draft.externalNode ⟨"add", "cart", "add"⟩ 1, rfl, rfl, List.mem_of_getElem? (i := 1) rfl, rfl, rfl,
    _, rfl, rfl⟩

end ServiceTrace
