import ServiceTrace.Proofs.Import.Marks
import ServiceTrace.Proofs.Trace.Notes

/-!
# `ServiceTrace.Proofs.Trace.Usage` — which imports a trace has used

When a trace follows a qualified call it marks the name in the import table of the calling module, under the
alias that the call is qualified by. In the end the table of a module is that of its source with the
qualified calls of all its units marked in it, unit by unit and each in the order of its body.

* `Exploration.tableAt?` — the table of a module, whether it has been read or not. Reading a module does not
  change it, and only following a call of the module does (`Exploration.Marks`).
* `Exploration.Marked` — on the way, the calls of the units visited so far are marked.
* `Trace.CreditsImports`, **`Tracer.trace?_creditsImports`** — what the marks say at the end.

The mark goes by the alias alone, and always to the table of the module. So an entry is credited with calls
that went through another entry of the same alias, or through an import of the function itself.
-/

namespace ServiceTrace

/-- The function that a call is qualified to. -/
def CallTarget.hit? : CallTarget → Option Qualified
  | .imported hit => some hit
  | .route | .declared _ | .unknown | .unrecognized => none

namespace Exploration

/-- The import table of a module: the one that it has by now, or the one that it is going to be read with. -/
def tableAt? (tracer : Tracer) (entry : String) (s : Exploration) (name : String) :
    Option ImportTable :=
  ((moduleIn? s.modules name).map (·.imports)).or ((tracer.source? entry name).map tracer.importsOf)

/-- `s'` comes from `s` by marking the calls in `hits` in the table of one module. -/
def Marks (tracer : Tracer) (entry module : String) (hits : List Qualified) (s s' : Exploration) :
    Prop :=
  ∀ name, s'.tableAt? tracer entry name =
    (s.tableAt? tracer entry name).map fun t => if name = module then t.markAll hits else t

variable {tracer : Tracer} {entry module : String} {s s' s'' : Exploration}

theorem Marks.of_eq (h : ∀ name, s'.tableAt? tracer entry name = s.tableAt? tracer entry name) :
    Marks tracer entry module [] s s' := by
  intro name
  have hsame : (fun t : ImportTable => if name = module then t.markAll [] else t) = id := by
    funext t
    exact ite_self t
  rw [h, hsame, Option.map_id, id]

theorem Marks.refl : Marks tracer entry module [] s s :=
  .of_eq fun _ => rfl

theorem Marks.trans {hits hits' : List Qualified} (h : Marks tracer entry module hits s s')
    (h' : Marks tracer entry module hits' s' s'') :
    Marks tracer entry module (hits ++ hits') s s'' := by
  intro name
  rw [h', h, Option.map_map]
  congr 1
  funext t
  by_cases hname : name = module
  · simp [hname, ImportTable.markAll_append]
  · simp [hname]

/-! ## Steps that mark nothing -/

/-- A change of a module that leaves its imports alone marks nothing. -/
theorem Marks.update {name : String} {change : TracedModule → TracedModule}
    (hname : ∀ m, (change m).name = m.name) (himports : ∀ m, (change m).imports = m.imports) :
    Marks tracer entry module [] s (s.update name change) := by
  refine .of_eq fun other => ?_
  unfold tableAt? Exploration.update
  rw [moduleIn?_updateModule hname, Option.map_map]
  congr 2
  funext m
  by_cases h : m.name = name <;> simp [h, himports]

theorem Marks.reference (other name : String) :
    Marks tracer entry module [] s (s.reference other name) :=
  .update (fun _ => rfl) fun _ => rfl

theorem Marks.track (other : String) (called : Option String) :
    Marks tracer entry module [] s (s.track other called) := by
  cases called with
  | none => exact .refl
  | some called => exact .update (fun _ => rfl) fun _ => rfl

/-- A module is read with the table that it was going to be read with. -/
theorem Marks.load (hv : s.Valid tracer entry) (module name : String) :
    Marks tracer entry module [] s (s.load tracer name) := by
  refine .of_eq fun other => ?_
  rcases load_cases tracer hv.entryKnown name with
    ⟨h, -⟩ | ⟨-, requested, h⟩ | ⟨src, hsrc, hnew, h⟩
  · rw [h]
  · rw [h]
    rfl
  · rw [h]
    unfold tableAt?
    rw [moduleIn?_append]
    by_cases hother : other = name
    · subst hother
      rw [hnew, hsrc]
      simp [Tracer.readModule, Tracer.importsOf]
    · have hne : (tracer.readModule name src.ref src.body).name ≠ other := Ne.symm hother
      rw [if_neg hne, Option.or_none]

theorem Marks.unitFor (hv : s.Valid tracer entry) (module other name : String) :
    Marks tracer entry module [] s (s.unitFor tracer other name).1 := by
  have hload := Marks.load hv module other
  rcases unitFor_cases tracer s other name with
    ⟨id, -, h⟩ | ⟨-, -, h⟩ | ⟨-, m, d, -, -, h⟩
  · rw [h]
    exact .refl
  · rw [h]
    exact hload
  · rw [h]
    exact hload

/-! ## Following calls -/

/-- A qualified call of a known module is marked in its table. -/
theorem Marks.mark (hknown : (moduleIn? s.modules module).isSome = true) (hit : Qualified) :
    Marks tracer entry module [hit] s (s.mark module hit) := by
  intro name
  obtain ⟨home, hhome⟩ := Option.isSome_iff_exists.mp hknown
  have hname : ∀ m : TracedModule,
      { m with imports := m.imports.mark hit.localName hit.name }.name = m.name := fun _ => rfl
  unfold tableAt?
  show ((moduleIn? (updateModule module _ s.modules) name).map _).or _ = _
  rw [moduleIn?_updateModule hname]
  by_cases h : name = module
  · subst h
    rw [hhome]
    simp [name_of_moduleIn? hhome, ImportTable.markAll]
  · have hsame : (fun t : ImportTable => if name = module then t.markAll [hit] else t) = id :=
      funext fun t => if_neg h
    rw [hsame, Option.map_id, id]
    cases hm : moduleIn? s.modules name with
    | none => rfl
    | some m =>
      have hother : m.name ≠ module := fun hc => h ((name_of_moduleIn? hm).symm.trans hc)
      simp [hother]

/-- Following a call of a unit marks it when it is qualified. -/
theorem Marks.follow (hv : s.Valid tracer entry) {u : FunctionUnit} (hu : u ∈ s.units)
    (site : CallSite) :
    Marks tracer entry u.module site.target.hit?.toList s (s.follow tracer u.module site) := by
  unfold Exploration.follow
  cases htarget : site.target with
  | route => exact .track _ _
  | unknown | unrecognized => exact .refl
  | declared name =>
    have hnote := Grows.reference hv u.module name
    have hunit := Marks.unitFor hnote.valid u.module u.module name
    have hask := (Marks.reference u.module name).trans hunit
    cases hres : (s.reference u.module name).unitFor tracer u.module name with
    | mk s' answer =>
      rw [hres] at hask
      simp only [hres]
      cases answer with
      | none => exact hask
      | some id => exact hask.trans (.track _ _)
  | imported hit =>
    have hnote := Grows.mark hv u.module hit
    have hunit := Marks.unitFor hnote.valid u.module hit.module hit.name
    have hask := (Marks.mark (hv.known u hu) hit).trans hunit
    cases hres : (s.mark u.module hit).unitFor tracer hit.module hit.name with
    | mk s' answer =>
      rw [hres] at hask
      simp only [hres]
      cases answer with
      | none => exact hask
      | some id => exact (hask.trans (.reference _ _)).trans (.track _ _)

theorem Marks.foldl_follow (hv : s.Valid tracer entry) {u : FunctionUnit} (hu : u ∈ s.units)
    (sites : List CallSite) :
    Marks tracer entry u.module (sites.filterMap (·.target.hit?)) s
      (sites.foldl (Exploration.follow tracer u.module) s) := by
  induction sites generalizing s with
  | nil => exact .refl
  | cons site sites ih =>
    have hgrow := hv.follow u.module site
    have hrest := (Marks.follow hv hu site).trans (ih hgrow.valid (hgrow.units.subset hu))
    have hhits : (site :: sites).filterMap (·.target.hit?) =
        site.target.hit?.toList ++ sites.filterMap (·.target.hit?) := by
      cases hhit : site.target.hit? <;> simp [hhit]
    rw [hhits]
    exact hrest

/-! ## Visiting units -/

/-- The qualified calls of a unit. -/
def hitsIn (s : Exploration) (u : FunctionUnit) : List Qualified :=
  (sitesOf s.modules u).filterMap (·.target.hit?)

/-- The qualified calls of the units of a module that have been visited, in the order of the visits. -/
def hitsOf (s : Exploration) (name : String) : List Qualified :=
  ((s.units.take s.visited).filter (·.module = name)).flatMap s.hitsIn

/-- On the way, the calls of the units that have been visited are marked. -/
def Marked (tracer : Tracer) (entry : String) (s : Exploration) : Prop :=
  ∀ name, s.tableAt? tracer entry name =
    (tracer.source? entry name).map fun src => (tracer.importsOf src).markAll (s.hitsOf name)

/-- Visiting the next unit adds its calls behind those of the units before. -/
theorem hitsOf_visit (hv : s.Valid tracer entry) {u : FunctionUnit}
    (hu : s.units[s.visited]? = some u) (name : String) :
    (s.visit tracer u).hitsOf name =
      s.hitsOf name ++ if name = u.module then s.hitsIn u else [] := by
  have hgrow := hv.visit hu
  have hvisited : (s.visit tracer u).visited = s.visited + 1 := hgrow.visited
  have hsites : ∀ (i : Nat) (v : FunctionUnit), s.units[i]? = some v →
      (s.visit tracer u).hitsIn v = s.hitsIn v := by
    intro i v hi
    unfold hitsIn
    rw [← hv.sitesOf_congr hgrow.valid hi (hgrow.getElem? hi)]
  have hunits : (s.visit tracer u).units.take (s.visited + 1) = s.units.take s.visited ++ [u] := by
    obtain ⟨rest, hrest⟩ := hgrow.units
    have hlen : s.visited < s.units.length := (List.getElem?_eq_some_iff.mp hu).1
    rw [← hrest, List.take_append_of_le_length (by exact hlen), List.take_add_one, hu]
    rfl
  unfold hitsOf
  rw [hvisited, hunits, List.filter_append, List.flatMap_append]
  congr 1
  · -- the modules of the units before are there already, so their calls stay what they are
    apply List.flatMap_congr
    intro v hv'
    obtain ⟨i, hi⟩ := List.mem_iff_getElem?.mp (List.mem_of_mem_take (List.mem_of_mem_filter hv'))
    exact hsites i v hi
  · by_cases h : name = u.module
    · rw [if_pos h, List.filter_cons_of_pos (by simpa using h.symm)]
      simp [hsites s.visited u hu]
    · rw [if_neg h, List.filter_cons_of_neg (by simpa using Ne.symm h)]
      rfl

/-- A trace enters without marks. -/
theorem marked_of_enter {function : String} {id : Nat} (h : tracer.enter entry function = .ok (s, id)) :
    s.Marked tracer entry := by
  obtain ⟨src, hsrc, hunit⟩ := source_of_enter h
  have hv := valid_ofEntry hsrc
  obtain ⟨hgrow, -⟩ := hv.unitFor entry function
  have hmarks := Marks.unitFor hv entry entry function
  rw [hunit] at hgrow hmarks
  have hvisited : s.visited = 0 := hgrow.visited
  intro name
  have hnone : s.hitsOf name = [] := by
    unfold hitsOf
    rw [hvisited]
    rfl
  rw [hmarks, hnone]
  unfold tableAt? ofEntry moduleIn?
  by_cases hname : entry = name
  · subst hname
    rw [hsrc]
    simp [Tracer.readModule, Tracer.importsOf]
  · cases hsrc' : tracer.source? entry name <;> simp [Tracer.readModule, hname]

/-- Visiting the next unit keeps the marks up to date. -/
theorem Marked.visit (h : s.Marked tracer entry) (hv : s.Valid tracer entry) {u : FunctionUnit}
    (hu : s.units[s.visited]? = some u) : (s.visit tracer u).Marked tracer entry := by
  have hv' : Valid tracer entry { s with visited := s.visited + 1 } :=
    ⟨hv.reads, hv.entryKnown, hv.unavailable, hv.units, hv.single, hv.known⟩
  have hmarks := Marks.foldl_follow hv' (List.mem_of_getElem? hu) (sitesOf s.modules u)
  intro name
  have hbefore : tableAt? tracer entry { s with visited := s.visited + 1 } name = _ := h name
  rw [hitsOf_visit hv hu]
  refine (hmarks name).trans ?_
  rw [hbefore, Option.map_map]
  congr 1
  funext src
  by_cases hname : name = u.module
  · simp [hname, ImportTable.markAll_append, hitsIn]
  · simp [hname]

end Exploration

/-! ## The tables of a finished trace -/

/-- A call goes through an entry of its module to a function of the given name: it is qualified by that entry,
    which is none of the imports of its own function. -/
def CallSite.GoesThrough (m : TracedModule) (e : ImportEntry) (name : String) (site : CallSite) : Prop :=
  site.target.hit?.map Qualified.name = some name ∧
    (m.scope site.unit.localImports).through? site.call = some (e.localName, e.target) ∧
    (e.localName, e.target) ∉ site.unit.localImports.bindings

instance (m : TracedModule) (e : ImportEntry) (name : String) (site : CallSite) :
    Decidable (site.GoesThrough m e name) :=
  inferInstanceAs (Decidable (_ ∧ _ ∧ _))

namespace Trace

/-- A name is called through an alias in a module of a trace. -/
def CalledThrough (t : Trace) (module localName name : String) : Prop :=
  ∃ u ∈ t.units, u.module = module ∧ ∃ site ∈ sitesOf t.modules u, ∃ hit,
    site.target.hit? = some hit ∧ hit.localName = localName ∧ hit.name = name

/-- What the import tables of a trace say about the calls in its units. -/
structure CreditsImports (t : Trace) : Prop where
  /-- The first entry of an alias is credited with all names that are called through the alias in the units of
      its module, whichever import they come from, and other entries are credited with nothing. -/
  marks : ∀ m ∈ t.modules, ∀ e ∈ m.imports.entries, ∀ name, name ∈ e.referenced ↔
    m.imports.entries.find? (·.localName = e.localName) = some e ∧
      t.CalledThrough m.name e.localName name
  /-- An entry that shares its alias with no other entry of its module, and with no import of a function in it,
      is credited with exactly the calls that go through it. -/
  own : ∀ m ∈ t.modules, ∀ e ∈ m.imports.entries,
    (∀ e' ∈ m.imports.entries, e'.localName = e.localName → e' = e) →
    (∀ u ∈ t.units, u.module = m.name → ∀ e' ∈ u.localImports.entries, e'.localName ≠ e.localName) →
    ∀ name, name ∈ e.referenced ↔
      ∃ u ∈ t.units, u.module = m.name ∧ ∃ site ∈ sitesOf t.modules u, site.GoesThrough m e name

end Trace

/-- A module of a list without repetitions is found under its name. -/
theorem moduleIn?_of_mem {ms : List TracedModule} (hd : (ms.map TracedModule.name).Nodup)
    {m : TracedModule} (hm : m ∈ ms) : moduleIn? ms m.name = some m :=
  find?_key_of_mem hd hm

/-- The sites of a unit have the targets that the scope of the unit gives their calls. -/
theorem target_of_mem_sitesOf {modules : List TracedModule} {u : FunctionUnit} {m : TracedModule}
    (hm : moduleIn? modules u.module = some m) {site : CallSite} (h : site ∈ sitesOf modules u) :
    site.target = (m.scope u.localImports).classify site.call := by
  unfold sitesOf at h
  rw [hm] at h
  obtain ⟨c, -, rfl⟩ := List.mem_map.mp h
  rfl

/-- What is bound in the scope of a function is imported by the function itself or by its module. -/
theorem TracedModule.mem_bindings_scope {m : TracedModule} {localImports : ImportTable}
    {b : String × ImportTarget} (h : b ∈ (m.scope localImports).imports.bindings) :
    b ∈ localImports.bindings ∨ b ∈ m.imports.bindings := by
  unfold TracedModule.scope at h
  split at h
  · exact .inr h
  · exact ImportTable.mem_bindings_shadowing.mp h

/-- A call goes through an entry whose alias nothing else binds exactly when it is qualified by the alias. -/
theorem CallSite.goesThrough_iff {m : TracedModule} {e : ImportEntry} (he : e ∈ m.imports.entries)
    (halone : ∀ e' ∈ m.imports.entries, e'.localName = e.localName → e' = e) {site : CallSite}
    (htarget : site.target = (m.scope site.unit.localImports).classify site.call)
    (hlocal : ∀ e' ∈ site.unit.localImports.entries, e'.localName ≠ e.localName) {name : String} :
    site.GoesThrough m e name ↔
      ∃ hit, site.target.hit? = some hit ∧ hit.localName = e.localName ∧ hit.name = name := by
  have hnot : ∀ target, (e.localName, target) ∉ site.unit.localImports.bindings := by
    intro target hmem
    obtain ⟨e', he', heq⟩ := List.mem_map.mp hmem
    exact hlocal e' he' (congrArg Prod.fst heq)
  have hthrough : ∀ hit, site.target.hit? = some hit → ∃ target,
      (m.scope site.unit.localImports).through? site.call = some (hit.localName, target) ∧
        (hit.localName, target) ∈ (m.scope site.unit.localImports).imports.bindings := by
    intro hit hhit
    refine Scope.through?_of_imported (htarget ▸ ?_)
    cases h : site.target <;> simp [h, CallTarget.hit?] at hhit
    rw [hhit]
  constructor
  · rintro ⟨hname, hgoes, -⟩
    obtain ⟨hit, hhit, rfl⟩ := Option.map_eq_some_iff.mp hname
    obtain ⟨target, hgoes', -⟩ := hthrough hit hhit
    rw [hgoes] at hgoes'
    exact ⟨hit, hhit, (congrArg Prod.fst (Option.some.inj hgoes')).symm, rfl⟩
  · rintro ⟨hit, hhit, halias, rfl⟩
    obtain ⟨target, hgoes, hmem⟩ := hthrough hit hhit
    rw [halias] at hgoes hmem
    obtain ⟨e', he', heq⟩ := List.mem_map.mp
      ((TracedModule.mem_bindings_scope hmem).resolve_left (hnot target))
    obtain rfl := halone e' he' (congrArg Prod.fst heq)
    obtain rfl : e'.target = target := congrArg Prod.snd heq
    exact ⟨by rw [hhit]; rfl, hgoes, hnot e'.target⟩

namespace Exploration

variable {tracer : Tracer} {entry : String} {s : Exploration}

/-- When the visits are over, the calls of all units of a module are marked. -/
theorem mem_hitsOf_iff (hend : s.units[s.visited]? = none) {name : String} {hit : Qualified} :
    hit ∈ s.hitsOf name ↔ ∃ u ∈ s.units, u.module = name ∧
      ∃ site ∈ sitesOf s.modules u, site.target.hit? = some hit := by
  have hall : s.units.take s.visited = s.units :=
    List.take_of_length_le (List.getElem?_eq_none_iff.mp hend)
  simp only [hitsOf, hitsIn, hall, List.mem_flatMap, List.mem_filter, List.mem_filterMap,
    decide_eq_true_eq, and_assoc]

/-- What the entries of the modules hold when the visits are over. -/
theorem Marked.mem_referenced_iff (h : s.Marked tracer entry) (ho : s.Orderly)
    (hv : s.Valid tracer entry) (hend : s.units[s.visited]? = none) {m : TracedModule}
    (hm : m ∈ s.modules) {e : ImportEntry} (he : e ∈ m.imports.entries) {id : Nat} {name : String} :
    name ∈ e.referenced ↔ m.imports.entries.find? (·.localName = e.localName) = some e ∧
      Trace.CalledThrough ⟨id, s.units, s.modules⟩ m.name e.localName name := by
  obtain ⟨src, hsrc, -⟩ := hv.reads m hm
  have htable : m.imports = (tracer.importsOf src).markAll (s.hitsOf m.name) := by
    have hat := h m.name
    rw [tableAt?, moduleIn?_of_mem ho.distinct hm, hsrc] at hat
    exact Option.some.inj hat
  rw [htable] at he ⊢
  rw [ImportTable.mem_referenced_markAll (ImportTable.referenced_ofStmts _ _ _)
    (ImportTable.nodup_bindings_ofStmts _ _ _) he]
  refine and_congr_right fun _ => ⟨?_, ?_⟩
  · rintro ⟨hit, hmem, halias, hname⟩
    obtain ⟨u, hu, hmodule, site, hsite, hhit⟩ := (mem_hitsOf_iff hend).mp hmem
    exact ⟨u, hu, hmodule, site, hsite, hit, hhit, halias, hname⟩
  · rintro ⟨u, hu, hmodule, site, hsite, hit, hhit, halias, hname⟩
    exact ⟨hit, (mem_hitsOf_iff hend).mpr ⟨u, hu, hmodule, site, hsite, hhit⟩, halias, hname⟩

end Exploration

/-- **The imports of a trace are credited by their aliases.** When a trace comes to an end, the first entry of
    an alias holds the names that the units of its module call through the alias, and an entry whose alias
    nothing else binds holds exactly the names that are called through it. -/
theorem Tracer.trace?_creditsImports {tracer : Tracer} {fuel : Nat} {module function : String}
    {t : Trace} (h : tracer.trace? fuel module function = some (.ok t)) : t.CreditsImports := by
  obtain ⟨entry, units, modules⟩ := t
  obtain ⟨s, hp, ⟨hnoted, hmarked⟩, rfl, rfl, hend⟩ := Exploration.exists_finished
    (P := fun s => s.Noted tracer module ∧ s.Marked tracer module)
    (fun _ _ h => ⟨Exploration.noted_of_enter h, Exploration.marked_of_enter h⟩)
    (fun _ _ hv ⟨hn, hm⟩ hu => ⟨hn.visit hv hu, hm.visit hv hu⟩) h
  have hv := hp.valid
  have ho := hnoted.orderly
  refine ⟨fun m hm e he name => hmarked.mem_referenced_iff ho hv hend hm he, ?_⟩
  intro m hm e he halone hlocal name
  have hfirst : m.imports.entries.find? (·.localName = e.localName) = some e :=
    find?_eq_some_of_unique he (decide_eq_true rfl) fun e' he' halias =>
      halone e' he' (of_decide_eq_true halias)
  rw [hmarked.mem_referenced_iff ho hv hend hm he, and_iff_right hfirst]
  refine exists_congr fun u => and_congr_right fun hu => and_congr_right fun hmodule =>
    exists_congr fun site => and_congr_right fun hsite => ?_
  have hfound : moduleIn? s.modules u.module = some m := hmodule ▸ moduleIn?_of_mem ho.distinct hm
  have hunit : site.unit = u := unit_of_mem_sitesOf hsite
  exact (CallSite.goesThrough_iff he halone (hunit ▸ target_of_mem_sitesOf hfound hsite)
    (hunit ▸ hlocal u hu hmodule)).symm

/-- In the trace of the shop, `add` is marked in the import of the cart that it is called through. -/
theorem shop_creditsImports : ∃ t, shopTracer.trace? 3 "shop" "main" = some (.ok t) ∧
    t.CreditsImports ∧
    (∃ m ∈ t.modules, ∃ e ∈ m.imports.entries, "add" ∈ e.referenced ∧
      ∃ u ∈ t.units, u.module = m.name ∧ ∃ site ∈ sitesOf t.modules u, site.GoesThrough m e "add") := by
  refine ⟨_, rfl, ?_, ?_⟩
  · exact Tracer.trace?_creditsImports (show shopTracer.trace? 3 "shop" "main" = _ from rfl)
  · decide +kernel

/-- A library with two imports of the name `books`: a catalogue, and behind it the function of the ledger that
    the name stands for afterwards. -/
def libraryProgram : Program where
  modules := [
    { ref := ⟨"library", ⟨"library.py"⟩, true⟩
      body := some [
        .imports [⟨"catalogue", some "books"⟩] 1,
        .importFrom "ledger" [⟨"books", none⟩] false 2,
        .function ⟨"lend", [], [], [.expr (.call ⟨.name "books", [], [], 5, none⟩) 5], false, 4⟩] },
    { ref := ⟨"catalogue", ⟨"catalogue.py"⟩, true⟩
      body := some [] },
    { ref := ⟨"ledger", ⟨"ledger.py"⟩, true⟩
      body := some [.function ⟨"books", [], [], [], false, 1⟩] }]

def libraryTracer : Tracer where
  resolve := libraryProgram.resolve
  parse := libraryProgram.parse
  clients := .ofNames ⟨[]⟩ []

/-- The call goes through the import of the ledger, and is marked in that of the catalogue, which nothing goes
    through. -/
theorem library_credits_catalogue :
    ∃ t, libraryTracer.trace? 2 "library" "lend" = some (.ok t) ∧ ∃ m ∈ t.modules,
      (∃ e ∈ m.imports.entries, e.target = .whole "catalogue" ∧ "books" ∈ e.referenced ∧
        ∀ u ∈ t.units, ∀ site ∈ sitesOf t.modules u, ¬ site.GoesThrough m e "books") ∧
      (∃ e ∈ m.imports.entries, e.target = .symbol "ledger" "books" ∧ "books" ∉ e.referenced ∧
        ∃ u ∈ t.units, ∃ site ∈ sitesOf t.modules u, site.GoesThrough m e "books") := by
  refine ⟨_, rfl, ?_⟩
  decide +kernel

end ServiceTrace
