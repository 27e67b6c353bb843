import Mathlib.Data.List.Nodup
import ServiceTrace.Proofs.Trace.Source

/-!
# `ServiceTrace.Proofs.Trace.Exploration` — what one step of a trace does

Every step of a trace, from noting a call to visiting a whole unit, keeps the state *valid*
(`Exploration.Valid`): modules say what their sources say, units are the declared functions with their
positions as numbers, no function has two units, and what is given up has no source.

A step asks for functions, and adds exactly those of them that are declared. `Exploration.Grows` says
this of two states, and steps compose (`Grows.trans`), so that the effect of a visit is read off its call
sites: it adds the functions that the visited one leads to (`Valid.visit`).

Whatever every visit keeps holds at the end of the exploration: `Exploration.explore?_preserves`.
-/

namespace ServiceTrace

/-- The function that a unit stands for. -/
def FunctionUnit.key (u : FunctionUnit) : FunctionKey :=
  (u.module, u.name)

/-! ## Lookups -/

/-- The only element of a list with a property is the one that a search finds. -/
theorem find?_eq_some_of_unique {α : Type} {p : α → Bool} {xs : List α} {x : α} (hx : x ∈ xs)
    (hp : p x = true) (honly : ∀ y ∈ xs, p y = true → y = x) : xs.find? p = some x := by
  obtain ⟨y, hy⟩ := Option.isSome_iff_exists.mp (List.find?_isSome.mpr ⟨x, hx, hp⟩)
  rw [hy, honly y (List.mem_of_find?_eq_some hy) (List.find?_some hy)]

/-- An element is found under its key, when no two have the same one. -/
theorem find?_key_of_mem {α κ : Type} [DecidableEq κ] {key : α → κ} {xs : List α}
    (h : (xs.map key).Nodup) {x : α} (hx : x ∈ xs) : xs.find? (key · = key x) = some x := by
  apply find?_eq_some_of_unique hx (decide_eq_true rfl)
  intro y hy hkey
  exact List.inj_on_of_nodup_map h hy hx (of_decide_eq_true hkey)

theorem name_of_moduleIn? {ms : List TracedModule} {name : String} {m : TracedModule}
    (h : moduleIn? ms name = some m) : m.name = name := by
  simpa using List.find?_some h

theorem mem_of_moduleIn? {ms : List TracedModule} {name : String} {m : TracedModule}
    (h : moduleIn? ms name = some m) : m ∈ ms :=
  List.mem_of_find?_eq_some h

theorem moduleIn?_append (ms : List TracedModule) (m : TracedModule) (name : String) :
    moduleIn? (ms ++ [m]) name =
      (moduleIn? ms name).or (if m.name = name then some m else none) := by
  unfold moduleIn?
  rw [List.find?_append]
  by_cases h : m.name = name <;> simp [h]

/-- A change of a module that keeps its name changes what is found under that name only. -/
theorem moduleIn?_updateModule {change : TracedModule → TracedModule}
    (hname : ∀ m, (change m).name = m.name) (name other : String) (ms : List TracedModule) :
    moduleIn? (updateModule name change ms) other =
      (moduleIn? ms other).map fun m => if m.name = name then change m else m := by
  unfold moduleIn? updateModule
  rw [List.find?_map]
  congr 2
  funext m
  by_cases h : m.name = name <;> simp [h, hname]

/-- A function has no position when no unit stands for it. -/
theorem unitIdIn?_eq_none_iff {units : List FunctionUnit} {module name : String} :
    unitIdIn? units module name = none ↔ (module, name) ∉ units.map FunctionUnit.key := by
  simp [unitIdIn?, FunctionUnit.key]

/-- Where units carry their positions and no function has two of them, looking a function up is the
    inverse of the numbering. -/
theorem unitIdIn?_eq_some_iff {units : List FunctionUnit}
    (hid : ∀ (i : Nat) (u : FunctionUnit), units[i]? = some u → u.id = i)
    (hnd : (units.map FunctionUnit.key).Nodup)
    {module name : String} {i : Nat} :
    unitIdIn? units module name = some i ↔ ∃ u, units[i]? = some u ∧ u.key = (module, name) := by
  have hget : ∀ u ∈ units, units[u.id]? = some u := by
    intro u hu
    obtain ⟨j, hj, rfl⟩ := List.mem_iff_getElem.mp hu
    have hj' : units[j]? = some units[j] := List.getElem?_eq_getElem hj
    rw [hid j _ hj', hj']
  constructor
  · intro h
    obtain ⟨u, hfind, rfl⟩ := Option.map_eq_some_iff.mp h
    have hkey : u.module = module ∧ u.name = name := by simpa using List.find?_some hfind
    exact ⟨u, hget u (List.mem_of_find?_eq_some hfind), Prod.ext hkey.1 hkey.2⟩
  · rintro ⟨u, hu, hkey⟩
    have hmem : u ∈ units := List.mem_of_getElem? hu
    cases hfind : unitIdIn? units module name with
    | none => exact absurd (hkey ▸ List.mem_map_of_mem hmem) (unitIdIn?_eq_none_iff.mp hfind)
    | some j =>
      obtain ⟨v, hv, rfl⟩ := Option.map_eq_some_iff.mp hfind
      have hvkey : v.module = module ∧ v.name = name := by simpa using List.find?_some hv
      have huv : u = v := List.inj_on_of_nodup_map hnd hmem (List.mem_of_find?_eq_some hv)
        (hkey.trans (Prod.ext hvkey.1 hvkey.2).symm)
      rw [← huv, hid i u hu]

/-- The sites of a unit are in its body. -/
theorem unit_of_mem_sitesOf {modules : List TracedModule} {u : FunctionUnit} {site : CallSite}
    (h : site ∈ sitesOf modules u) : site.unit = u := by
  unfold sitesOf at h
  split at h
  · exact absurd h List.not_mem_nil
  · obtain ⟨c, -, rfl⟩ := List.mem_map.mp h
    rfl

/-- The routing calls among the sites of a unit are the annotated ones. -/
theorem route_iff_of_mem_sitesOf {modules : List TracedModule} {u : FunctionUnit} {site : CallSite}
    (h : site ∈ sitesOf modules u) : site.target = .route ↔ site.call.route.isSome = true := by
  unfold sitesOf at h
  split at h
  · exact absurd h List.not_mem_nil
  · obtain ⟨c, -, rfl⟩ := List.mem_map.mp h
    exact Scope.classify_eq_route_iff

namespace Exploration

/-! ## Valid states -/

/-- The functions that have a unit, in the order of the units. -/
def functions (s : Exploration) : List FunctionKey :=
  s.units.map FunctionUnit.key

/-- What every state of a trace from `entry` satisfies. -/
structure Valid (tracer : Tracer) (entry : String) (s : Exploration) : Prop where
  /-- Modules say what their sources say. -/
  reads : ∀ m ∈ s.modules, ∃ src, tracer.source? entry m.name = some src ∧ m.Reads tracer src
  entryKnown : (moduleIn? s.modules entry).isSome = true
  /-- What is given up has no source. -/
  unavailable : ∀ name ∈ s.unavailable, tracer.source? entry name = none
  /-- The unit at a position is that of a declared function, with the position as its number. -/
  units : ∀ i u, s.units[i]? = some u → ∃ src d, tracer.source? entry u.module = some src ∧
    Stmt.functionIn? src.body u.name = some d ∧ u = tracer.unitFrom i u.module src d
  /-- No function has two units. -/
  single : s.functions.Nodup
  known : ∀ u ∈ s.units, (moduleIn? s.modules u.module).isSome = true

variable {tracer : Tracer} {entry : String} {s s' s'' : Exploration}

theorem Valid.numbered (hv : s.Valid tracer entry) :
    ∀ (i : Nat) (u : FunctionUnit), s.units[i]? = some u → u.id = i := by
  intro i u hu
  obtain ⟨src, d, -, -, h⟩ := hv.units i u hu
  rw [h]
  rfl

theorem Valid.declares (hv : s.Valid tracer entry) {f : FunctionKey} (hf : f ∈ s.functions) :
    tracer.Declares entry f := by
  obtain ⟨u, hu, rfl⟩ := List.mem_map.mp hf
  obtain ⟨i, hi⟩ := List.mem_iff_getElem?.mp hu
  obtain ⟨src, d, hsrc, hd, -⟩ := hv.units i u hi
  exact ⟨src, d, hsrc, hd⟩

/-- The module found under a name says what the source of that name says. -/
theorem Valid.source_of_moduleIn? (hv : s.Valid tracer entry) {name : String} {m : TracedModule}
    (h : moduleIn? s.modules name = some m) :
    ∃ src, tracer.source? entry name = some src ∧ m.Reads tracer src := by
  obtain ⟨src, hsrc, hr⟩ := hv.reads m (mem_of_moduleIn? h)
  exact ⟨src, name_of_moduleIn? h ▸ hsrc, hr⟩

/-! ## Growing states -/

/-- `s'` comes from `s` by asking for the functions in `asked`: those that are declared have a unit
    afterwards, and nothing else has changed about units. -/
structure Grows (tracer : Tracer) (entry : String) (asked : FunctionKey → Prop)
    (s s' : Exploration) : Prop where
  valid : s'.Valid tracer entry
  units : s.units <+: s'.units
  visited : s'.visited = s.visited
  functions : ∀ f, f ∈ s'.functions ↔ f ∈ s.functions ∨ (asked f ∧ tracer.Declares entry f)

theorem Grows.refl (hv : s.Valid tracer entry) : Grows tracer entry (fun _ => False) s s :=
  ⟨hv, List.prefix_refl _, rfl, fun _ => by simp⟩

theorem Grows.trans {p q : FunctionKey → Prop} (h : Grows tracer entry p s s')
    (h' : Grows tracer entry q s' s'') : Grows tracer entry (fun f => p f ∨ q f) s s'' where
  valid := h'.valid
  units := h.units.trans h'.units
  visited := h'.visited.trans h.visited
  functions f := by rw [h'.functions, h.functions, or_and_right, or_assoc]

/-- What is asked for counts only as far as it is declared. -/
theorem Grows.congr {p q : FunctionKey → Prop} (h : Grows tracer entry p s s')
    (hpq : ∀ f, tracer.Declares entry f → (p f ↔ q f)) : Grows tracer entry q s s' where
  valid := h.valid
  units := h.units
  visited := h.visited
  functions f := by rw [h.functions, and_congr_left (hpq f)]

/-- A step that leaves the units alone asks for nothing. -/
theorem Grows.of_units_eq (hv : s'.Valid tracer entry) (hu : s'.units = s.units)
    (hn : s'.visited = s.visited) : Grows tracer entry (fun _ => False) s s' :=
  ⟨hv, hu ▸ List.prefix_refl _, hn, fun _ => by simp [Exploration.functions, hu]⟩

/-! ## Notes about calls -/

/-- A change of a module that says the same about its source. -/
theorem Grows.update (hv : s.Valid tracer entry) (name : String)
    {change : TracedModule → TracedModule} (hname : ∀ m, (change m).name = m.name)
    (hreads : ∀ m src, m.Reads tracer src → (change m).Reads tracer src) :
    Grows tracer entry (fun _ => False) s (s.update name change) := by
  have hfound : ∀ other, (moduleIn? (s.update name change).modules other).isSome =
      (moduleIn? s.modules other).isSome := by
    intro other
    rw [Exploration.update, moduleIn?_updateModule hname, Option.isSome_map]
  refine Grows.of_units_eq ⟨?_, ?_, hv.unavailable, hv.units, hv.single, ?_⟩ rfl rfl
  · intro m hm
    obtain ⟨m₀, hm₀, rfl⟩ := List.mem_map.mp hm
    obtain ⟨src, hsrc, hr⟩ := hv.reads m₀ hm₀
    by_cases h : m₀.name = name
    · rw [if_pos h]
      exact ⟨src, by rw [hname]; exact hsrc, hreads m₀ src hr⟩
    · rw [if_neg h]
      exact ⟨src, hsrc, hr⟩
  · rw [hfound]
    exact hv.entryKnown
  · intro u hu
    rw [hfound]
    exact hv.known u hu

theorem Grows.reference (hv : s.Valid tracer entry) (module name : String) :
    Grows tracer entry (fun _ => False) s (s.reference module name) :=
  .update hv module (fun _ => rfl) fun _ _ h => ⟨h.ref, h.functions, h.declared, h.bindings⟩

theorem Grows.mark (hv : s.Valid tracer entry) (module : String) (hit : Qualified) :
    Grows tracer entry (fun _ => False) s (s.mark module hit) :=
  .update hv module (fun _ => rfl) fun m _ h =>
    ⟨h.ref, h.functions, h.declared, (ImportTable.bindings_mark m.imports _ _).trans h.bindings⟩

theorem Grows.track (hv : s.Valid tracer entry) (module : String) (name : Option String) :
    Grows tracer entry (fun _ => False) s (s.track module name) := by
  cases name with
  | none => exact .refl hv
  | some name =>
    exact .update hv module (fun _ => rfl) fun _ _ h => ⟨h.ref, h.functions, h.declared, h.bindings⟩

/-! ## Loading a module -/

/-- What loading a module can do: nothing, when it is settled; give it up, when it has no source; read
    it otherwise. -/
theorem load_cases (tracer : Tracer) (hentry : (moduleIn? s.modules entry).isSome = true)
    (name : String) :
    (s.load tracer name = s ∧
      ((moduleIn? s.modules name).isSome = true ∨ name ∈ s.unavailable)) ∨
    (tracer.source? entry name = none ∧ ∃ requested,
      s.load tracer name =
        { s with unavailable := name :: s.unavailable, requested := requested }) ∨
    (∃ src, tracer.source? entry name = some src ∧ moduleIn? s.modules name = none ∧
      s.load tracer name =
        { s with
          modules := s.modules ++ [tracer.readModule name src.ref src.body]
          requested := name :: s.requested }) := by
  unfold load
  by_cases hset : ((moduleIn? s.modules name).isSome || name ∈ s.unavailable) = true
  · rw [if_pos hset]
    exact Or.inl ⟨rfl, by simpa using hset⟩
  · rw [if_neg hset]
    simp only [Bool.or_eq_true, decide_eq_true_eq, not_or] at hset
    have hne : name ≠ entry := fun he => hset.1 (he ▸ hentry)
    refine Or.inr ?_
    unfold Tracer.source?
    cases tracer.resolve name with
    | none => exact Or.inl ⟨rfl, s.requested, rfl⟩
    | some ref =>
      by_cases howned : ref.owned = true
      · simp only [howned, or_true, if_true, Bool.not_true, Bool.false_eq_true, if_false]
        cases tracer.parse name ref.path with
        | error e => exact Or.inl ⟨rfl, name :: s.requested, rfl⟩
        | ok body => exact Or.inr ⟨⟨ref, body⟩, rfl, by simpa using hset.1, rfl⟩
      · simp only [howned, hne, Bool.not_false, if_true]
        exact Or.inl ⟨by simp, s.requested, rfl⟩

/-- After a module has been loaded it is known exactly when it has a source. -/
theorem Valid.load (hv : s.Valid tracer entry) (name : String) :
    Grows tracer entry (fun _ => False) s (s.load tracer name) ∧
      ((moduleIn? (s.load tracer name).modules name).isSome = true ↔
        (tracer.source? entry name).isSome = true) := by
  rcases load_cases tracer hv.entryKnown name with
    ⟨h, hset⟩ | ⟨hsrc, requested, h⟩ | ⟨src, hsrc, hnew, h⟩
  · rw [h]
    refine ⟨.refl hv, ?_⟩
    cases hm : moduleIn? s.modules name with
    | some m =>
      obtain ⟨src, hsrc, -⟩ := hv.source_of_moduleIn? hm
      simp [hsrc]
    | none =>
      have hgone : name ∈ s.unavailable := hset.resolve_left (by simp [hm])
      simp [hv.unavailable name hgone]
  · rw [h]
    refine ⟨.of_units_eq ⟨hv.reads, hv.entryKnown, ?_, hv.units, hv.single, hv.known⟩ rfl rfl, ?_⟩
    · intro other hother
      rcases List.mem_cons.mp hother with rfl | hother
      · exact hsrc
      · exact hv.unavailable other hother
    · cases hm : moduleIn? s.modules name with
      | none => simp [hsrc]
      | some m =>
        obtain ⟨src, hsrc', -⟩ := hv.source_of_moduleIn? hm
        rw [hsrc] at hsrc'
        exact absurd hsrc' (by simp)
  · rw [h]
    have hmono : ∀ other, (moduleIn? s.modules other).isSome = true →
        (moduleIn? (s.modules ++ [tracer.readModule name src.ref src.body]) other).isSome = true := by
      intro other hother
      rw [moduleIn?_append, Option.isSome_or, hother, Bool.true_or]
    refine ⟨.of_units_eq ⟨?_, hmono entry hv.entryKnown, hv.unavailable, hv.units, hv.single,
      fun u hu => hmono u.module (hv.known u hu)⟩ rfl rfl, ?_⟩
    · intro m hm
      rcases List.mem_append.mp hm with hm | hm
      · exact hv.reads m hm
      · rw [List.mem_singleton] at hm
        subst hm
        exact ⟨src, hsrc, tracer.reads_readModule name src⟩
    · rw [moduleIn?_append, hnew, hsrc]
      simp [Tracer.readModule]

/-! ## Asking for a unit -/

/-- The state with one more unit, of a declared function that had none. -/
theorem Grows.addUnit (hv : s.Valid tracer entry) {module name : String} {m : TracedModule}
    {d : FunctionDef} (hnew : (module, name) ∉ s.functions)
    (hm : moduleIn? s.modules module = some m) (hd : m.functions.find? (·.name = name) = some d) :
    Grows tracer entry (· = (module, name)) s
      { s with units := s.units ++ [tracer.unitOf s.units.length m d] } := by
  obtain ⟨src, hsrc, hr⟩ := hv.source_of_moduleIn? hm
  have hname : m.name = module := name_of_moduleIn? hm
  have hdname : d.name = name := by simpa using List.find?_some hd
  have hfun : Stmt.functionIn? src.body name = some d := by
    rw [hr.functions] at hd
    exact hd
  have hunit : tracer.unitOf s.units.length m d = tracer.unitFrom s.units.length module src d := by
    rw [Tracer.unitOf_eq hr, hname]
  have hkey : (tracer.unitOf s.units.length m d).key = (module, name) := by
    rw [hunit, ← hdname]
    rfl
  have hfunctions : (s.units ++ [tracer.unitOf s.units.length m d]).map FunctionUnit.key =
      s.functions ++ [(module, name)] := by
    rw [List.map_append, List.map_singleton, hkey, Exploration.functions]
  refine ⟨⟨hv.reads, hv.entryKnown, hv.unavailable, ?_, ?_, ?_⟩, List.prefix_append _ _, rfl, ?_⟩
  · intro i u hu
    by_cases hi : i < s.units.length
    · rw [List.getElem?_append_left hi] at hu
      exact hv.units i u hu
    · -- the only position behind the old units is the first one
      have hlen := (List.getElem?_eq_some_iff.mp hu).1
      rw [List.length_append, List.length_singleton] at hlen
      have hi' : i = s.units.length := by omega
      subst hi'
      rw [List.getElem?_append_right (Nat.le_refl _), Nat.sub_self] at hu
      obtain rfl : tracer.unitOf s.units.length m d = u := by simpa using hu
      rw [hunit]
      exact ⟨src, d, hsrc, by rw [← hdname] at hfun; exact hfun, rfl⟩
  · show ((s.units ++ [_]).map FunctionUnit.key).Nodup
    rw [hfunctions]
    exact hv.single.append (List.nodup_singleton _) (by simpa using hnew)
  · intro u hu
    rcases List.mem_append.mp hu with hu | hu
    · exact hv.known u hu
    · rw [List.mem_singleton] at hu
      have : u.module = module := by rw [hu, hunit]; rfl
      rw [this, hm]
      rfl
  · intro f
    show f ∈ (s.units ++ [_]).map FunctionUnit.key ↔ _
    rw [hfunctions, List.mem_append, List.mem_singleton]
    refine or_congr_right ⟨fun h => ⟨h, ?_⟩, fun h => h.1⟩
    rw [h]
    exact ⟨src, d, hsrc, hfun⟩

/-- What asking for a unit can do: nothing, when the function has one; load its module and stop there,
    when that does not declare the function; load it and add the unit otherwise. -/
theorem unitFor_cases (tracer : Tracer) (s : Exploration) (module name : String) :
    (∃ id, unitIdIn? s.units module name = some id ∧
      s.unitFor tracer module name = (s, some id)) ∨
    ((module, name) ∉ s.functions ∧
      (∀ m, moduleIn? (s.load tracer module).modules module = some m →
        m.functions.find? (·.name = name) = none) ∧
      s.unitFor tracer module name = (s.load tracer module, none)) ∨
    ((module, name) ∉ s.functions ∧ ∃ m d,
      moduleIn? (s.load tracer module).modules module = some m ∧
      m.functions.find? (·.name = name) = some d ∧
      s.unitFor tracer module name =
        ({ s.load tracer module with
            units := (s.load tracer module).units ++
              [tracer.unitOf (s.load tracer module).units.length m d] },
          some (s.load tracer module).units.length)) := by
  unfold unitFor
  split
  · rename_i id hid
    exact Or.inl ⟨id, hid, rfl⟩
  · rename_i hid
    have hnew : (module, name) ∉ s.functions := unitIdIn?_eq_none_iff.mp hid
    refine Or.inr ?_
    simp only
    split
    · rename_i hm
      exact Or.inl ⟨hnew, fun m h => absurd (hm.symm.trans h) (by simp), rfl⟩
    · rename_i m hm
      split
      · rename_i hd
        exact Or.inl ⟨hnew, fun m' h => Option.some.inj (hm.symm.trans h) ▸ hd, rfl⟩
      · rename_i d hd
        exact Or.inr ⟨hnew, m, d, hm, hd, rfl⟩

/-- Asking for a unit adds it when the function is declared and has none yet, and it answers with a
    position exactly when the function is declared. -/
theorem Valid.unitFor (hv : s.Valid tracer entry) (module name : String) :
    Grows tracer entry (· = (module, name)) s (s.unitFor tracer module name).1 ∧
      ((s.unitFor tracer module name).2.isSome = true ↔ tracer.Declares entry (module, name)) := by
  obtain ⟨hgrow, hknown⟩ := hv.load module
  rcases unitFor_cases tracer s module name with
    ⟨id, hid, h⟩ | ⟨hnew, hfind, h⟩ | ⟨hnew, m, d, hm, hd, h⟩
  · have hmem : (module, name) ∈ s.functions := by
      by_contra hc
      rw [unitIdIn?_eq_none_iff.mpr hc] at hid
      exact absurd hid (by simp)
    have hdecl : tracer.Declares entry (module, name) := hv.declares hmem
    rw [h]
    refine ⟨⟨hv, List.prefix_refl _, rfl, fun f => ⟨Or.inl, ?_⟩⟩, by simpa using hdecl⟩
    rintro (hf | ⟨rfl, -⟩)
    · exact hf
    · exact hmem
  · have hnot : ¬ tracer.Declares entry (module, name) := by
      rintro ⟨src, d, hsrc, hd⟩
      rw [hsrc] at hknown
      obtain ⟨m, hm⟩ := Option.isSome_iff_exists.mp (hknown.mpr rfl)
      obtain ⟨src', hsrc', hr⟩ := hgrow.valid.source_of_moduleIn? hm
      obtain rfl : src = src' := Option.some.inj (hsrc.symm.trans hsrc')
      have hnone := hfind m hm
      rw [hr.functions] at hnone
      exact absurd (hnone.symm.trans hd) (by simp)
    rw [h]
    exact ⟨hgrow.congr fun f hf => ⟨False.elim, fun he => hnot (he ▸ hf)⟩, by simpa using hnot⟩
  · have hnew' : (module, name) ∉ (s.load tracer module).functions := by
      rw [hgrow.functions]
      simpa using hnew
    obtain ⟨src, hsrc, hr⟩ := hgrow.valid.source_of_moduleIn? hm
    have hdecl : tracer.Declares entry (module, name) :=
      ⟨src, d, hsrc, by rw [hr.functions] at hd; exact hd⟩
    rw [h]
    exact ⟨(hgrow.trans (.addUnit hgrow.valid hnew' hm hd)).congr fun f _ => by rw [false_or],
      by simpa using hdecl⟩

/-- The position that asking for a unit answers is that of the function. -/
theorem Valid.key_of_unitFor (hv : s.Valid tracer entry) {module name : String} {i : Nat}
    (h : (s.unitFor tracer module name).2 = some i) :
    ∃ u, (s.unitFor tracer module name).1.units[i]? = some u ∧ u.key = (module, name) := by
  rcases unitFor_cases tracer s module name with
    ⟨id, hid, he⟩ | ⟨-, -, he⟩ | ⟨-, m, d, hm, hd, he⟩
  · rw [he] at h ⊢
    obtain rfl : id = i := Option.some.inj h
    exact (unitIdIn?_eq_some_iff hv.numbered hv.single).mp hid
  · rw [he] at h
    exact absurd h (by simp)
  · rw [he] at h ⊢
    obtain rfl := Option.some.inj h
    refine ⟨_, List.getElem?_concat_length, ?_⟩
    have hdname : d.name = name := by simpa using List.find?_some hd
    exact Prod.ext (name_of_moduleIn? hm) hdname

/-! ## Following calls -/

/-- Following a call asks for the function that it refers to. -/
theorem Valid.follow (hv : s.Valid tracer entry) (module : String) (site : CallSite) :
    Grows tracer entry (fun f => site.target.function? module = some f) s
      (s.follow tracer module site) := by
  unfold Exploration.follow
  cases htarget : site.target with
  | route => exact (Grows.track hv module _).congr fun f _ => by simp [CallTarget.function?]
  | unknown => exact (Grows.refl hv).congr fun f _ => by simp [CallTarget.function?]
  | unrecognized => exact (Grows.refl hv).congr fun f _ => by simp [CallTarget.function?]
  | declared name =>
    have hnote := Grows.reference hv module name
    obtain ⟨hask, -⟩ := hnote.valid.unitFor module name
    have hgrow := (hnote.trans hask).congr (q := fun f => some (module, name) = some f)
      fun f _ => by simp [eq_comm]
    cases hres : (s.reference module name).unitFor tracer module name with
    | mk s' id =>
      rw [hres] at hgrow
      simp only [hres]
      cases id with
      | none => exact hgrow
      | some id => exact (hgrow.trans (.track hgrow.valid module _)).congr fun f _ => by rw [or_false]; rfl
  | imported hit =>
    have hnote := Grows.mark hv module hit
    obtain ⟨hask, -⟩ := hnote.valid.unitFor hit.module hit.name
    have hgrow := (hnote.trans hask).congr (q := fun f => some (hit.module, hit.name) = some f)
      fun f _ => by simp [eq_comm]
    cases hres : (s.mark module hit).unitFor tracer hit.module hit.name with
    | mk s' id =>
      rw [hres] at hgrow
      simp only [hres]
      cases id with
      | none => exact hgrow
      | some id =>
        have hreference := Grows.reference hgrow.valid hit.module hit.name
        have htrack := Grows.track hreference.valid module site.call.func.targetName?
        exact ((hgrow.trans hreference).trans htrack).congr fun f _ => by
          rw [or_false, or_false]; rfl

theorem Valid.foldl_follow (hv : s.Valid tracer entry) (module : String) (sites : List CallSite) :
    Grows tracer entry (fun f => ∃ site ∈ sites, site.target.function? module = some f) s
      (sites.foldl (Exploration.follow tracer module) s) := by
  induction sites generalizing s with
  | nil => exact (Grows.refl hv).congr fun f _ => by simp
  | cons site sites ih =>
    have hfirst := hv.follow module site
    exact (hfirst.trans (ih hfirst.valid)).congr fun f _ => by simp

/-! ## Visiting a unit -/

/-- The call sites of a unit are the calls of its body, with what they refer to in the sources. -/
theorem Valid.sitesOf_eq (hv : s.Valid tracer entry) {i : Nat} {u : FunctionUnit}
    (hu : s.units[i]? = some u) {src : ModuleSource} (hsrc : tracer.source? entry u.module = some src)
    {d : FunctionDef} (hd : Stmt.functionIn? src.body u.name = some d) :
    sitesOf s.modules u = (Stmt.callsIn (tracer.clients.annotate d.body)).map
      fun c => ⟨u, c, (tracer.scopeIn src d).classify c⟩ := by
  obtain ⟨src', d', hsrc', hd', heq⟩ := hv.units i u hu
  obtain rfl : src = src' := Option.some.inj (hsrc.symm.trans hsrc')
  obtain rfl : d = d' := Option.some.inj (hd.symm.trans hd')
  obtain ⟨m, hm⟩ := Option.isSome_iff_exists.mp (hv.known u (List.mem_of_getElem? hu))
  obtain ⟨src', hsrc', hr⟩ := hv.source_of_moduleIn? hm
  obtain rfl : src = src' := Option.some.inj (hsrc.symm.trans hsrc')
  have hbody : u.body = tracer.clients.annotate d.body := by rw [heq]; rfl
  have hlocal : u.localImports = tracer.localImportsOf src d := by rw [heq]; rfl
  unfold sitesOf
  rw [hm, hbody, hlocal]
  simp only [hr.classify_eq]

/-- The call sites of a unit refer to what the calls in its body refer to in the sources. -/
theorem Valid.mem_sitesOf (hv : s.Valid tracer entry) {i : Nat} {u : FunctionUnit}
    (hu : s.units[i]? = some u) {f : FunctionKey} :
    (∃ site ∈ sitesOf s.modules u, site.target.function? u.module = some f) ∧
      tracer.Declares entry f ↔ tracer.Leads entry u.key f := by
  obtain ⟨src, d, hsrc, hd, -⟩ := hv.units i u hu
  rw [hv.sitesOf_eq hu hsrc hd]
  constructor
  · rintro ⟨⟨site, hsite, hf⟩, hdecl⟩
    obtain ⟨c, hc, rfl⟩ := List.mem_map.mp hsite
    exact ⟨src, d, hsrc, hd, ⟨c, hc, hf⟩, hdecl⟩
  · rintro ⟨src', d', hsrc', hd', ⟨c, hc, hf⟩, hdecl⟩
    obtain rfl : src = src' := Option.some.inj (hsrc.symm.trans hsrc')
    obtain rfl : d = d' := Option.some.inj (hd.symm.trans hd')
    exact ⟨⟨_, List.mem_map_of_mem hc, hf⟩, hdecl⟩

/-- The call sites of a unit stay the same on the way, whatever is loaded and noted in between. -/
theorem Valid.sitesOf_congr (hv : s.Valid tracer entry) (hv' : s'.Valid tracer entry) {i : Nat}
    {u : FunctionUnit} (hu : s.units[i]? = some u) (hu' : s'.units[i]? = some u) :
    sitesOf s.modules u = sitesOf s'.modules u := by
  obtain ⟨src, d, hsrc, hd, -⟩ := hv.units i u hu
  rw [hv.sitesOf_eq hu hsrc hd, hv'.sitesOf_eq hu' hsrc hd]

/-- Visiting a unit adds exactly the functions that it leads to. -/
theorem Valid.visit (hv : s.Valid tracer entry) {i : Nat} {u : FunctionUnit}
    (hu : s.units[i]? = some u) :
    Grows tracer entry (fun f => tracer.Leads entry u.key f) { s with visited := s.visited + 1 }
      (s.visit tracer u) := by
  have hv' : Valid tracer entry { s with visited := s.visited + 1 } :=
    ⟨hv.reads, hv.entryKnown, hv.unavailable, hv.units, hv.single, hv.known⟩
  refine (hv'.foldl_follow u.module (sitesOf s.modules u)).congr fun f hf => ?_
  rw [← hv.mem_sitesOf hu]
  exact (and_iff_left hf).symm

/-! ## The whole exploration -/

/-- What every visit keeps holds when all units have been visited. -/
theorem explore?_preserves {P : Exploration → Prop}
    (hstep : ∀ s u, P s → s.units[s.visited]? = some u → P (s.visit tracer u)) {fuel : Nat}
    (hs : P s) (h : s.explore? tracer fuel = some s') :
    P s' ∧ s'.units[s'.visited]? = none := by
  induction fuel generalizing s with
  | zero =>
    unfold explore? at h
    split at h
    · rename_i hdone
      exact Option.some.inj h ▸ ⟨hs, hdone⟩
    · exact absurd h (by simp)
  | succ fuel ih =>
    unfold explore? at h
    split at h
    · rename_i hdone
      exact Option.some.inj h ▸ ⟨hs, hdone⟩
    · rename_i u hu
      exact ih (hstep s u hs hu) h

end Exploration

end ServiceTrace
