import ServiceTrace.Proofs.Import.Bindings
import ServiceTrace.Proofs.Route.Annotate
import ServiceTrace.Trace.Explore

/-!
# `ServiceTrace.Proofs.Trace.Source` — what the sources say about calls

Which functions a trace has to find is a question about the sources alone: about the modules that can be
followed, the functions that they declare, and what the calls in their annotated bodies refer to. This
file says so without any state of a trace.

* `Tracer.source?` — the module of a name, when it has statements to follow;
* `Tracer.Declares` — the functions of such modules;
* `Tracer.scopeIn` — the scope inside a function: its own imports over those of its module;
* `Tracer.Leads` — one function leads to another when a call in its body refers to it.

The set that a trace computes is the least one that holds the entry and is closed under `Leads`, see
`ServiceTrace.Proofs.Trace.Closure`.
-/

namespace ServiceTrace

/-! ## What a call refers to -/

/-- What the target of a call can be: a routing call is an annotated one, and what is declared is declared in
    the scope. -/
theorem Scope.classify_cases (scope : Scope) (c : Call) :
    (c.route.isSome = true ∧ scope.classify c = .route) ∨
    (c.route.isSome = false ∧
      ((∃ name, name ∈ scope.declared ∧ scope.classify c = .declared name) ∨
        (∃ hit, scope.classify c = .imported hit) ∨
        scope.classify c = .unknown ∨ scope.classify c = .unrecognized)) := by
  unfold classify
  by_cases hroute : c.route.isSome = true
  · rw [if_pos hroute]
    exact .inl ⟨hroute, rfl⟩
  · rw [if_neg hroute]
    refine .inr ⟨eq_false_of_ne_true hroute, ?_⟩
    split
    · rename_i id _
      unfold classifyName
      split
      · rename_i hdeclared
        exact .inl ⟨id, hdeclared, rfl⟩
      · split
        · exact .inr (.inl ⟨_, rfl⟩)
        · exact .inr (.inr (.inl rfl))
    · split
      · unfold classifyChain
        split
        · rename_i name hown
          exact .inl ⟨name, of_decide_eq_true (Option.mem_filter_iff.mp hown).2, rfl⟩
        · split
          · exact .inr (.inl ⟨_, rfl⟩)
          · exact .inr (.inr (.inl rfl))
      · exact .inr (.inr (.inl rfl))
    · exact .inr (.inr (.inr rfl))

/-- The annotated calls are the routing calls. -/
theorem Scope.classify_eq_route_iff {scope : Scope} {c : Call} :
    scope.classify c = .route ↔ c.route.isSome = true := by
  rcases scope.classify_cases c with ⟨hroute, h⟩ | ⟨hroute, ⟨name, -, h⟩ | ⟨hit, h⟩ | h | h⟩ <;>
    simp [h, hroute]

/-- A call of a declared function names a function that is declared in the scope. -/
theorem Scope.mem_declared_of_classify {scope : Scope} {c : Call} {name : String}
    (h : scope.classify c = .declared name) : name ∈ scope.declared := by
  rcases scope.classify_cases c with ⟨-, h'⟩ | ⟨-, ⟨other, hmem, h'⟩ | ⟨hit, h'⟩ | h' | h'⟩
  · exact absurd (h.symm.trans h') (by simp)
  · obtain rfl : name = other := by simpa using h.symm.trans h'
    exact hmem
  all_goals exact absurd (h.symm.trans h') (by simp)

/-! ## Sources -/

/-- A function is known by its module and its name. -/
abbrev FunctionKey := String × String

/-- The function that a call in a module refers to, when it names one. -/
def CallTarget.function? (module : String) : CallTarget → Option FunctionKey
  | .declared name => some (module, name)
  | .imported hit => some (hit.module, hit.name)
  | .route | .unknown | .unrecognized => none

/-- A module that can be followed: where it is, and its statements. -/
structure ModuleSource where
  ref : ModuleRef
  body : List Stmt

namespace Tracer

variable (tracer : Tracer)

/-- The module of a name, when there is something to follow in it. The entry module may lie anywhere;
    any other module has to belong to the project. -/
def source? (entry name : String) : Option ModuleSource :=
  match tracer.resolve name with
  | none => none
  | some ref =>
    if name = entry ∨ ref.owned = true then
      match tracer.parse name ref.path with
      | .error _ => none
      | .ok body => some ⟨ref, body⟩
    else none

/-- Whether a module that can be followed declares a function. -/
def Declares (entry : String) (f : FunctionKey) : Prop :=
  ∃ src d, tracer.source? entry f.1 = some src ∧ Stmt.functionIn? src.body f.2 = some d

/-- The imports of a module. -/
def importsOf (src : ModuleSource) : ImportTable :=
  .ofStmts tracer.resolve src.ref.packageParts (Stmt.topImportsIn src.body)

/-- The imports that are written inside a function of a module. -/
def localImportsOf (src : ModuleSource) (d : FunctionDef) : ImportTable :=
  .ofStmts tracer.resolve src.ref.packageParts (Stmt.importsIn d.body)

/-- The scope inside a function: the names that its module declares, and its own imports over those of
    the module. -/
def scopeIn (src : ModuleSource) (d : FunctionDef) : Scope where
  declared := .ofList ((Stmt.functionsIn src.body).map (·.name))
  imports := (tracer.localImportsOf src d).shadowing (tracer.importsOf src)

/-- Some call in the annotated body of `f` refers to `g`, and `g` is declared where it can be
    followed. -/
def Leads (entry : String) (f g : FunctionKey) : Prop :=
  ∃ src d, tracer.source? entry f.1 = some src ∧ Stmt.functionIn? src.body f.2 = some d ∧
    (∃ c ∈ Stmt.callsIn (tracer.clients.annotate d.body),
      ((tracer.scopeIn src d).classify c).function? f.1 = some g) ∧
    tracer.Declares entry g

theorem Leads.declares {tracer : Tracer} {entry : String} {f g : FunctionKey}
    (h : tracer.Leads entry f g) : tracer.Declares entry g :=
  let ⟨_, _, _, _, _, hdecl⟩ := h; hdecl

end Tracer

/-! ## What a trace keeps of a module -/

/-- A module of a trace says what its source says; only the notes about calls are its own. -/
structure TracedModule.Reads (tracer : Tracer) (src : ModuleSource) (m : TracedModule) : Prop where
  ref : m.ref = src.ref
  functions : m.functions = Stmt.functionsIn src.body
  declared : m.declared = .ofList ((Stmt.functionsIn src.body).map (·.name))
  bindings : m.imports.bindings = (tracer.importsOf src).bindings

theorem Tracer.reads_readModule (tracer : Tracer) (name : String) (src : ModuleSource) :
    (tracer.readModule name src.ref src.body).Reads tracer src :=
  ⟨rfl, rfl, rfl, rfl⟩

/-- The unit for a function of a source. -/
def Tracer.unitFrom (tracer : Tracer) (id : Nat) (module : String) (src : ModuleSource)
    (d : FunctionDef) : FunctionUnit where
  id := id
  module := module
  name := d.name
  file := src.ref.path
  line := d.line
  body := tracer.clients.annotate d.body
  localImports := tracer.localImportsOf src d

theorem Tracer.unitOf_eq {tracer : Tracer} {src : ModuleSource} {m : TracedModule}
    (h : m.Reads tracer src) (id : Nat) (d : FunctionDef) :
    tracer.unitOf id m d = tracer.unitFrom id m.name src d := by
  unfold unitOf unitFrom localImportsOf
  rw [h.ref]

/-- Calls mean in a trace what they mean in the sources. -/
theorem TracedModule.Reads.classify_eq {tracer : Tracer} {src : ModuleSource} {m : TracedModule}
    (h : m.Reads tracer src) (d : FunctionDef) (c : Call) :
    (m.scope (tracer.localImportsOf src d)).classify c = (tracer.scopeIn src d).classify c := by
  refine Scope.classify_congr h.declared ?_ c
  unfold TracedModule.scope Tracer.scopeIn
  have hn : (tracer.importsOf src).bindings.Nodup := ImportTable.nodup_bindings_ofStmts _ _ _
  by_cases he : (tracer.localImportsOf src d).isEmpty = true
  · -- a function without imports of its own is in the scope of its module as it is
    simp only [he, if_true]
    rw [ImportTable.bindings_shadowing_of_isEmpty he hn]
    exact h.bindings
  · simp only [he]
    rw [if_neg Bool.false_ne_true, ImportTable.bindings_shadowing, ImportTable.bindings_shadowing,
      h.bindings]

end ServiceTrace
