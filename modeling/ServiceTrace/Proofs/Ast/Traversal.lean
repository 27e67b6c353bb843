import ServiceTrace.Proofs.Ast.HasCall
import ServiceTrace.Proofs.Ast.Listing
import ServiceTrace.Proofs.Ast.Visit

/-!
# `ServiceTrace.Proofs.Ast.Traversal` — the three traversals meet the same calls

`Stmt.callsIn` lists the calls of a body, `Stmt.visitIn` lets a visitor change their marks, and
`Stmt.hasCall` asks whether one of them satisfies a predicate. Each goes through the syntax in its own way.
This file says that they agree:

* `Visitor.VisitsListed` — a visitor is handed the listed calls, each once and in their order; afterwards the
  list has the same calls with the visitor's marks, and nothing else of the body has changed.
* `Stmt.Holds` — the calls that the test asks about: those that are listed, and those in the definitions
  under the statement, at any depth.

**`Stmt.traversals_agree`** puts both together. The first part needs to know what listing makes of a body
with other marks (`Stmt.callsIn_remarkIn`); the second one goes block by block (`Stmt.Contains`).
-/

namespace ServiceTrace

/-! ## Listing the calls of a body with other marks -/

section Remark

variable (f : CallMarks → CallMarks)

mutual

/-- An expression with other marks has the same calls, with other marks. -/
theorem Expr.calls_remark : ∀ e : Expr, (e.remark f).calls = e.calls.map (Call.remark f)
  | .name _ | .str _ | .constant _ => rfl
  | .attribute value _ => Expr.calls_remark value
  | .call c => congrArg (c.remark f :: ·) (Call.innerCalls_remark c)
  | .joined parts => Expr.callsIn_remarkIn parts
  | .formatted value => Expr.calls_remark value
  | .binary left _ right => by
    rw [Expr.remark, Expr.calls, Expr.calls, List.map_append, Expr.calls_remark left,
      Expr.calls_remark right]
  | .other _ children => Expr.callsIn_remarkIn children

theorem Call.innerCalls_remark : ∀ c : Call,
    (c.remark f).innerCalls = c.innerCalls.map (Call.remark f)
  | ⟨func, args, keywords, _, _⟩ => by
    rw [Call.remark, Call.innerCalls, Call.innerCalls, List.map_append, List.map_append,
      Expr.calls_remark func, Expr.callsIn_remarkIn args, Keyword.callsIn_remarkIn keywords]

theorem Expr.callsIn_remarkIn : ∀ es : List Expr,
    Expr.callsIn (Expr.remarkIn f es) = (Expr.callsIn es).map (Call.remark f)
  | [] => rfl
  | e :: es => by
    rw [Expr.remarkIn, Expr.callsIn, Expr.callsIn, List.map_append, Expr.calls_remark e,
      Expr.callsIn_remarkIn es]

theorem Keyword.callsIn_remarkIn : ∀ ks : List Keyword,
    Keyword.callsIn (Keyword.remarkIn f ks) = (Keyword.callsIn ks).map (Call.remark f)
  | [] => rfl
  | k :: ks => by
    rw [Keyword.remarkIn, Keyword.callsIn, Keyword.callsIn, List.map_append, Keyword.calls_remark k,
      Keyword.callsIn_remarkIn ks]

theorem Keyword.calls_remark : ∀ k : Keyword, (k.remark f).calls = k.calls.map (Call.remark f)
  | ⟨_, value⟩ => Expr.calls_remark value

end

theorem Expr.callsIn?_remarkIn? (e : Option Expr) :
    Expr.callsIn? (Expr.remarkIn? f e) = (Expr.callsIn? e).map (Call.remark f) := by
  cases e with
  | none => rfl
  | some e => exact Expr.calls_remark f e

mutual

/-- A statement with other marks has the same calls, with other marks. -/
theorem Stmt.calls_remark : ∀ s : Stmt, (s.remark f).calls = s.calls.map (Call.remark f)
  | .expr value _ => Expr.calls_remark f value
  | .assign targets _ value _ => by
    rw [Stmt.remark, Stmt.calls, Stmt.calls, List.map_append, Expr.callsIn?_remarkIn? f value,
      Expr.callsIn_remarkIn f targets]
  | .cond test body orelse _ | .whileLoop test body orelse _ => by
    rw [Stmt.remark, Stmt.calls, Stmt.calls, List.map_append, List.map_append,
      Expr.calls_remark f test, Stmt.callsIn_remarkIn body, Stmt.callsIn_remarkIn orelse]
  | .forLoop target iter body orelse _ _ => by
    rw [Stmt.remark, Stmt.calls, Stmt.calls, List.map_append, List.map_append, List.map_append,
      Expr.calls_remark f iter, Expr.calls_remark f target, Stmt.callsIn_remarkIn body,
      Stmt.callsIn_remarkIn orelse]
  | .withBlock items body _ _ => by
    rw [Stmt.remark, Stmt.calls, Stmt.calls, List.map_append, Expr.callsIn_remarkIn f items,
      Stmt.callsIn_remarkIn body]
  | .tryBlock body handlers orelse finalbody _ => by
    rw [Stmt.remark, Stmt.calls, Stmt.calls, List.map_append, List.map_append, List.map_append,
      Stmt.callsIn_remarkIn body, Handler.callsIn_remarkIn handlers, Stmt.callsIn_remarkIn orelse,
      Stmt.callsIn_remarkIn finalbody]
  | .matchBlock subject cases _ => by
    rw [Stmt.remark, Stmt.calls, Stmt.calls, List.map_append, Expr.callsIn_remarkIn f subject,
      MatchCase.callsIn_remarkIn cases]
  | .ret value _ => Expr.callsIn?_remarkIn? f value
  | .raise exprs _ | .delete exprs _ | .other _ exprs _ => Expr.callsIn_remarkIn f exprs
  | .function _ | .classDef _ | .pass _ | .breakLoop _ | .continueLoop _ | .imports _ _
  | .importFrom _ _ _ _ => rfl

/-- A body with other marks has the same calls, with other marks. -/
theorem Stmt.callsIn_remarkIn : ∀ ss : List Stmt,
    Stmt.callsIn (Stmt.remarkIn f ss) = (Stmt.callsIn ss).map (Call.remark f)
  | [] => rfl
  | s :: ss => by
    rw [Stmt.remarkIn, Stmt.callsIn, Stmt.callsIn, List.map_append, Stmt.calls_remark s,
      Stmt.callsIn_remarkIn ss]

theorem Handler.callsIn_remarkIn : ∀ hs : List Handler,
    Handler.callsIn (Handler.remarkIn f hs) = (Handler.callsIn hs).map (Call.remark f)
  | [] => rfl
  | h :: hs => by
    rw [Handler.remarkIn, Handler.callsIn, Handler.callsIn, List.map_append, Handler.calls_remark h,
      Handler.callsIn_remarkIn hs]

theorem Handler.calls_remark : ∀ h : Handler, (h.remark f).calls = h.calls.map (Call.remark f)
  | ⟨types, body, _⟩ => by
    rw [Handler.remark, Handler.calls, Handler.calls, List.map_append, Expr.callsIn_remarkIn f types,
      Stmt.callsIn_remarkIn body]

theorem MatchCase.callsIn_remarkIn : ∀ cs : List MatchCase,
    MatchCase.callsIn (MatchCase.remarkIn f cs) = (MatchCase.callsIn cs).map (Call.remark f)
  | [] => rfl
  | c :: cs => by
    rw [MatchCase.remarkIn, MatchCase.callsIn, MatchCase.callsIn, List.map_append,
      MatchCase.calls_remark c, MatchCase.callsIn_remarkIn cs]

theorem MatchCase.calls_remark : ∀ c : MatchCase, (c.remark f).calls = c.calls.map (Call.remark f)
  | ⟨_, guard, body⟩ => by
    rw [MatchCase.remark, MatchCase.calls, MatchCase.calls, List.map_append,
      Expr.callsIn?_remarkIn? f guard, Stmt.callsIn_remarkIn body]

end

end Remark

/-- A call without marks. -/
def Call.unmarked (c : Call) : Call :=
  c.remark fun _ => ⟨0, none⟩

/-- A body without the marks of its calls. -/
def Stmt.unmarkedIn (body : List Stmt) : List Stmt :=
  Stmt.remarkIn (fun _ => ⟨0, none⟩) body

/-! ## What a visitor is handed -/

namespace Visitor

variable {σ : Type}

/-- A visitor that keeps a log of the calls it is handed. -/
def logged (visitor : Visitor σ) : Visitor (σ × List Call) := fun c (s, log) =>
  ((visitor c s).1, ((visitor c s).2, log ++ [c]))

/-- A visitor that goes through a list of calls logs them in their order, and otherwise it does what it does
    without a log. -/
theorem mapM_logged (visitor : Visitor σ) (calls : List Call) (s : σ) (log : List Call) :
    calls.mapM visitor.logged (s, log) =
      ((calls.mapM visitor s).1, ((calls.mapM visitor s).2, log ++ calls)) := by
  induction calls generalizing s log with
  | nil =>
    rw [List.append_nil]
    rfl
  | cons c calls ih =>
    have hrest := ih (visitor c s).2 (log ++ [c])
    rw [List.append_assoc] at hrest
    rw [List.mapM_cons, List.mapM_cons]
    show (_ :: (calls.mapM visitor.logged ((visitor c s).2, log ++ [c])).1,
      (calls.mapM visitor.logged ((visitor c s).2, log ++ [c])).2) = _
    rw [hrest]
    rfl

/-- A visit goes through the listed calls: it leaves the state behind that going through the list leaves,
    and the calls carry the answers. -/
theorem visitIn_eq_mapM (visitor : Visitor σ) (body : List Stmt) (s : σ) :
    ((Stmt.callsIn (Stmt.visitIn visitor body s).1).map Call.marks, (Stmt.visitIn visitor body s).2) =
      (Stmt.callsIn body).mapM visitor s :=
  congrFun (Stmt.marks_visitIn visitor body) s

/-- What a visit of a body comes to, from a state on. -/
structure VisitsListed (visitor : Visitor σ) (body : List Stmt) (s : σ) : Prop where
  /-- The visitor is handed the listed calls, each once and in their order. -/
  handed : (Stmt.visitIn visitor.logged body (s, [])).2 =
    ((Stmt.visitIn visitor body s).2, Stmt.callsIn body)
  /-- Position by position, the calls listed afterwards carry what the visitor answered, and the state is
      the one that it left. -/
  answered : ((Stmt.callsIn (Stmt.visitIn visitor body s).1).map Call.marks,
    (Stmt.visitIn visitor body s).2) = (Stmt.callsIn body).mapM visitor s
  /-- Marks apart, the calls listed afterwards are the same ones. -/
  listed : (Stmt.callsIn (Stmt.visitIn visitor body s).1).map Call.unmarked =
    (Stmt.callsIn body).map Call.unmarked
  /-- Marks apart, the body is the same. -/
  unchanged : Stmt.unmarkedIn (Stmt.visitIn visitor body s).1 = Stmt.unmarkedIn body

theorem visitsListed (visitor : Visitor σ) (body : List Stmt) (s : σ) : visitor.VisitsListed body s := by
  have hunchanged : Stmt.unmarkedIn (Stmt.visitIn visitor body s).1 = Stmt.unmarkedIn body :=
    Stmt.remarkIn_visitIn (fun _ _ => rfl) body s
  constructor
  · have hlogged := congrArg Prod.snd (visitIn_eq_mapM visitor.logged body (s, []))
    have hplain := congrArg Prod.snd (visitIn_eq_mapM visitor body s)
    rw [mapM_logged, List.nil_append, ← hplain] at hlogged
    exact hlogged
  · exact visitIn_eq_mapM visitor body s
  · have hcalls := congrArg Stmt.callsIn hunchanged
    unfold Stmt.unmarkedIn at hcalls
    rw [Stmt.callsIn_remarkIn, Stmt.callsIn_remarkIn] at hcalls
    exact hcalls
  · exact hunchanged

end Visitor

/-! ## What the test asks about -/

/-- Whether a statement defines a function or a class. -/
def Stmt.isDefinition : Stmt → Bool
  | .function _ | .classDef _ => true
  | _ => false

/-- The decorators of a definition, and the bases of a class. -/
def Stmt.decoration : Stmt → List Expr
  | .function d => d.decorators
  | .classDef d => d.decorators ++ d.bases
  | _ => []

/-- The body of a definition. -/
def Stmt.suite : Stmt → List Stmt
  | .function d => d.body
  | .classDef d => d.body
  | _ => []

/-- A statement is another one or lies in its blocks, at any depth. -/
inductive Stmt.Contains : Stmt → Stmt → Prop
  | refl (s : Stmt) : s.Contains s
  | block {s t u : Stmt} {b : List Stmt} (hb : b ∈ s.blocks) (ht : t ∈ b) (hu : t.Contains u) :
      s.Contains u

/-- A call is under a statement: it is listed, or it is in a definition that the statement contains, in its
    decoration or under its body. -/
inductive Stmt.Holds (c : Call) : Stmt → Prop
  | listed {s : Stmt} (h : c ∈ Stmt.callsIn [s]) : s.Holds c
  | decoration {s d : Stmt} (hd : s.Contains d) (h : c ∈ Expr.callsIn d.decoration) : s.Holds c
  | suite {s d t : Stmt} (hd : s.Contains d) (ht : t ∈ d.suite) (h : t.Holds c) : s.Holds c

/-! ### Blocks -/

theorem Handler.callsIn_body_subset {h : Handler} {hs : List Handler} (hmem : h ∈ hs) :
    Stmt.callsIn h.body ⊆ Handler.callsIn hs := by
  intro c hc
  obtain ⟨types, body, line⟩ := h
  rw [Handler.callsIn_eq_flatMap]
  exact List.mem_flatMap.mpr ⟨_, hmem, List.mem_append_right _ hc⟩

theorem MatchCase.callsIn_body_subset {m : MatchCase} {ms : List MatchCase} (hmem : m ∈ ms) :
    Stmt.callsIn m.body ⊆ MatchCase.callsIn ms := by
  intro c hc
  obtain ⟨pattern, guard, body⟩ := m
  rw [MatchCase.callsIn_eq_flatMap]
  exact List.mem_flatMap.mpr ⟨_, hmem, List.mem_append_right _ hc⟩

/-- The calls of a block are listed with those of its statement. -/
theorem Stmt.callsIn_subset_of_block {s : Stmt} {b : List Stmt} (hb : b ∈ s.blocks) :
    Stmt.callsIn b ⊆ s.calls := by
  intro c hc
  cases s with
  | cond test body orelse line | whileLoop test body orelse line
  | forLoop target iter body orelse isAsync line =>
    simp only [Stmt.blocks, List.mem_cons, List.not_mem_nil, or_false] at hb
    rcases hb with rfl | rfl <;> simp [Stmt.calls, hc]
  | withBlock items body isAsync line =>
    obtain rfl := List.mem_singleton.mp hb
    exact List.mem_append_right _ hc
  | tryBlock body handlers orelse finalbody line =>
    simp only [Stmt.blocks, List.cons_append, List.mem_cons, List.mem_append, List.mem_map,
      List.not_mem_nil, or_false] at hb
    rcases hb with rfl | ⟨h, hmem, rfl⟩ | rfl | rfl
    · simp [Stmt.calls, hc]
    · simp [Stmt.calls, Handler.callsIn_body_subset hmem hc]
    · simp [Stmt.calls, hc]
    · simp [Stmt.calls, hc]
  | matchBlock subject cases line =>
    obtain ⟨m, hmem, rfl⟩ := List.mem_map.mp hb
    exact List.mem_append_right _ (MatchCase.callsIn_body_subset hmem hc)
  | _ => exact absurd hb List.not_mem_nil

/-- What a statement of a block holds, the statement with the block holds. -/
theorem Stmt.Holds.of_block {c : Call} {s t : Stmt} {b : List Stmt} (hb : b ∈ s.blocks) (ht : t ∈ b)
    (h : t.Holds c) : s.Holds c := by
  cases h with
  | listed h =>
    apply Stmt.Holds.listed
    rw [Stmt.callsIn_singleton] at h ⊢
    exact Stmt.callsIn_subset_of_block hb (Stmt.calls_subset_callsIn ht h)
  | decoration hd h => exact .decoration (.block hb ht hd) h
  | suite hd hu h => exact .suite (.block hb ht hd) hu h

/-! ### The test asks about the calls that a statement holds -/

mutual

/-- A call that the test asks about is held. -/
theorem Stmt.holds_of_mem_deepCalls {c : Call} : ∀ s : Stmt, c ∈ s.deepCalls → s.Holds c
  | .function d, hc => FunctionDef.holds_of_mem_deepCalls d hc
  | .classDef d, hc => ClassDef.holds_of_mem_deepCalls d hc
  | .cond test body orelse line, hc | .whileLoop test body orelse line, hc => by
    rcases List.mem_append.mp hc with hc | hc
    · exact .listed (by simp [Stmt.callsIn, Stmt.calls, hc])
    rcases List.mem_append.mp hc with hc | hc
    · obtain ⟨t, ht, hold⟩ := Stmt.exists_holds_of_mem body hc
      exact .of_block List.mem_cons_self ht hold
    · obtain ⟨t, ht, hold⟩ := Stmt.exists_holds_of_mem orelse hc
      exact .of_block (List.mem_cons_of_mem _ List.mem_cons_self) ht hold
  | .forLoop target iter body orelse isAsync line, hc => by
    rcases List.mem_append.mp hc with hc | hc
    · exact .listed (by simp [Stmt.callsIn, Stmt.calls, hc])
    rcases List.mem_append.mp hc with hc | hc
    · exact .listed (by simp [Stmt.callsIn, Stmt.calls, hc])
    rcases List.mem_append.mp hc with hc | hc
    · obtain ⟨t, ht, hold⟩ := Stmt.exists_holds_of_mem body hc
      exact .of_block List.mem_cons_self ht hold
    · obtain ⟨t, ht, hold⟩ := Stmt.exists_holds_of_mem orelse hc
      exact .of_block (List.mem_cons_of_mem _ List.mem_cons_self) ht hold
  | .withBlock items body isAsync line, hc => by
    rcases List.mem_append.mp hc with hc | hc
    · exact .listed (by simp [Stmt.callsIn, Stmt.calls, hc])
    · obtain ⟨t, ht, hold⟩ := Stmt.exists_holds_of_mem body hc
      exact .of_block List.mem_cons_self ht hold
  | .tryBlock body handlers orelse finalbody line, hc => by
    have hlast : ∀ b ∈ [orelse, finalbody],
        b ∈ (Stmt.tryBlock body handlers orelse finalbody line).blocks := by
      intro b hb
      exact List.mem_append_right _ hb
    rcases List.mem_append.mp hc with hc | hc
    · obtain ⟨t, ht, hold⟩ := Stmt.exists_holds_of_mem body hc
      exact .of_block List.mem_cons_self ht hold
    rcases List.mem_append.mp hc with hc | hc
    · rcases Handler.holds_of_mem_deepCallsIn handlers hc with hc | ⟨h, hmem, t, ht, hold⟩
      · exact .listed (by simp [Stmt.callsIn, Stmt.calls, hc])
      · have hb : h.body ∈ (Stmt.tryBlock body handlers orelse finalbody line).blocks :=
          List.mem_append_left _ (List.mem_cons_of_mem _ (List.mem_map_of_mem hmem))
        exact .of_block hb ht hold
    rcases List.mem_append.mp hc with hc | hc
    · obtain ⟨t, ht, hold⟩ := Stmt.exists_holds_of_mem orelse hc
      exact .of_block (hlast _ List.mem_cons_self) ht hold
    · obtain ⟨t, ht, hold⟩ := Stmt.exists_holds_of_mem finalbody hc
      exact .of_block (hlast _ (List.mem_cons_of_mem _ List.mem_cons_self)) ht hold
  | .matchBlock subject cases line, hc => by
    rcases List.mem_append.mp hc with hc | hc
    · exact .listed (by simp [Stmt.callsIn, Stmt.calls, hc])
    rcases MatchCase.holds_of_mem_deepCallsIn cases hc with hc | ⟨m, hmem, t, ht, hold⟩
    · exact .listed (by simp [Stmt.callsIn, Stmt.calls, hc])
    · exact .of_block (List.mem_map_of_mem hmem) ht hold
  | .expr _ _, hc | .assign _ _ _ _, hc | .ret _ _, hc | .raise _ _, hc | .delete _ _, hc
  | .other _ _ _, hc => .listed (List.mem_append_left _ hc)
  | .pass _, hc | .breakLoop _, hc | .continueLoop _, hc | .imports _ _, hc
  | .importFrom _ _ _ _, hc => absurd hc List.not_mem_nil

theorem FunctionDef.holds_of_mem_deepCalls {c : Call} : ∀ d : FunctionDef,
    c ∈ d.deepCalls → (Stmt.function d).Holds c
  | ⟨_, _, decorators, body, _, _⟩, hc => by
    rcases List.mem_append.mp hc with hc | hc
    · exact .decoration (.refl _) hc
    · obtain ⟨t, ht, hold⟩ := Stmt.exists_holds_of_mem body hc
      exact .suite (.refl _) ht hold

theorem ClassDef.holds_of_mem_deepCalls {c : Call} : ∀ d : ClassDef,
    c ∈ d.deepCalls → (Stmt.classDef d).Holds c
  | ⟨_, bases, decorators, body, _⟩, hc => by
    have hdecoration : c ∈ Expr.callsIn (decorators ++ bases) ∨ c ∈ Stmt.deepCallsIn body := by
      rw [Expr.callsIn_append, ← List.mem_append, List.append_assoc]
      exact hc
    rcases hdecoration with hc | hc
    · exact .decoration (.refl _) hc
    · obtain ⟨t, ht, hold⟩ := Stmt.exists_holds_of_mem body hc
      exact .suite (.refl _) ht hold

theorem Stmt.exists_holds_of_mem {c : Call} : ∀ ss : List Stmt,
    c ∈ Stmt.deepCallsIn ss → ∃ t ∈ ss, t.Holds c
  | [], hc => absurd hc List.not_mem_nil
  | s :: ss, hc => by
    rcases List.mem_append.mp hc with hc | hc
    · exact ⟨s, List.mem_cons_self, Stmt.holds_of_mem_deepCalls s hc⟩
    · obtain ⟨t, ht, hold⟩ := Stmt.exists_holds_of_mem ss hc
      exact ⟨t, List.mem_cons_of_mem s ht, hold⟩

/-- A call of `except` clauses is one of theirs, or a statement in one of their blocks holds it. -/
theorem Handler.holds_of_mem_deepCallsIn {c : Call} : ∀ hs : List Handler,
    c ∈ Handler.deepCallsIn hs → c ∈ Handler.callsIn hs ∨ ∃ h ∈ hs, ∃ t ∈ h.body, t.Holds c
  | [], hc => absurd hc List.not_mem_nil
  | h :: hs, hc => by
    rcases List.mem_append.mp hc with hc | hc
    · rcases Handler.holds_of_mem_deepCalls h hc with hc | hold
      · exact .inl (List.mem_append_left _ hc)
      · exact .inr ⟨h, List.mem_cons_self, hold⟩
    · rcases Handler.holds_of_mem_deepCallsIn hs hc with hc | ⟨h', hmem, hold⟩
      · exact .inl (List.mem_append_right _ hc)
      · exact .inr ⟨h', List.mem_cons_of_mem h hmem, hold⟩

theorem Handler.holds_of_mem_deepCalls {c : Call} : ∀ h : Handler,
    c ∈ h.deepCalls → c ∈ h.calls ∨ ∃ t ∈ h.body, t.Holds c
  | ⟨_, body, _⟩, hc => by
    rcases List.mem_append.mp hc with hc | hc
    · exact .inl (List.mem_append_left _ hc)
    · exact .inr (Stmt.exists_holds_of_mem body hc)

/-- A call of `case` clauses is one of theirs, or a statement in one of their blocks holds it. -/
theorem MatchCase.holds_of_mem_deepCallsIn {c : Call} : ∀ ms : List MatchCase,
    c ∈ MatchCase.deepCallsIn ms → c ∈ MatchCase.callsIn ms ∨ ∃ m ∈ ms, ∃ t ∈ m.body, t.Holds c
  | [], hc => absurd hc List.not_mem_nil
  | m :: ms, hc => by
    rcases List.mem_append.mp hc with hc | hc
    · rcases MatchCase.holds_of_mem_deepCalls m hc with hc | hold
      · exact .inl (List.mem_append_left _ hc)
      · exact .inr ⟨m, List.mem_cons_self, hold⟩
    · rcases MatchCase.holds_of_mem_deepCallsIn ms hc with hc | ⟨m', hmem, hold⟩
      · exact .inl (List.mem_append_right _ hc)
      · exact .inr ⟨m', List.mem_cons_of_mem m hmem, hold⟩

theorem MatchCase.holds_of_mem_deepCalls {c : Call} : ∀ m : MatchCase,
    c ∈ m.deepCalls → c ∈ m.calls ∨ ∃ t ∈ m.body, t.Holds c
  | ⟨_, _, body⟩, hc => by
    rcases List.mem_append.mp hc with hc | hc
    · exact .inl (List.mem_append_left _ hc)
    · exact .inr (Stmt.exists_holds_of_mem body hc)

end

theorem Stmt.deepCalls_subset_deepCallsIn {t : Stmt} {ss : List Stmt} (ht : t ∈ ss) :
    t.deepCalls ⊆ Stmt.deepCallsIn ss := by
  intro c hc
  rw [Stmt.deepCallsIn_eq_flatMap]
  exact List.mem_flatMap.mpr ⟨t, ht, hc⟩

theorem Handler.deepCallsIn_body_subset {h : Handler} {hs : List Handler} (hmem : h ∈ hs) :
    Stmt.deepCallsIn h.body ⊆ Handler.deepCallsIn hs := by
  intro c hc
  obtain ⟨types, body, line⟩ := h
  rw [Handler.deepCallsIn_eq_flatMap]
  exact List.mem_flatMap.mpr ⟨_, hmem, List.mem_append_right _ hc⟩

theorem MatchCase.deepCallsIn_body_subset {m : MatchCase} {ms : List MatchCase} (hmem : m ∈ ms) :
    Stmt.deepCallsIn m.body ⊆ MatchCase.deepCallsIn ms := by
  intro c hc
  obtain ⟨pattern, guard, body⟩ := m
  rw [MatchCase.deepCallsIn_eq_flatMap]
  exact List.mem_flatMap.mpr ⟨_, hmem, List.mem_append_right _ hc⟩

/-- The test asks about the calls of every block. -/
theorem Stmt.deepCallsIn_subset_of_block {s : Stmt} {b : List Stmt} (hb : b ∈ s.blocks) :
    Stmt.deepCallsIn b ⊆ s.deepCalls := by
  intro c hc
  cases s with
  | cond test body orelse line | whileLoop test body orelse line
  | forLoop target iter body orelse isAsync line =>
    simp only [Stmt.blocks, List.mem_cons, List.not_mem_nil, or_false] at hb
    rcases hb with rfl | rfl <;> simp [Stmt.deepCalls, hc]
  | withBlock items body isAsync line =>
    obtain rfl := List.mem_singleton.mp hb
    exact List.mem_append_right _ hc
  | tryBlock body handlers orelse finalbody line =>
    simp only [Stmt.blocks, List.cons_append, List.mem_cons, List.mem_append, List.mem_map,
      List.not_mem_nil, or_false] at hb
    rcases hb with rfl | ⟨h, hmem, rfl⟩ | rfl | rfl
    · simp [Stmt.deepCalls, hc]
    · simp [Stmt.deepCalls, Handler.deepCallsIn_body_subset hmem hc]
    · simp [Stmt.deepCalls, hc]
    · simp [Stmt.deepCalls, hc]
  | matchBlock subject cases line =>
    obtain ⟨m, hmem, rfl⟩ := List.mem_map.mp hb
    exact List.mem_append_right _ (MatchCase.deepCallsIn_body_subset hmem hc)
  | _ => exact absurd hb List.not_mem_nil

/-- The test asks about the calls of every statement that it contains. -/
theorem Stmt.Contains.deepCalls_subset {s d : Stmt} (h : s.Contains d) : d.deepCalls ⊆ s.deepCalls := by
  induction h with
  | refl s => exact List.Subset.refl _
  | block hb ht _ ih =>
    intro c hc
    apply Stmt.deepCallsIn_subset_of_block hb
    exact Stmt.deepCalls_subset_deepCallsIn ht (ih hc)

/-- The test asks about the calls of a definition. -/
theorem Stmt.mem_deepCalls_of_parts {c : Call} {d : Stmt}
    (h : c ∈ Expr.callsIn d.decoration ∨ c ∈ Stmt.deepCallsIn d.suite) : c ∈ d.deepCalls := by
  cases d with
  | function definition =>
    obtain ⟨name, params, decorators, body, isAsync, line⟩ := definition
    exact List.mem_append.mpr h
  | classDef definition =>
    obtain ⟨name, bases, decorators, body, line⟩ := definition
    show c ∈ Expr.callsIn decorators ++ (Expr.callsIn bases ++ Stmt.deepCallsIn body)
    rw [← List.append_assoc, ← Expr.callsIn_append]
    exact List.mem_append.mpr h
  | _ => exact absurd h (by simp [Stmt.decoration, Stmt.suite, Expr.callsIn, Stmt.deepCallsIn])

/-- A call that is held is one that the test asks about. -/
theorem Stmt.Holds.mem_deepCalls {c : Call} {s : Stmt} (h : s.Holds c) : c ∈ s.deepCalls := by
  induction h with
  | listed h =>
    rw [Stmt.callsIn_singleton] at h
    exact (Stmt.calls_sublist_deepCalls _).subset h
  | decoration hd h => exact hd.deepCalls_subset (Stmt.mem_deepCalls_of_parts (.inl h))
  | suite hd ht _ ih =>
    apply hd.deepCalls_subset
    apply Stmt.mem_deepCalls_of_parts
    exact .inr (Stmt.deepCalls_subset_deepCallsIn ht ih)

/-- The test asks whether a call that the statement holds satisfies the predicate. -/
theorem Stmt.hasCall_iff_holds (p : Call → Bool) (s : Stmt) :
    s.hasCall p = true ↔ ∃ c, s.Holds c ∧ p c = true := by
  rw [Stmt.hasCall_eq_any, List.any_eq_true]
  constructor
  · rintro ⟨c, hc, hp⟩
    exact ⟨c, Stmt.holds_of_mem_deepCalls s hc, hp⟩
  · rintro ⟨c, hold, hp⟩
    exact ⟨c, hold.mem_deepCalls, hp⟩

/-- Without definitions a statement holds no more than is listed. -/
theorem Stmt.holds_iff_listed {s : Stmt} (h : ∀ d, s.Contains d → d.isDefinition = false) (c : Call) :
    s.Holds c ↔ c ∈ Stmt.callsIn [s] := by
  -- what is no definition has neither decoration nor body
  have hparts : ∀ d, s.Contains d → d.decoration = [] ∧ d.suite = [] := by
    intro d hd
    have hnot := h d hd
    cases d with
    | function _ | classDef _ => exact absurd hnot (by simp [Stmt.isDefinition])
    | _ => exact ⟨rfl, rfl⟩
  constructor
  · intro hold
    cases hold with
    | listed h => exact h
    | decoration hd hc =>
      rw [(hparts _ hd).1] at hc
      exact absurd hc List.not_mem_nil
    | suite hd ht _ =>
      rw [(hparts _ hd).2] at ht
      exact absurd ht List.not_mem_nil
  · exact .listed

/-! ## The traversals agree -/

/-- **The traversals agree.** A visitor is handed the calls that are listed, and it changes nothing but their
    marks; the test asks about the calls that are listed and about those in definitions. Without definitions
    these are the listed ones. -/
theorem Stmt.traversals_agree {σ : Type} (visitor : Visitor σ) (body : List Stmt) (s : σ)
    (p : Call → Bool) (stmt : Stmt) :
    visitor.VisitsListed body s ∧
    (stmt.hasCall p = true ↔ ∃ c, stmt.Holds c ∧ p c = true) ∧
    ((∀ d, stmt.Contains d → d.isDefinition = false) →
      (stmt.hasCall p = true ↔ ∃ c ∈ Stmt.callsIn [stmt], p c = true)) := by
  refine ⟨visitor.visitsListed body s, Stmt.hasCall_iff_holds p stmt, ?_⟩
  intro hplain
  rw [Stmt.hasCall_iff_holds]
  apply exists_congr
  intro c
  rw [Stmt.holds_iff_listed hplain c]

/-- A loop over the items of a cart, with a call inside another one. -/
def cartLoop : Stmt :=
  .forLoop (.name "item") (.call ⟨.name "items", [], [], 1, none⟩)
    [.expr (.call ⟨.name "add", [.call ⟨.attribute (.name "item") "copy", [], [], 2, none⟩], [], 2, none⟩) 2]
    [] false 1

/-- A visitor that numbers the calls finds three of them in the loop, and the loop calls `add`. -/
theorem cartLoop_traversals_agree :
    Visitor.VisitsListed (fun _ n => (⟨n, none⟩, n + 1)) [cartLoop] 1 ∧
    (Stmt.callsIn [cartLoop]).length = 3 ∧
    cartLoop.hasCall (fun c => c.func.targetName? = some "add") = true ∧
    ∃ c ∈ Stmt.callsIn [cartLoop], c.func.targetName? = some "add" := by
  have hplain : ∀ d, cartLoop.Contains d → d.isDefinition = false := by
    rintro d (_ | ⟨hb, ht, hd⟩)
    · rfl
    · simp only [cartLoop, Stmt.blocks, List.mem_cons, List.not_mem_nil, or_false] at hb
      rcases hb with rfl | rfl
      · obtain rfl := List.mem_singleton.mp ht
        rcases hd with _ | ⟨hb, -, -⟩
        · rfl
        · exact absurd hb List.not_mem_nil
      · exact absurd ht List.not_mem_nil
  have h := Stmt.traversals_agree (fun _ n => (⟨n, none⟩, n + 1)) [cartLoop] 1
    (fun c => c.func.targetName? = some "add") cartLoop
  have hcalls : cartLoop.hasCall (fun c => c.func.targetName? = some "add") = true := rfl
  refine ⟨h.1, rfl, hcalls, ?_⟩
  simpa using (h.2.2 hplain).mp hcalls

end ServiceTrace
