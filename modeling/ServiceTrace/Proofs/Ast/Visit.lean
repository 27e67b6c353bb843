import ServiceTrace.Ast.Calls

/-!
# `ServiceTrace.Proofs.Ast.Visit` — what a visit changes, and what it leaves alone

A visitor sees calls and answers with marks. Two facts pin a visit down, whatever the visitor does with
its state:

* `Stmt.marks_visitIn` — the visitor meets exactly the calls that `Stmt.callsIn` lists, in that order,
  and its answers are the marks that the listed calls carry afterwards;
* `Stmt.remarkIn_visitIn` — apart from marks the body is the same as before.

The second fact needs a way to forget marks. `Stmt.remarkIn f` replaces the marks of every call of a body
by what `f` makes of them; with a constant `f` it forgets them altogether.

Both are proved by recursion on the syntax, one equation for each constructor. The first one is an
equation between actions, so that the monad laws carry it through every sequence of sub-visits.
-/

namespace ServiceTrace

/-! ## Replacing marks -/

/-- The marks of a call. -/
def Call.marks (c : Call) : CallMarks := ⟨c.line, c.route⟩

mutual

/-- An expression with the marks of its calls replaced. -/
def Expr.remark (f : CallMarks → CallMarks) : Expr → Expr
  | .name id => .name id
  | .attribute value attr => .attribute (value.remark f) attr
  | .call c => .call (c.remark f)
  | .str value => .str value
  | .constant text => .constant text
  | .joined parts => .joined (Expr.remarkIn f parts)
  | .formatted value => .formatted (value.remark f)
  | .binary left op right => .binary (left.remark f) op (right.remark f)
  | .other kind children => .other kind (Expr.remarkIn f children)

/-- A call with its marks and those of the calls inside it replaced. -/
def Call.remark (f : CallMarks → CallMarks) : Call → Call
  | ⟨func, args, keywords, line, route⟩ =>
    ⟨func.remark f, Expr.remarkIn f args, Keyword.remarkIn f keywords,
      (f ⟨line, route⟩).line, (f ⟨line, route⟩).route⟩

/-- Expressions with the marks of their calls replaced. -/
def Expr.remarkIn (f : CallMarks → CallMarks) : List Expr → List Expr
  | [] => []
  | e :: es => e.remark f :: Expr.remarkIn f es

/-- Keyword arguments with the marks of their calls replaced. -/
def Keyword.remarkIn (f : CallMarks → CallMarks) : List Keyword → List Keyword
  | [] => []
  | k :: ks => k.remark f :: Keyword.remarkIn f ks

/-- A keyword argument with the marks of its calls replaced. -/
def Keyword.remark (f : CallMarks → CallMarks) : Keyword → Keyword
  | ⟨name, value⟩ => ⟨name, value.remark f⟩

end

/-- An expression that may be missing, with the marks of its calls replaced. -/
def Expr.remarkIn? (f : CallMarks → CallMarks) : Option Expr → Option Expr
  | none => none
  | some e => some (e.remark f)

mutual

/-- A statement with the marks of its calls replaced. Definitions are left as they are. -/
def Stmt.remark (f : CallMarks → CallMarks) : Stmt → Stmt
  | .expr value line => .expr (value.remark f) line
  | .assign targets op value line =>
    .assign (Expr.remarkIn f targets) op (Expr.remarkIn? f value) line
  | .cond test body orelse line =>
    .cond (test.remark f) (Stmt.remarkIn f body) (Stmt.remarkIn f orelse) line
  | .forLoop target iter body orelse isAsync line =>
    .forLoop (target.remark f) (iter.remark f) (Stmt.remarkIn f body) (Stmt.remarkIn f orelse)
      isAsync line
  | .whileLoop test body orelse line =>
    .whileLoop (test.remark f) (Stmt.remarkIn f body) (Stmt.remarkIn f orelse) line
  | .withBlock items body isAsync line =>
    .withBlock (Expr.remarkIn f items) (Stmt.remarkIn f body) isAsync line
  | .tryBlock body handlers orelse finalbody line =>
    .tryBlock (Stmt.remarkIn f body) (Handler.remarkIn f handlers) (Stmt.remarkIn f orelse)
      (Stmt.remarkIn f finalbody) line
  | .matchBlock subject cases line =>
    .matchBlock (Expr.remarkIn f subject) (MatchCase.remarkIn f cases) line
  | .ret value line => .ret (Expr.remarkIn? f value) line
  | .raise exprs line => .raise (Expr.remarkIn f exprs) line
  | .delete targets line => .delete (Expr.remarkIn f targets) line
  | .other kind exprs line => .other kind (Expr.remarkIn f exprs) line
  | .function definition => .function definition
  | .classDef definition => .classDef definition
  | .pass line => .pass line
  | .breakLoop line => .breakLoop line
  | .continueLoop line => .continueLoop line
  | .imports names line => .imports names line
  | .importFrom module names wildcard line => .importFrom module names wildcard line

/-- A body with the marks of its calls replaced. -/
def Stmt.remarkIn (f : CallMarks → CallMarks) : List Stmt → List Stmt
  | [] => []
  | s :: ss => s.remark f :: Stmt.remarkIn f ss

/-- `except` clauses with the marks of their calls replaced. -/
def Handler.remarkIn (f : CallMarks → CallMarks) : List Handler → List Handler
  | [] => []
  | h :: hs => h.remark f :: Handler.remarkIn f hs

/-- An `except` clause with the marks of its calls replaced. -/
def Handler.remark (f : CallMarks → CallMarks) : Handler → Handler
  | ⟨types, body, line⟩ => ⟨Expr.remarkIn f types, Stmt.remarkIn f body, line⟩

/-- `case` clauses with the marks of their calls replaced. -/
def MatchCase.remarkIn (f : CallMarks → CallMarks) : List MatchCase → List MatchCase
  | [] => []
  | c :: cs => c.remark f :: MatchCase.remarkIn f cs

/-- A `case` clause with the marks of its calls replaced. -/
def MatchCase.remark (f : CallMarks → CallMarks) : MatchCase → MatchCase
  | ⟨pattern, guard, body⟩ => ⟨pattern, Expr.remarkIn? f guard, Stmt.remarkIn f body⟩

end

/-! ## The visitor meets the listed calls -/

section Marks

variable {σ : Type} (visitor : Visitor σ)

mutual

/-- Visiting an expression asks the visitor about its calls in the order they are listed. -/
theorem Expr.marks_visit : ∀ e : Expr,
    (fun e => e.calls.map Call.marks) <$> e.visit visitor = e.calls.mapM visitor
  | .name _ | .str _ | .constant _ => by simp [Expr.visit, Expr.calls]
  | .attribute value _ => by simp [Expr.visit, Expr.calls, ← Expr.marks_visit value]
  | .call c => by
    have h := Call.marks_visit c
    simp only [map_eq_pure_bind] at h
    simp only [Expr.visit, Expr.calls, map_eq_pure_bind, bind_assoc, pure_bind]
    exact h
  | .joined parts => by simp [Expr.visit, Expr.calls, ← Expr.marks_visitIn parts]
  | .formatted value => by simp [Expr.visit, Expr.calls, ← Expr.marks_visit value]
  | .binary left _ right => by
    simp [Expr.visit, Expr.calls, List.mapM_append, ← Expr.marks_visit left,
      ← Expr.marks_visit right]
  | .other _ children => by simp [Expr.visit, Expr.calls, ← Expr.marks_visitIn children]

/-- Visiting a call asks the visitor about the call itself and then about the calls inside it. -/
theorem Call.marks_visit : ∀ c : Call,
    (fun c => (c :: c.innerCalls).map Call.marks) <$> c.visit visitor =
      (c :: c.innerCalls).mapM visitor
  | ⟨func, args, keywords, line, route⟩ => by
    simp [Call.visit, Call.innerCalls, Call.marks, List.mapM_append, ← Expr.marks_visit func,
      ← Expr.marks_visitIn args, ← Keyword.marks_visitIn keywords]

theorem Expr.marks_visitIn : ∀ es : List Expr,
    (fun es => (Expr.callsIn es).map Call.marks) <$> Expr.visitIn visitor es =
      (Expr.callsIn es).mapM visitor
  | [] => by simp [Expr.visitIn, Expr.callsIn]
  | e :: es => by
    simp [Expr.visitIn, Expr.callsIn, List.mapM_append, ← Expr.marks_visit e,
      ← Expr.marks_visitIn es]

theorem Keyword.marks_visitIn : ∀ ks : List Keyword,
    (fun ks => (Keyword.callsIn ks).map Call.marks) <$> Keyword.visitIn visitor ks =
      (Keyword.callsIn ks).mapM visitor
  | [] => by simp [Keyword.visitIn, Keyword.callsIn]
  | k :: ks => by
    simp [Keyword.visitIn, Keyword.callsIn, List.mapM_append, ← Keyword.marks_visit k,
      ← Keyword.marks_visitIn ks]

theorem Keyword.marks_visit : ∀ k : Keyword,
    (fun k => k.calls.map Call.marks) <$> k.visit visitor = k.calls.mapM visitor
  | ⟨_, value⟩ => by simp [Keyword.visit, Keyword.calls, ← Expr.marks_visit value]

end

theorem Expr.marks_visitIn? (e : Option Expr) :
    (fun e => (Expr.callsIn? e).map Call.marks) <$> Expr.visitIn? visitor e =
      (Expr.callsIn? e).mapM visitor := by
  cases e with
  | none => simp [Expr.visitIn?, Expr.callsIn?]
  | some e => simp [Expr.visitIn?, Expr.callsIn?, ← Expr.marks_visit visitor e]

mutual

/-- Visiting a statement asks the visitor about its calls in the order they are listed. -/
theorem Stmt.marks_visit : ∀ s : Stmt,
    (fun s => s.calls.map Call.marks) <$> s.visit visitor = s.calls.mapM visitor
  | .expr value _ => by simp [Stmt.visit, Stmt.calls, ← Expr.marks_visit visitor value]
  | .assign targets _ value _ => by
    simp [Stmt.visit, Stmt.calls, List.mapM_append, ← Expr.marks_visitIn? visitor value,
      ← Expr.marks_visitIn visitor targets]
  | .cond test body orelse _ => by
    simp [Stmt.visit, Stmt.calls, List.mapM_append, ← Expr.marks_visit visitor test,
      ← Stmt.marks_visitIn body, ← Stmt.marks_visitIn orelse]
  | .forLoop target iter body orelse _ _ => by
    simp [Stmt.visit, Stmt.calls, List.mapM_append, ← Expr.marks_visit visitor iter,
      ← Expr.marks_visit visitor target, ← Stmt.marks_visitIn body, ← Stmt.marks_visitIn orelse]
  | .whileLoop test body orelse _ => by
    simp [Stmt.visit, Stmt.calls, List.mapM_append, ← Expr.marks_visit visitor test,
      ← Stmt.marks_visitIn body, ← Stmt.marks_visitIn orelse]
  | .withBlock items body _ _ => by
    simp [Stmt.visit, Stmt.calls, List.mapM_append, ← Expr.marks_visitIn visitor items,
      ← Stmt.marks_visitIn body]
  | .tryBlock body handlers orelse finalbody _ => by
    simp [Stmt.visit, Stmt.calls, List.mapM_append, ← Stmt.marks_visitIn body,
      ← Handler.marks_visitIn handlers, ← Stmt.marks_visitIn orelse,
      ← Stmt.marks_visitIn finalbody]
  | .matchBlock subject cases _ => by
    simp [Stmt.visit, Stmt.calls, List.mapM_append, ← Expr.marks_visitIn visitor subject,
      ← MatchCase.marks_visitIn cases]
  | .ret value _ => by simp [Stmt.visit, Stmt.calls, ← Expr.marks_visitIn? visitor value]
  | .raise exprs _ => by simp [Stmt.visit, Stmt.calls, ← Expr.marks_visitIn visitor exprs]
  | .delete targets _ => by simp [Stmt.visit, Stmt.calls, ← Expr.marks_visitIn visitor targets]
  | .other _ exprs _ => by simp [Stmt.visit, Stmt.calls, ← Expr.marks_visitIn visitor exprs]
  | .function _ | .classDef _ | .pass _ | .breakLoop _ | .continueLoop _ | .imports _ _
  | .importFrom _ _ _ _ => by simp [Stmt.visit, Stmt.calls]

/-- Visiting a body asks the visitor about its calls in the order they are listed, and the answers
    are the marks of the listed calls afterwards. -/
theorem Stmt.marks_visitIn : ∀ ss : List Stmt,
    (fun ss => (Stmt.callsIn ss).map Call.marks) <$> Stmt.visitIn visitor ss =
      (Stmt.callsIn ss).mapM visitor
  | [] => by simp [Stmt.visitIn, Stmt.callsIn]
  | s :: ss => by
    simp [Stmt.visitIn, Stmt.callsIn, List.mapM_append, ← Stmt.marks_visit s,
      ← Stmt.marks_visitIn ss]

theorem Handler.marks_visitIn : ∀ hs : List Handler,
    (fun hs => (Handler.callsIn hs).map Call.marks) <$> Handler.visitIn visitor hs =
      (Handler.callsIn hs).mapM visitor
  | [] => by simp [Handler.visitIn, Handler.callsIn]
  | h :: hs => by
    simp [Handler.visitIn, Handler.callsIn, List.mapM_append, ← Handler.marks_visit h,
      ← Handler.marks_visitIn hs]

theorem Handler.marks_visit : ∀ h : Handler,
    (fun h => h.calls.map Call.marks) <$> h.visit visitor = h.calls.mapM visitor
  | ⟨types, body, _⟩ => by
    simp [Handler.visit, Handler.calls, List.mapM_append, ← Expr.marks_visitIn visitor types,
      ← Stmt.marks_visitIn body]

theorem MatchCase.marks_visitIn : ∀ cs : List MatchCase,
    (fun cs => (MatchCase.callsIn cs).map Call.marks) <$> MatchCase.visitIn visitor cs =
      (MatchCase.callsIn cs).mapM visitor
  | [] => by simp [MatchCase.visitIn, MatchCase.callsIn]
  | c :: cs => by
    simp [MatchCase.visitIn, MatchCase.callsIn, List.mapM_append, ← MatchCase.marks_visit c,
      ← MatchCase.marks_visitIn cs]

theorem MatchCase.marks_visit : ∀ c : MatchCase,
    (fun c => c.calls.map Call.marks) <$> c.visit visitor = c.calls.mapM visitor
  | ⟨_, guard, body⟩ => by
    simp [MatchCase.visit, MatchCase.calls, List.mapM_append, ← Expr.marks_visitIn? visitor guard,
      ← Stmt.marks_visitIn body]

end

end Marks

/-! ## Apart from marks, nothing changes -/

section Remark

-- the hypothesis on `f` is used by every theorem of a mutual block through the one on calls
set_option linter.unusedSectionVars false

variable {σ : Type} {visitor : Visitor σ} {f : CallMarks → CallMarks}

/-- The answer of two actions in sequence, from a given state. -/
theorem StateM.bind_fst {α β : Type} (m : StateM σ α) (k : α → StateM σ β) (s : σ) :
    ((m >>= k) s).1 = (k (m s).1 (m s).2).1 := rfl

theorem StateM.pure_fst {α : Type} (a : α) (s : σ) : ((pure a : StateM σ α) s).1 = a := rfl

variable (hf : ∀ c s, f (visitor c s).1 = f c.marks)

include hf

mutual

/-- Forgetting what a visitor answers forgets the visit. -/
theorem Expr.remark_visit : ∀ (e : Expr) (s : σ), ((e.visit visitor) s).1.remark f = e.remark f
  | .name _, _ | .str _, _ | .constant _, _ => rfl
  | .attribute value _, s => by
    simp only [Expr.visit, StateM.bind_fst, StateM.pure_fst, Expr.remark, Expr.remark_visit value]
  | .call c, s => by
    simp only [Expr.visit, StateM.bind_fst, StateM.pure_fst, Expr.remark, Call.remark_visit c]
  | .joined parts, s => by
    simp only [Expr.visit, StateM.bind_fst, StateM.pure_fst, Expr.remark, Expr.remarkIn_visitIn parts]
  | .formatted value, s => by
    simp only [Expr.visit, StateM.bind_fst, StateM.pure_fst, Expr.remark, Expr.remark_visit value]
  | .binary left _ right, s => by
    simp only [Expr.visit, StateM.bind_fst, StateM.pure_fst, Expr.remark, Expr.remark_visit left,
      Expr.remark_visit right]
  | .other _ children, s => by
    simp only [Expr.visit, StateM.bind_fst, StateM.pure_fst, Expr.remark,
      Expr.remarkIn_visitIn children]

theorem Call.remark_visit : ∀ (c : Call) (s : σ), ((c.visit visitor) s).1.remark f = c.remark f
  | ⟨func, args, keywords, line, route⟩, s => by
    have hmarks := hf ⟨func, args, keywords, line, route⟩ s
    simp only [Call.marks] at hmarks
    simp only [Call.visit, StateM.bind_fst, StateM.pure_fst, Call.remark, hmarks,
      Expr.remark_visit func, Expr.remarkIn_visitIn args, Keyword.remarkIn_visitIn keywords]

theorem Expr.remarkIn_visitIn : ∀ (es : List Expr) (s : σ),
    Expr.remarkIn f ((Expr.visitIn visitor es) s).1 = Expr.remarkIn f es
  | [], _ => rfl
  | e :: es, s => by
    simp only [Expr.visitIn, StateM.bind_fst, StateM.pure_fst, Expr.remarkIn, Expr.remark_visit e,
      Expr.remarkIn_visitIn es]

theorem Keyword.remarkIn_visitIn : ∀ (ks : List Keyword) (s : σ),
    Keyword.remarkIn f ((Keyword.visitIn visitor ks) s).1 = Keyword.remarkIn f ks
  | [], _ => rfl
  | k :: ks, s => by
    simp only [Keyword.visitIn, StateM.bind_fst, StateM.pure_fst, Keyword.remarkIn,
      Keyword.remark_visit k, Keyword.remarkIn_visitIn ks]

theorem Keyword.remark_visit : ∀ (k : Keyword) (s : σ),
    ((k.visit visitor) s).1.remark f = k.remark f
  | ⟨_, value⟩, s => by
    simp only [Keyword.visit, StateM.bind_fst, StateM.pure_fst, Keyword.remark,
      Expr.remark_visit value]

end

theorem Expr.remarkIn?_visitIn? (e : Option Expr) (s : σ) :
    Expr.remarkIn? f ((Expr.visitIn? visitor e) s).1 = Expr.remarkIn? f e := by
  cases e with
  | none => rfl
  | some e =>
    simp only [Expr.visitIn?, StateM.bind_fst, StateM.pure_fst, Expr.remarkIn?,
      Expr.remark_visit hf e]

mutual

theorem Stmt.remark_visit : ∀ (st : Stmt) (s : σ), ((st.visit visitor) s).1.remark f = st.remark f
  | .expr value _, s => by
    simp only [Stmt.visit, StateM.bind_fst, StateM.pure_fst, Stmt.remark, Expr.remark_visit hf value]
  | .assign targets _ value _, s => by
    simp only [Stmt.visit, StateM.bind_fst, StateM.pure_fst, Stmt.remark,
      Expr.remarkIn?_visitIn? hf value, Expr.remarkIn_visitIn hf targets]
  | .cond test body orelse _, s => by
    simp only [Stmt.visit, StateM.bind_fst, StateM.pure_fst, Stmt.remark, Expr.remark_visit hf test,
      Stmt.remarkIn_visitIn body, Stmt.remarkIn_visitIn orelse]
  | .forLoop target iter body orelse _ _, s => by
    simp only [Stmt.visit, StateM.bind_fst, StateM.pure_fst, Stmt.remark, Expr.remark_visit hf iter,
      Expr.remark_visit hf target, Stmt.remarkIn_visitIn body, Stmt.remarkIn_visitIn orelse]
  | .whileLoop test body orelse _, s => by
    simp only [Stmt.visit, StateM.bind_fst, StateM.pure_fst, Stmt.remark, Expr.remark_visit hf test,
      Stmt.remarkIn_visitIn body, Stmt.remarkIn_visitIn orelse]
  | .withBlock items body _ _, s => by
    simp only [Stmt.visit, StateM.bind_fst, StateM.pure_fst, Stmt.remark,
      Expr.remarkIn_visitIn hf items, Stmt.remarkIn_visitIn body]
  | .tryBlock body handlers orelse finalbody _, s => by
    simp only [Stmt.visit, StateM.bind_fst, StateM.pure_fst, Stmt.remark, Stmt.remarkIn_visitIn body,
      Handler.remarkIn_visitIn handlers, Stmt.remarkIn_visitIn orelse,
      Stmt.remarkIn_visitIn finalbody]
  | .matchBlock subject cases _, s => by
    simp only [Stmt.visit, StateM.bind_fst, StateM.pure_fst, Stmt.remark,
      Expr.remarkIn_visitIn hf subject, MatchCase.remarkIn_visitIn cases]
  | .ret value _, s => by
    simp only [Stmt.visit, StateM.bind_fst, StateM.pure_fst, Stmt.remark,
      Expr.remarkIn?_visitIn? hf value]
  | .raise exprs _, s => by
    simp only [Stmt.visit, StateM.bind_fst, StateM.pure_fst, Stmt.remark,
      Expr.remarkIn_visitIn hf exprs]
  | .delete targets _, s => by
    simp only [Stmt.visit, StateM.bind_fst, StateM.pure_fst, Stmt.remark,
      Expr.remarkIn_visitIn hf targets]
  | .other _ exprs _, s => by
    simp only [Stmt.visit, StateM.bind_fst, StateM.pure_fst, Stmt.remark,
      Expr.remarkIn_visitIn hf exprs]
  | .function _, _ | .classDef _, _ | .pass _, _ | .breakLoop _, _ | .continueLoop _, _
  | .imports _ _, _ | .importFrom _ _ _ _, _ => rfl

/-- When `f` forgets the difference between the marks that a call has and the visitor's answer, it
    forgets the whole visit: nothing but marks has changed. -/
theorem Stmt.remarkIn_visitIn : ∀ (ss : List Stmt) (s : σ),
    Stmt.remarkIn f ((Stmt.visitIn visitor ss) s).1 = Stmt.remarkIn f ss
  | [], _ => rfl
  | st :: ss, s => by
    simp only [Stmt.visitIn, StateM.bind_fst, StateM.pure_fst, Stmt.remarkIn, Stmt.remark_visit st,
      Stmt.remarkIn_visitIn ss]

theorem Handler.remarkIn_visitIn : ∀ (hs : List Handler) (s : σ),
    Handler.remarkIn f ((Handler.visitIn visitor hs) s).1 = Handler.remarkIn f hs
  | [], _ => rfl
  | h :: hs, s => by
    simp only [Handler.visitIn, StateM.bind_fst, StateM.pure_fst, Handler.remarkIn,
      Handler.remark_visit h, Handler.remarkIn_visitIn hs]

theorem Handler.remark_visit : ∀ (h : Handler) (s : σ),
    ((h.visit visitor) s).1.remark f = h.remark f
  | ⟨types, body, _⟩, s => by
    simp only [Handler.visit, StateM.bind_fst, StateM.pure_fst, Handler.remark,
      Expr.remarkIn_visitIn hf types, Stmt.remarkIn_visitIn body]

theorem MatchCase.remarkIn_visitIn : ∀ (cs : List MatchCase) (s : σ),
    MatchCase.remarkIn f ((MatchCase.visitIn visitor cs) s).1 = MatchCase.remarkIn f cs
  | [], _ => rfl
  | c :: cs, s => by
    simp only [MatchCase.visitIn, StateM.bind_fst, StateM.pure_fst, MatchCase.remarkIn,
      MatchCase.remark_visit c, MatchCase.remarkIn_visitIn cs]

theorem MatchCase.remark_visit : ∀ (c : MatchCase) (s : σ),
    ((c.visit visitor) s).1.remark f = c.remark f
  | ⟨_, guard, body⟩, s => by
    simp only [MatchCase.visit, StateM.bind_fst, StateM.pure_fst, MatchCase.remark,
      Expr.remarkIn?_visitIn? hf guard, Stmt.remarkIn_visitIn body]

end

end Remark

end ServiceTrace
