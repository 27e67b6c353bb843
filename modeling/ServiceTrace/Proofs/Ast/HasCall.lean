import ServiceTrace.Ast.Calls

/-!
# `ServiceTrace.Proofs.Ast.HasCall` — which calls the test asks about

`Stmt.hasCall` looks further than `Stmt.calls`: it goes into nested function and class definitions, into
their decorators and bases. `Stmt.deepCalls` lists the calls that it asks about.

* `Stmt.hasCall_eq_any` — the test is the question whether one of these calls satisfies the predicate;
* `Stmt.calls_sublist_deepCalls` — the calls of the statement are among them, in the same order.

What a caller needs follows from lists alone: a weaker predicate holds as well (`Stmt.hasCall_mono`), and
where the test fails no listed call satisfies the predicate (`Stmt.filter_calls_eq_nil`).
-/

namespace ServiceTrace

/-! ## The calls that the test asks about -/

mutual

/-- The calls under a statement, nested definitions with their decorators and bases included. -/
def Stmt.deepCalls : Stmt → List Call
  | .function d => d.deepCalls
  | .classDef d => d.deepCalls
  | .cond test body orelse _ => test.calls ++ (Stmt.deepCallsIn body ++ Stmt.deepCallsIn orelse)
  | .forLoop target iter body orelse _ _ =>
    iter.calls ++ (target.calls ++ (Stmt.deepCallsIn body ++ Stmt.deepCallsIn orelse))
  | .whileLoop test body orelse _ =>
    test.calls ++ (Stmt.deepCallsIn body ++ Stmt.deepCallsIn orelse)
  | .withBlock items body _ _ => Expr.callsIn items ++ Stmt.deepCallsIn body
  | .tryBlock body handlers orelse finalbody _ =>
    Stmt.deepCallsIn body ++ (Handler.deepCallsIn handlers ++
      (Stmt.deepCallsIn orelse ++ Stmt.deepCallsIn finalbody))
  | .matchBlock subject cases _ => Expr.callsIn subject ++ MatchCase.deepCallsIn cases
  | .expr value _ => value.calls
  | .assign targets _ value _ => Expr.callsIn? value ++ Expr.callsIn targets
  | .ret value _ => Expr.callsIn? value
  | .raise exprs _ | .delete exprs _ | .other _ exprs _ => Expr.callsIn exprs
  | .pass _ | .breakLoop _ | .continueLoop _ | .imports _ _ | .importFrom _ _ _ _ => []

/-- The calls in a function definition: its decorators, then its body. -/
def FunctionDef.deepCalls : FunctionDef → List Call
  | ⟨_, _, decorators, body, _, _⟩ => Expr.callsIn decorators ++ Stmt.deepCallsIn body

/-- The calls in a class definition: its decorators, its bases, then its body. -/
def ClassDef.deepCalls : ClassDef → List Call
  | ⟨_, bases, decorators, body, _⟩ =>
    Expr.callsIn decorators ++ (Expr.callsIn bases ++ Stmt.deepCallsIn body)

/-- The calls under the statements of a body. -/
def Stmt.deepCallsIn : List Stmt → List Call
  | [] => []
  | s :: ss => s.deepCalls ++ Stmt.deepCallsIn ss

/-- The calls under `except` clauses. -/
def Handler.deepCallsIn : List Handler → List Call
  | [] => []
  | h :: hs => h.deepCalls ++ Handler.deepCallsIn hs

/-- The calls under an `except` clause. -/
def Handler.deepCalls : Handler → List Call
  | ⟨types, body, _⟩ => Expr.callsIn types ++ Stmt.deepCallsIn body

/-- The calls under `case` clauses. -/
def MatchCase.deepCallsIn : List MatchCase → List Call
  | [] => []
  | c :: cs => c.deepCalls ++ MatchCase.deepCallsIn cs

/-- The calls under a `case` clause. -/
def MatchCase.deepCalls : MatchCase → List Call
  | ⟨_, guard, body⟩ => Expr.callsIn? guard ++ Stmt.deepCallsIn body

end

theorem Stmt.deepCallsIn_eq_flatMap (ss : List Stmt) :
    Stmt.deepCallsIn ss = ss.flatMap Stmt.deepCalls := by
  induction ss with
  | nil => rfl
  | cons s ss ih => rw [Stmt.deepCallsIn, ih, List.flatMap_cons]

theorem Handler.deepCallsIn_eq_flatMap (hs : List Handler) :
    Handler.deepCallsIn hs = hs.flatMap Handler.deepCalls := by
  induction hs with
  | nil => rfl
  | cons h hs ih => rw [Handler.deepCallsIn, ih, List.flatMap_cons]

theorem MatchCase.deepCallsIn_eq_flatMap (cs : List MatchCase) :
    MatchCase.deepCallsIn cs = cs.flatMap MatchCase.deepCalls := by
  induction cs with
  | nil => rfl
  | cons c cs ih => rw [MatchCase.deepCallsIn, ih, List.flatMap_cons]

/-! ## The test is about these calls -/

section Test

variable (p : Call → Bool)

/-- The test of several expressions asks about all calls in them. -/
theorem Expr.any_hasCall (es : List Expr) :
    es.any (·.hasCall p) = (Expr.callsIn es).any p := by
  induction es with
  | nil => rfl
  | cons e es ih =>
    rw [List.any_cons, Expr.callsIn, List.any_append, ih]
    rfl

theorem Expr.any_hasCall? (e : Option Expr) : e.any (·.hasCall p) = (Expr.callsIn? e).any p := by
  cases e <;> rfl

mutual

/-- A statement passes the test when some call under it satisfies the predicate. -/
theorem Stmt.hasCall_eq_any : ∀ s : Stmt, s.hasCall p = s.deepCalls.any p
  | .function d => FunctionDef.hasCall_eq_any d
  | .classDef d => ClassDef.hasCall_eq_any d
  | .cond test body orelse _ => by
    simp only [Stmt.hasCall, Stmt.deepCalls, List.any_append, Bool.or_assoc, Expr.hasCall,
      Stmt.anyHasCall_eq_any body, Stmt.anyHasCall_eq_any orelse]
  | .forLoop target iter body orelse _ _ => by
    simp only [Stmt.hasCall, Stmt.deepCalls, List.any_append, Bool.or_assoc, Expr.hasCall,
      Stmt.anyHasCall_eq_any body, Stmt.anyHasCall_eq_any orelse]
  | .whileLoop test body orelse _ => by
    simp only [Stmt.hasCall, Stmt.deepCalls, List.any_append, Bool.or_assoc, Expr.hasCall,
      Stmt.anyHasCall_eq_any body, Stmt.anyHasCall_eq_any orelse]
  | .withBlock items body _ _ => by
    simp only [Stmt.hasCall, Stmt.deepCalls, List.any_append, Expr.any_hasCall,
      Stmt.anyHasCall_eq_any body]
  | .tryBlock body handlers orelse finalbody _ => by
    simp only [Stmt.hasCall, Stmt.deepCalls, List.any_append, Bool.or_assoc,
      Stmt.anyHasCall_eq_any body, Handler.anyHasCall_eq_any handlers,
      Stmt.anyHasCall_eq_any orelse, Stmt.anyHasCall_eq_any finalbody]
  | .matchBlock subject cases _ => by
    simp only [Stmt.hasCall, Stmt.deepCalls, List.any_append, Expr.any_hasCall,
      MatchCase.anyHasCall_eq_any cases]
  | .expr _ _ => rfl
  | .assign targets _ value _ => by
    simp only [Stmt.hasCall, Stmt.deepCalls, List.any_append, Expr.any_hasCall, Expr.any_hasCall?]
  | .ret value _ => Expr.any_hasCall? p value
  | .raise exprs _ | .delete exprs _ | .other _ exprs _ => Expr.any_hasCall p exprs
  | .pass _ | .breakLoop _ | .continueLoop _ | .imports _ _ | .importFrom _ _ _ _ => rfl

theorem FunctionDef.hasCall_eq_any : ∀ d : FunctionDef, d.hasCall p = d.deepCalls.any p
  | ⟨_, _, decorators, body, _, _⟩ => by
    simp only [FunctionDef.hasCall, FunctionDef.deepCalls, List.any_append, Expr.any_hasCall,
      Stmt.anyHasCall_eq_any body]

theorem ClassDef.hasCall_eq_any : ∀ d : ClassDef, d.hasCall p = d.deepCalls.any p
  | ⟨_, bases, decorators, body, _⟩ => by
    simp only [ClassDef.hasCall, ClassDef.deepCalls, List.any_append, Bool.or_assoc,
      Expr.any_hasCall, Stmt.anyHasCall_eq_any body]

theorem Stmt.anyHasCall_eq_any : ∀ ss : List Stmt,
    Stmt.anyHasCall p ss = (Stmt.deepCallsIn ss).any p
  | [] => rfl
  | s :: ss => by
    simp only [Stmt.anyHasCall, Stmt.deepCallsIn, List.any_append, Stmt.hasCall_eq_any s,
      Stmt.anyHasCall_eq_any ss]

theorem Handler.anyHasCall_eq_any : ∀ hs : List Handler,
    Handler.anyHasCall p hs = (Handler.deepCallsIn hs).any p
  | [] => rfl
  | h :: hs => by
    simp only [Handler.anyHasCall, Handler.deepCallsIn, List.any_append, Handler.hasCall_eq_any h,
      Handler.anyHasCall_eq_any hs]

theorem Handler.hasCall_eq_any : ∀ h : Handler, h.hasCall p = h.deepCalls.any p
  | ⟨types, body, _⟩ => by
    simp only [Handler.hasCall, Handler.deepCalls, List.any_append, Expr.any_hasCall,
      Stmt.anyHasCall_eq_any body]

theorem MatchCase.anyHasCall_eq_any : ∀ cs : List MatchCase,
    MatchCase.anyHasCall p cs = (MatchCase.deepCallsIn cs).any p
  | [] => rfl
  | c :: cs => by
    simp only [MatchCase.anyHasCall, MatchCase.deepCallsIn, List.any_append,
      MatchCase.hasCall_eq_any c, MatchCase.anyHasCall_eq_any cs]

theorem MatchCase.hasCall_eq_any : ∀ c : MatchCase, c.hasCall p = c.deepCalls.any p
  | ⟨_, guard, body⟩ => by
    simp only [MatchCase.hasCall, MatchCase.deepCalls, List.any_append, Expr.any_hasCall?,
      Stmt.anyHasCall_eq_any body]

end

end Test

/-! ## The listed calls are among them -/

mutual

/-- Listing the calls of a statement leaves out nothing but nested definitions. -/
theorem Stmt.calls_sublist_deepCalls : ∀ s : Stmt, s.calls.Sublist s.deepCalls
  | .function _ | .classDef _ => List.nil_sublist _
  | .cond test body orelse _ =>
    (List.Sublist.refl test.calls).append
      ((Stmt.callsIn_sublist_deepCallsIn body).append (Stmt.callsIn_sublist_deepCallsIn orelse))
  | .forLoop target iter body orelse _ _ =>
    (List.Sublist.refl iter.calls).append ((List.Sublist.refl target.calls).append
      ((Stmt.callsIn_sublist_deepCallsIn body).append (Stmt.callsIn_sublist_deepCallsIn orelse)))
  | .whileLoop test body orelse _ =>
    (List.Sublist.refl test.calls).append
      ((Stmt.callsIn_sublist_deepCallsIn body).append (Stmt.callsIn_sublist_deepCallsIn orelse))
  | .withBlock items body _ _ =>
    (List.Sublist.refl (Expr.callsIn items)).append (Stmt.callsIn_sublist_deepCallsIn body)
  | .tryBlock body handlers orelse finalbody _ =>
    (Stmt.callsIn_sublist_deepCallsIn body).append
      ((Handler.callsIn_sublist_deepCallsIn handlers).append
        ((Stmt.callsIn_sublist_deepCallsIn orelse).append
          (Stmt.callsIn_sublist_deepCallsIn finalbody)))
  | .matchBlock subject cases _ =>
    (List.Sublist.refl (Expr.callsIn subject)).append (MatchCase.callsIn_sublist_deepCallsIn cases)
  | .expr _ _ | .assign _ _ _ _ | .ret _ _ | .raise _ _ | .delete _ _ | .other _ _ _ =>
    List.Sublist.refl _
  | .pass _ | .breakLoop _ | .continueLoop _ | .imports _ _ | .importFrom _ _ _ _ =>
    List.Sublist.refl _

theorem Stmt.callsIn_sublist_deepCallsIn : ∀ ss : List Stmt,
    (Stmt.callsIn ss).Sublist (Stmt.deepCallsIn ss)
  | [] => List.Sublist.refl _
  | s :: ss => (Stmt.calls_sublist_deepCalls s).append (Stmt.callsIn_sublist_deepCallsIn ss)

theorem Handler.callsIn_sublist_deepCallsIn : ∀ hs : List Handler,
    (Handler.callsIn hs).Sublist (Handler.deepCallsIn hs)
  | [] => List.Sublist.refl _
  | h :: hs => (Handler.calls_sublist_deepCalls h).append (Handler.callsIn_sublist_deepCallsIn hs)

theorem Handler.calls_sublist_deepCalls : ∀ h : Handler, h.calls.Sublist h.deepCalls
  | ⟨types, body, _⟩ =>
    (List.Sublist.refl (Expr.callsIn types)).append (Stmt.callsIn_sublist_deepCallsIn body)

theorem MatchCase.callsIn_sublist_deepCallsIn : ∀ cs : List MatchCase,
    (MatchCase.callsIn cs).Sublist (MatchCase.deepCallsIn cs)
  | [] => List.Sublist.refl _
  | c :: cs =>
    (MatchCase.calls_sublist_deepCalls c).append (MatchCase.callsIn_sublist_deepCallsIn cs)

theorem MatchCase.calls_sublist_deepCalls : ∀ c : MatchCase, c.calls.Sublist c.deepCalls
  | ⟨_, guard, body⟩ =>
    (List.Sublist.refl (Expr.callsIn? guard)).append (Stmt.callsIn_sublist_deepCallsIn body)

end

/-! ## What follows for the test -/

section Consequences

variable {p q : Call → Bool}

theorem Expr.hasCall_mono (hpq : ∀ c, p c = true → q c = true) {e : Expr}
    (h : e.hasCall p = true) : e.hasCall q = true := by
  obtain ⟨c, hc, hp⟩ := List.any_eq_true.mp h
  exact List.any_eq_true.mpr ⟨c, hc, hpq c hp⟩

/-- A statement that passes the test passes it for every weaker predicate. -/
theorem Stmt.hasCall_mono (hpq : ∀ c, p c = true → q c = true) {s : Stmt}
    (h : s.hasCall p = true) : s.hasCall q = true := by
  rw [Stmt.hasCall_eq_any] at h ⊢
  obtain ⟨c, hc, hp⟩ := List.any_eq_true.mp h
  exact List.any_eq_true.mpr ⟨c, hc, hpq c hp⟩

/-- Where the test fails, no call of the statement satisfies the predicate. -/
theorem Stmt.filter_calls_eq_nil {s : Stmt} (h : s.hasCall p = false) : s.calls.filter p = [] := by
  rw [Stmt.hasCall_eq_any, List.any_eq_false] at h
  refine List.filter_eq_nil_iff.mpr fun c hc => ?_
  exact h c ((Stmt.calls_sublist_deepCalls s).subset hc)

end Consequences

end ServiceTrace
