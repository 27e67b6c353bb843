import ServiceTrace.Proofs.Ast.Listing
import ServiceTrace.Proofs.Prune.Rebuild

/-!
# `ServiceTrace.Proofs.Prune.Survival` — pruning loses and invents no tracked call

What pruning throws away with a call in it is `return` and `delete`, the header of a loop and the block
that a loop runs in the end. A `match` statement is not looked into. The calls anywhere else *survive*:
`Stmt.surviving` lists them, in the order of `Stmt.calls`.

`Retains p left whole` says that `left` is `whole` without some elements, none of which satisfies `p`. Every
decision retains the tracked calls of the statement as it would be rebuilt; with `Retains.append` and
`Retains.trans` this adds up to bodies (`Stmt.retains_pruneIn`).

* **`prune_keeps_tracked`** — the calls of a pruned body are calls of the body in the same order, and the
  tracked ones among them are the tracked ones that survive.
-/

namespace ServiceTrace

/-! ## Leaving out what does not count -/

/-- One list is another one without some elements, none of which satisfies the predicate. -/
structure Retains (p : Call → Bool) (left whole : List Call) : Prop where
  sublist : left.Sublist whole
  filter_eq : left.filter p = whole.filter p

namespace Retains

variable {p : Call → Bool} {left left' whole whole' more : List Call}

theorem refl (p : Call → Bool) (calls : List Call) : Retains p calls calls :=
  ⟨List.Sublist.refl calls, rfl⟩

theorem trans (h : Retains p left whole) (h' : Retains p whole more) : Retains p left more :=
  ⟨h.sublist.trans h'.sublist, h.filter_eq.trans h'.filter_eq⟩

theorem append (h : Retains p left whole) (h' : Retains p left' whole') :
    Retains p (left ++ left') (whole ++ whole') := by
  refine ⟨h.sublist.append h'.sublist, ?_⟩
  rw [List.filter_append, List.filter_append, h.filter_eq, h'.filter_eq]

/-- Everything may go where nothing satisfies the predicate. -/
theorem nil (h : whole.filter p = []) : Retains p [] whole :=
  ⟨List.nil_sublist whole, h.symm⟩

end Retains

/-! ## Surviving calls -/

mutual

/-- The calls of a statement that pruning cannot throw away. -/
def Stmt.surviving : Stmt → List Call
  | .ret _ _ | .delete _ _ => []
  | .forLoop _ _ body _ _ _ | .whileLoop _ body _ _ => Stmt.survivingIn body
  | .cond test body orelse _ => test.calls ++ (Stmt.survivingIn body ++ Stmt.survivingIn orelse)
  | .withBlock items body _ _ => Expr.callsIn items ++ Stmt.survivingIn body
  | .tryBlock body handlers orelse finalbody _ =>
    Stmt.survivingIn body ++ (Handler.survivingIn handlers ++
      (Stmt.survivingIn orelse ++ Stmt.survivingIn finalbody))
  -- a `match` counts whole, with the loops and `return` statements inside it
  | .matchBlock subject cases line => (Stmt.matchBlock subject cases line).calls
  | .expr value line => (Stmt.expr value line).calls
  | .assign targets op value line => (Stmt.assign targets op value line).calls
  | .raise exprs line => (Stmt.raise exprs line).calls
  | .other kind exprs line => (Stmt.other kind exprs line).calls
  | .function _ | .classDef _ => []
  | .pass _ | .breakLoop _ | .continueLoop _ | .imports _ _ | .importFrom _ _ _ _ => []

/-- The surviving calls of a body. -/
def Stmt.survivingIn : List Stmt → List Call
  | [] => []
  | s :: ss => s.surviving ++ Stmt.survivingIn ss

/-- The surviving calls of `except` clauses. -/
def Handler.survivingIn : List Handler → List Call
  | [] => []
  | h :: hs => h.surviving ++ Handler.survivingIn hs

/-- The surviving calls of an `except` clause: its types, then its block. -/
def Handler.surviving : Handler → List Call
  | ⟨types, body, _⟩ => Expr.callsIn types ++ Stmt.survivingIn body

end

mutual

/-- Surviving calls are calls of the statement. -/
theorem Stmt.surviving_sublist_calls : ∀ s : Stmt, s.surviving.Sublist s.calls
  | .ret _ _ | .delete _ _ => List.nil_sublist _
  | .forLoop target iter body orelse _ _ =>
    (Stmt.survivingIn_sublist_callsIn body).trans
      ((List.sublist_append_left (Stmt.callsIn body) (Stmt.callsIn orelse)).trans
        ((List.sublist_append_right target.calls _).trans (List.sublist_append_right iter.calls _)))
  | .whileLoop test body orelse _ =>
    (Stmt.survivingIn_sublist_callsIn body).trans
      ((List.sublist_append_left (Stmt.callsIn body) (Stmt.callsIn orelse)).trans
        (List.sublist_append_right test.calls _))
  | .cond test body orelse _ =>
    (List.Sublist.refl test.calls).append
      ((Stmt.survivingIn_sublist_callsIn body).append (Stmt.survivingIn_sublist_callsIn orelse))
  | .withBlock items body _ _ =>
    (List.Sublist.refl (Expr.callsIn items)).append (Stmt.survivingIn_sublist_callsIn body)
  | .tryBlock body handlers orelse finalbody _ =>
    (Stmt.survivingIn_sublist_callsIn body).append
      ((Handler.survivingIn_sublist_callsIn handlers).append
        ((Stmt.survivingIn_sublist_callsIn orelse).append
          (Stmt.survivingIn_sublist_callsIn finalbody)))
  | .matchBlock _ _ _ | .expr _ _ | .assign _ _ _ _ | .raise _ _ | .other _ _ _ =>
    List.Sublist.refl _
  | .function _ | .classDef _ => List.Sublist.refl _
  | .pass _ | .breakLoop _ | .continueLoop _ | .imports _ _ | .importFrom _ _ _ _ =>
    List.Sublist.refl _

theorem Stmt.survivingIn_sublist_callsIn : ∀ ss : List Stmt,
    (Stmt.survivingIn ss).Sublist (Stmt.callsIn ss)
  | [] => List.Sublist.refl _
  | s :: ss => (Stmt.surviving_sublist_calls s).append (Stmt.survivingIn_sublist_callsIn ss)

theorem Handler.survivingIn_sublist_callsIn : ∀ hs : List Handler,
    (Handler.survivingIn hs).Sublist (Handler.callsIn hs)
  | [] => List.Sublist.refl _
  | h :: hs => (Handler.surviving_sublist_calls h).append (Handler.survivingIn_sublist_callsIn hs)

theorem Handler.surviving_sublist_calls : ∀ h : Handler, h.surviving.Sublist h.calls
  | ⟨types, body, _⟩ =>
    (List.Sublist.refl (Expr.callsIn types)).append (Stmt.survivingIn_sublist_callsIn body)

end

/-! ## Decisions retain tracked calls -/

variable {tracked : NameSet}

theorem filter_calls_eq_nil_of_any {es : List Expr}
    (h : es.any (·.hasCall (isTracked tracked)) = false) :
    (Expr.callsIn es).filter (isTracked tracked) = [] := by
  rw [Expr.any_hasCall, List.any_eq_false] at h
  exact List.filter_eq_nil_iff.mpr h

theorem Handler.filter_callsIn_eq_nil {hs : List Handler}
    (h : ∀ handler ∈ hs, handler.keeps tracked = false) :
    (Handler.callsIn hs).filter (isTracked tracked) = [] := by
  induction hs with
  | nil => rfl
  | cons handler hs ih =>
    obtain ⟨types, body, line⟩ := handler
    obtain ⟨hbody, htypes⟩ := Handler.keeps_eq_false (h _ List.mem_cons_self)
    have hbody : body = [] := hbody
    subst hbody
    have hrest := ih fun handler hmem => h handler (List.mem_cons_of_mem _ hmem)
    rw [Handler.callsIn, Handler.calls, Stmt.callsIn, List.append_nil, List.filter_append,
      filter_calls_eq_nil_of_any htypes, hrest]
    rfl

namespace Stmt

theorem retains_rebuildCond (test : Expr) (body orelse : List Stmt) (line : Nat) :
    Retains (isTracked tracked) (callsIn (rebuildCond tracked test body orelse line))
      (test.calls ++ (callsIn body ++ callsIn orelse)) := by
  rcases rebuildCond_cases tracked test body orelse line with
    ⟨hkept, -⟩ | ⟨htest, hbranch⟩
  · rw [hkept, callsIn_singleton, calls]
    exact Retains.refl _ _
  · have hdropped : Retains (isTracked tracked) [] test.calls :=
      Retains.nil (List.filter_eq_nil_iff.mpr (List.any_eq_false.mp htest))
    rcases hbranch with ⟨rfl, hleft⟩ | ⟨rfl, hleft⟩
    · rw [hleft]
      exact hdropped.append (Retains.refl _ _)
    · rw [hleft, show callsIn [] = [] from rfl, List.append_nil]
      exact hdropped.append (Retains.refl _ _)

theorem retains_rebuildWith (items : List Expr) (body : List Stmt) (isAsync : Bool) (line : Nat) :
    Retains (isTracked tracked) (callsIn (rebuildWith tracked items body isAsync line))
      (Expr.callsIn items ++ callsIn body) := by
  rcases rebuildWith_cases tracked items body isAsync line with
    ⟨hkept, -⟩ | ⟨hleft, rfl, hitems⟩
  · rw [hkept, callsIn_singleton, calls]
    exact Retains.refl _ _
  · rw [hleft]
    exact (Retains.nil (filter_calls_eq_nil_of_any hitems)).append (Retains.refl _ [])

theorem retains_rebuildTry (body : List Stmt) (handlers : List Handler)
    (orelse finalbody : List Stmt) (line : Nat) :
    Retains (isTracked tracked)
      (callsIn (rebuildTry tracked body handlers orelse finalbody line))
      (callsIn body ++ (Handler.callsIn handlers ++ (callsIn orelse ++ callsIn finalbody))) := by
  rcases rebuildTry_cases tracked body handlers orelse finalbody line with
    ⟨hkept, -⟩ | ⟨hleft, rfl, rfl, rfl, hhandlers⟩
  · rw [hkept, callsIn_singleton, calls]
    exact Retains.refl _ _
  · have hdropped : Retains (isTracked tracked) [] (Handler.callsIn handlers) :=
      Retains.nil (Handler.filter_callsIn_eq_nil hhandlers)
    rw [hleft]
    exact (Retains.refl _ []).append (hdropped.append (Retains.refl _ []))

theorem retains_keepTracked (s : Stmt) :
    Retains (isTracked tracked) (callsIn (prune.keepTracked tracked s)) s.calls := by
  rcases keepTracked_cases tracked s with ⟨hkept, -⟩ | ⟨hleft, hs⟩
  · rw [hkept, callsIn_singleton]
    exact Retains.refl _ _
  · rw [hleft]
    exact Retains.nil (Stmt.filter_calls_eq_nil hs)

end Stmt

/-! ## From decisions to bodies -/

mutual

theorem Stmt.retains_prune : ∀ s : Stmt,
    Retains (isTracked tracked) (Stmt.callsIn (s.prune tracked)) s.surviving
  | .cond test body orelse line => by
    rw [Stmt.prune_cond, Stmt.surviving]
    have hblocks := (Stmt.retains_pruneIn body).append (Stmt.retains_pruneIn orelse)
    exact (Stmt.retains_rebuildCond test _ _ line).trans ((Retains.refl _ _).append hblocks)
  | .forLoop _ _ body _ _ _ => by
    rw [Stmt.prune, Stmt.surviving]
    exact Stmt.retains_pruneIn body
  | .whileLoop _ body _ _ => by
    rw [Stmt.prune, Stmt.surviving]
    exact Stmt.retains_pruneIn body
  | .withBlock items body isAsync line => by
    rw [Stmt.prune_with, Stmt.surviving]
    have hblock := Stmt.retains_pruneIn body
    exact (Stmt.retains_rebuildWith items _ isAsync line).trans ((Retains.refl _ _).append hblock)
  | .tryBlock body handlers orelse finalbody line => by
    rw [Stmt.prune_try, Stmt.surviving]
    have hlast := (Stmt.retains_pruneIn orelse).append (Stmt.retains_pruneIn finalbody)
    have hblocks := (Stmt.retains_pruneIn body).append
      ((Handler.retains_pruneAll handlers).append hlast)
    exact (Stmt.retains_rebuildTry _ _ _ _ line).trans hblocks
  | .expr _ _ | .assign _ _ _ _ | .matchBlock _ _ _ | .raise _ _ | .other _ _ _ => by
    rw [Stmt.prune, Stmt.surviving]
    exact Stmt.retains_keepTracked _
  | .function _ | .classDef _ | .ret _ _ | .breakLoop _ | .continueLoop _ | .pass _
  | .delete _ _ | .imports _ _ | .importFrom _ _ _ _ => by
    rw [Stmt.prune, Stmt.surviving]
    exact Retains.refl _ _

/-- Pruning a body retains the tracked calls among the surviving ones. -/
theorem Stmt.retains_pruneIn : ∀ ss : List Stmt,
    Retains (isTracked tracked) (Stmt.callsIn (Stmt.pruneIn tracked ss)) (Stmt.survivingIn ss)
  | [] => Retains.refl _ _
  | s :: ss => by
    rw [Stmt.pruneIn, Stmt.callsIn_append, Stmt.survivingIn]
    exact (Stmt.retains_prune s).append (Stmt.retains_pruneIn ss)

theorem Handler.retains_pruneAll : ∀ hs : List Handler,
    Retains (isTracked tracked) (Handler.callsIn (Handler.pruneAll tracked hs))
      (Handler.survivingIn hs)
  | [] => Retains.refl _ _
  | h :: hs => by
    rw [Handler.pruneAll, Handler.callsIn, Handler.survivingIn]
    exact (Handler.retains_prune h).append (Handler.retains_pruneAll hs)

theorem Handler.retains_prune : ∀ h : Handler,
    Retains (isTracked tracked) (h.prune tracked).calls h.surviving
  | ⟨types, body, line⟩ => by
    rw [Handler.prune, Handler.calls, Handler.surviving]
    exact (Retains.refl _ _).append (Stmt.retains_pruneIn body)

end

/-- **Pruning loses and invents no tracked call**: the calls of a pruned body are calls of the body in the
    same order, and those that are tracked are exactly the tracked ones among the surviving calls. -/
theorem prune_keeps_tracked (tracked : NameSet) (body : List Stmt) :
    (Stmt.callsIn (Stmt.pruneIn tracked body)).Sublist (Stmt.callsIn body) ∧
    (Stmt.survivingIn body).Sublist (Stmt.callsIn body) ∧
    (Stmt.callsIn (Stmt.pruneIn tracked body)).filter (isTracked tracked) =
      (Stmt.survivingIn body).filter (isTracked tracked) := by
  have hretains : Retains (isTracked tracked) _ _ := Stmt.retains_pruneIn body
  have hsurviving := Stmt.survivingIn_sublist_callsIn body
  exact ⟨hretains.sublist.trans hsurviving, hsurviving, hretains.filter_eq⟩

end ServiceTrace
