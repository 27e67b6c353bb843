import ServiceTrace.Ast.Calls

/-!
# `ServiceTrace.Proofs.Ast.Listing` — the calls of lists

Listing the calls of several expressions, statements or clauses is listing those of each, one after the
other. The traversals say so by recursion; here it is said with `List.flatMap`, so that the laws of lists
apply: the calls of two lists put together, of a list of one, and of a member.
-/

namespace ServiceTrace

theorem Expr.callsIn_eq_flatMap (es : List Expr) : Expr.callsIn es = es.flatMap Expr.calls := by
  induction es with
  | nil => rfl
  | cons e es ih => rw [Expr.callsIn, ih, List.flatMap_cons]

theorem Keyword.callsIn_eq_flatMap (ks : List Keyword) : Keyword.callsIn ks = ks.flatMap Keyword.calls := by
  induction ks with
  | nil => rfl
  | cons k ks ih => rw [Keyword.callsIn, ih, List.flatMap_cons]

theorem Stmt.callsIn_eq_flatMap (ss : List Stmt) : Stmt.callsIn ss = ss.flatMap Stmt.calls := by
  induction ss with
  | nil => rfl
  | cons s ss ih => rw [Stmt.callsIn, ih, List.flatMap_cons]

theorem Handler.callsIn_eq_flatMap (hs : List Handler) : Handler.callsIn hs = hs.flatMap Handler.calls := by
  induction hs with
  | nil => rfl
  | cons h hs ih => rw [Handler.callsIn, ih, List.flatMap_cons]

theorem MatchCase.callsIn_eq_flatMap (cs : List MatchCase) :
    MatchCase.callsIn cs = cs.flatMap MatchCase.calls := by
  induction cs with
  | nil => rfl
  | cons c cs ih => rw [MatchCase.callsIn, ih, List.flatMap_cons]

theorem Expr.callsIn_append (es fs : List Expr) :
    Expr.callsIn (es ++ fs) = Expr.callsIn es ++ Expr.callsIn fs := by
  rw [callsIn_eq_flatMap, callsIn_eq_flatMap, callsIn_eq_flatMap, List.flatMap_append]

theorem Expr.callsIn_singleton (e : Expr) : Expr.callsIn [e] = e.calls := by
  rw [callsIn_eq_flatMap, List.flatMap_singleton]

theorem Keyword.callsIn_append (ks ls : List Keyword) :
    Keyword.callsIn (ks ++ ls) = Keyword.callsIn ks ++ Keyword.callsIn ls := by
  rw [callsIn_eq_flatMap, callsIn_eq_flatMap, callsIn_eq_flatMap, List.flatMap_append]

theorem Keyword.callsIn_singleton (k : Keyword) : Keyword.callsIn [k] = k.value.calls := by
  rw [callsIn_eq_flatMap, List.flatMap_singleton]
  cases k
  rfl

theorem Stmt.callsIn_append (ss rest : List Stmt) :
    Stmt.callsIn (ss ++ rest) = Stmt.callsIn ss ++ Stmt.callsIn rest := by
  rw [callsIn_eq_flatMap, callsIn_eq_flatMap, callsIn_eq_flatMap, List.flatMap_append]

theorem Stmt.callsIn_singleton (s : Stmt) : Stmt.callsIn [s] = s.calls := by
  rw [callsIn_eq_flatMap, List.flatMap_singleton]

theorem Expr.calls_subset_callsIn {e : Expr} {es : List Expr} (h : e ∈ es) : e.calls ⊆ Expr.callsIn es := by
  rw [Expr.callsIn_eq_flatMap]
  exact fun c hc => List.mem_flatMap.mpr ⟨e, h, hc⟩

theorem Stmt.calls_subset_callsIn {s : Stmt} {ss : List Stmt} (h : s ∈ ss) : s.calls ⊆ Stmt.callsIn ss := by
  rw [Stmt.callsIn_eq_flatMap]
  exact fun c hc => List.mem_flatMap.mpr ⟨s, h, hc⟩

end ServiceTrace
