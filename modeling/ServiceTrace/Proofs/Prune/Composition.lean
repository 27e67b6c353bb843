import ServiceTrace.Proofs.Prune.Rebuild

/-!
# `ServiceTrace.Proofs.Prune.Composition` — pruning a pruned body

Pruning with a large set of names and then with a smaller one comes to pruning with the smaller one right
away. What the first pass decided may be decided anew by the second one, since it has emptied blocks and
put loops and branches in the place of statements. But a decision is *stable*: a statement that the large
set left out would have been left out by the small one, and a statement that was rebuilt is decided again
on the blocks that the small set leaves (`Stmt.pruneIn_rebuildCond` and its siblings, for any blocks).

* **`prune_composes`** — pruning composes, and a pruned body prunes to itself.
-/

namespace ServiceTrace

variable {small large : NameSet}

section Stability

variable (h : ∀ name ∈ small, name ∈ large)

include h

namespace Stmt

/-! ## Decisions are stable -/

theorem pruneIn_rebuildCond (test : Expr) (body orelse : List Stmt) (line : Nat) :
    pruneIn small (rebuildCond large test body orelse line) =
      rebuildCond small test (pruneIn small body) (pruneIn small orelse) line := by
  rcases rebuildCond_cases large test body orelse line with
    ⟨hkept, -⟩ | ⟨htest, hbranch⟩
  · rw [hkept, pruneIn_singleton, prune_cond]
  · have hsmall : test.hasCall (isTracked small) = false := by
      rw [Bool.eq_false_iff]
      intro htrue
      have hlarge := Expr.hasCall_mono (isTracked_mono h) htrue
      exact Bool.false_ne_true (htest.symm.trans hlarge)
    rcases hbranch with ⟨rfl, hleft⟩ | ⟨rfl, hleft⟩
    · rw [hleft]
      exact (rebuildCond_nil_left hsmall _ line).symm
    · rw [hleft]
      exact (rebuildCond_nil_right hsmall _ line).symm

theorem pruneIn_rebuildWith (items : List Expr) (body : List Stmt) (isAsync : Bool) (line : Nat) :
    pruneIn small (rebuildWith large items body isAsync line) =
      rebuildWith small items (pruneIn small body) isAsync line := by
  rcases rebuildWith_cases large items body isAsync line with
    ⟨hkept, -⟩ | ⟨hleft, rfl, hitems⟩
  · rw [hkept, pruneIn_singleton, prune_with]
  · rw [hleft]
    exact (rebuildWith_nil (any_hasCall_mono h hitems) isAsync line).symm

theorem pruneIn_rebuildTry (body : List Stmt) (handlers : List Handler)
    (orelse finalbody : List Stmt) (line : Nat) :
    pruneIn small (rebuildTry large body handlers orelse finalbody line) =
      rebuildTry small (pruneIn small body) (Handler.pruneAll small handlers)
        (pruneIn small orelse) (pruneIn small finalbody) line := by
  rcases rebuildTry_cases large body handlers orelse finalbody line with
    ⟨hkept, -⟩ | ⟨hleft, rfl, rfl, rfl, hhandlers⟩
  · rw [hkept, pruneIn_singleton, prune_try]
  · -- the clauses have empty blocks, which stay empty, and types without a tracked call
    have hsmall : ∀ handler ∈ Handler.pruneAll small handlers, handler.keeps small = false := by
      intro handler hmem
      rw [Handler.pruneAll_eq_map] at hmem
      obtain ⟨⟨types, block, l⟩, hmem', rfl⟩ := List.mem_map.mp hmem
      obtain ⟨hblock, htypes⟩ := Handler.keeps_eq_false (hhandlers _ hmem')
      have hblock : block = [] := hblock
      subst hblock
      show (!([] : List Stmt).isEmpty || types.any (·.hasCall (isTracked small))) = false
      rw [any_hasCall_mono h htypes]
      rfl
    rw [hleft]
    exact (rebuildTry_nil hsmall line).symm

/-- A statement that stays whole is decided again as a whole. -/
theorem pruneIn_keepTracked {s : Stmt} (hs : prune small s = prune.keepTracked small s) :
    pruneIn small (prune.keepTracked large s) = prune.keepTracked small s := by
  rcases keepTracked_cases large s with ⟨hkept, -⟩ | ⟨hleft, hlarge⟩
  · rw [hkept, pruneIn_singleton, hs]
  · rw [hleft]
    rcases keepTracked_cases small s with ⟨-, hsmall⟩ | ⟨hnone, -⟩
    · have htrue := Stmt.hasCall_mono (isTracked_mono h) hsmall
      exact absurd (hlarge.symm.trans htrue) Bool.false_ne_true
    · exact hnone.symm

end Stmt

end Stability

/-! ## From decisions to bodies -/

mutual

theorem Stmt.pruneIn_prune (h : ∀ name ∈ small, name ∈ large) : ∀ s : Stmt,
    Stmt.pruneIn small (s.prune large) = s.prune small
  | .cond test body orelse line => by
    rw [Stmt.prune_cond, Stmt.prune_cond, Stmt.pruneIn_rebuildCond h, Stmt.pruneIn_pruneIn h body,
      Stmt.pruneIn_pruneIn h orelse]
  | .forLoop _ _ body _ _ _ => by
    rw [Stmt.prune, Stmt.prune]
    exact Stmt.pruneIn_pruneIn h body
  | .whileLoop _ body _ _ => by
    rw [Stmt.prune, Stmt.prune]
    exact Stmt.pruneIn_pruneIn h body
  | .withBlock items body isAsync line => by
    rw [Stmt.prune_with, Stmt.prune_with, Stmt.pruneIn_rebuildWith h, Stmt.pruneIn_pruneIn h body]
  | .tryBlock body handlers orelse finalbody line => by
    rw [Stmt.prune_try, Stmt.prune_try, Stmt.pruneIn_rebuildTry h, Stmt.pruneIn_pruneIn h body,
      Handler.pruneAll_pruneAll h handlers, Stmt.pruneIn_pruneIn h orelse,
      Stmt.pruneIn_pruneIn h finalbody]
  | .expr _ _ | .assign _ _ _ _ | .matchBlock _ _ _ | .raise _ _ | .other _ _ _ => by
    rw [Stmt.prune, Stmt.prune]
    exact Stmt.pruneIn_keepTracked h (by rw [Stmt.prune])
  | .function _ | .classDef _ | .ret _ _ | .breakLoop _ | .continueLoop _ | .pass _
  | .delete _ _ | .imports _ _ | .importFrom _ _ _ _ => by
    rw [Stmt.prune, Stmt.prune, Stmt.pruneIn]

/-- A body that was pruned with a larger set prunes to what the body itself prunes to. -/
theorem Stmt.pruneIn_pruneIn (h : ∀ name ∈ small, name ∈ large) : ∀ ss : List Stmt,
    Stmt.pruneIn small (Stmt.pruneIn large ss) = Stmt.pruneIn small ss
  | [] => rfl
  | s :: ss => by
    rw [Stmt.pruneIn, Stmt.pruneIn_append, Stmt.pruneIn_prune h s, Stmt.pruneIn_pruneIn h ss,
      Stmt.pruneIn]

theorem Handler.pruneAll_pruneAll (h : ∀ name ∈ small, name ∈ large) : ∀ hs : List Handler,
    Handler.pruneAll small (Handler.pruneAll large hs) = Handler.pruneAll small hs
  | [] => rfl
  | handler :: hs => by
    rw [Handler.pruneAll, Handler.pruneAll, Handler.prune_prune h handler,
      Handler.pruneAll_pruneAll h hs, Handler.pruneAll]

theorem Handler.prune_prune (h : ∀ name ∈ small, name ∈ large) : ∀ handler : Handler,
    (handler.prune large).prune small = handler.prune small
  | ⟨types, body, line⟩ => by
    rw [Handler.prune, Handler.prune, Handler.prune, Stmt.pruneIn_pruneIn h body]

end

/-- **Pruning composes**: of two passes, the second one with fewer names, only the second one counts. With
    the same names twice, a pruned body prunes to itself. -/
theorem prune_composes (h : ∀ name ∈ small, name ∈ large) (body : List Stmt) :
    Stmt.pruneIn small (Stmt.pruneIn large body) = Stmt.pruneIn small body ∧
      Stmt.pruneIn large (Stmt.pruneIn large body) = Stmt.pruneIn large body :=
  ⟨Stmt.pruneIn_pruneIn h body, Stmt.pruneIn_pruneIn (fun _ hname => hname) body⟩

/-- A conditional with a call of `log` in each branch and one of `ship` in the first, and a loop. -/
def checkoutBody : List Stmt := [
  .cond (.name "paid")
    [.expr (.call ⟨.name "log", [], [], 2, none⟩) 2, .expr (.call ⟨.name "ship", [], [], 3, none⟩) 3]
    [.expr (.call ⟨.name "log", [], [], 5, none⟩) 5] 1,
  .forLoop (.name "item") (.name "items") [
    .expr (.call ⟨.attribute (.name "item") "ship", [], [], 7, none⟩) 7,
    .pass 8] [] false 6,
  .ret none 9]

/-- While `log` is tracked the conditional stays, and the loop gives way to its block. With `ship` alone
    the second pass decides about the conditional anew: it gives way to its first branch. -/
theorem checkout_composes :
    (∀ name ∈ NameSet.ofList ["ship"], name ∈ NameSet.ofList ["log", "ship"]) ∧
    (Stmt.pruneIn (.ofList ["log", "ship"]) checkoutBody).length = 2 ∧
    Stmt.pruneIn (.ofList ["ship"]) checkoutBody =
      [.expr (.call ⟨.name "ship", [], [], 3, none⟩) 3,
        .expr (.call ⟨.attribute (.name "item") "ship", [], [], 7, none⟩) 7] ∧
    Stmt.pruneIn (.ofList ["ship"]) (Stmt.pruneIn (.ofList ["log", "ship"]) checkoutBody) =
      Stmt.pruneIn (.ofList ["ship"]) checkoutBody ∧
    Stmt.pruneIn (.ofList ["log", "ship"]) (Stmt.pruneIn (.ofList ["log", "ship"]) checkoutBody) =
      Stmt.pruneIn (.ofList ["log", "ship"]) checkoutBody := by
  have hsub : ∀ name ∈ NameSet.ofList ["ship"], name ∈ NameSet.ofList ["log", "ship"] := by
    intro name hname
    simp only [NameSet.mem_ofList, List.mem_singleton] at hname
    simp [hname]
  exact ⟨hsub, rfl, rfl, prune_composes hsub checkoutBody⟩

end ServiceTrace
