import ServiceTrace.Proofs.Ast.HasCall
import ServiceTrace.Prune

/-!
# `ServiceTrace.Proofs.Prune.Rebuild` — what becomes of a statement whose blocks are reduced

Pruning reduces the blocks of a compound statement first and decides about the statement afterwards. The
decision reads the reduced blocks and the expressions of the header, and nothing else, so it is a function
in its own right: `Stmt.rebuildCond`, `Stmt.rebuildWith` and `Stmt.rebuildTry`, beside `keepTracked` for
statements that stay whole or go.

`Stmt.prune_cond` and its siblings put `Stmt.prune` together from these. What a decision can come to is
said once, in the `_cases` lemmas: either the statement is rebuilt, or what it leaves out holds no tracked
call. Facts about pruning are proved of the decisions, for any blocks, and carried to bodies by recursion.
-/

namespace ServiceTrace

/-! ## Tracked calls -/

/-- Whether an `except` clause with a reduced block holds a tracked call. -/
def Handler.keeps (tracked : NameSet) (h : Handler) : Bool :=
  !h.body.isEmpty || h.types.any (·.hasCall (isTracked tracked))

/-- A call that is tracked is tracked by every larger set of names. -/
theorem isTracked_mono {small large : NameSet} (h : ∀ name ∈ small, name ∈ large) (c : Call)
    (hc : isTracked small c = true) : isTracked large c = true := by
  unfold isTracked at hc ⊢
  cases hname : c.func.targetName? with
  | none => simp [hname] at hc
  | some name =>
    have hmem : name ∈ small := by simpa [hname] using hc
    simpa [hname] using h name hmem

/-- Where a set of names tracks nothing, no smaller set does. -/
theorem any_hasCall_mono {small large : NameSet} (h : ∀ name ∈ small, name ∈ large)
    {es : List Expr} (hes : es.any (·.hasCall (isTracked large)) = false) :
    es.any (·.hasCall (isTracked small)) = false := by
  rw [List.any_eq_false] at hes ⊢
  intro e he hsmall
  exact hes e he (Expr.hasCall_mono (isTracked_mono h) hsmall)

theorem Handler.keeps_eq_false {tracked : NameSet} {h : Handler} (hk : h.keeps tracked = false) :
    h.body = [] ∧ h.types.any (·.hasCall (isTracked tracked)) = false := by
  unfold keeps at hk
  rw [Bool.or_eq_false_iff, Bool.not_eq_false', List.isEmpty_iff] at hk
  exact hk

theorem Handler.pruneAll_eq_map (tracked : NameSet) (hs : List Handler) :
    Handler.pruneAll tracked hs = hs.map (Handler.prune tracked) := by
  induction hs with
  | nil => rfl
  | cons h hs ih => rw [Handler.pruneAll, ih, List.map_cons]

namespace Stmt

variable (tracked : NameSet)

/-! ## The decisions -/

/-- What is left of a conditional with reduced blocks. -/
def rebuildCond (test : Expr) (body orelse : List Stmt) (line : Nat) : List Stmt :=
  if test.hasCall (isTracked tracked) then [.cond test body orelse line]
  else if body.isEmpty then orelse
  else if orelse.isEmpty then body
  else [.cond test body orelse line]

/-- What is left of a `with` statement with a reduced block. -/
def rebuildWith (items : List Expr) (body : List Stmt) (isAsync : Bool) (line : Nat) : List Stmt :=
  if !body.isEmpty || items.any (·.hasCall (isTracked tracked)) then
    [.withBlock items body isAsync line]
  else []

/-- What is left of a `try` statement with reduced blocks. -/
def rebuildTry (body : List Stmt) (handlers : List Handler) (orelse finalbody : List Stmt)
    (line : Nat) : List Stmt :=
  if !body.isEmpty || !orelse.isEmpty || !finalbody.isEmpty || handlers.any (·.keeps tracked) then
    [.tryBlock body handlers orelse finalbody line]
  else []

theorem prune_cond (test : Expr) (body orelse : List Stmt) (line : Nat) :
    prune tracked (.cond test body orelse line) =
      rebuildCond tracked test (pruneIn tracked body) (pruneIn tracked orelse) line := by
  rw [prune]
  rfl

theorem prune_with (items : List Expr) (body : List Stmt) (isAsync : Bool) (line : Nat) :
    prune tracked (.withBlock items body isAsync line) =
      rebuildWith tracked items (pruneIn tracked body) isAsync line := by
  rw [prune]
  rfl

theorem prune_try (body : List Stmt) (handlers : List Handler) (orelse finalbody : List Stmt)
    (line : Nat) :
    prune tracked (.tryBlock body handlers orelse finalbody line) =
      rebuildTry tracked (pruneIn tracked body) (Handler.pruneAll tracked handlers)
        (pruneIn tracked orelse) (pruneIn tracked finalbody) line := by
  rw [prune]
  rfl

theorem pruneIn_append (ss rest : List Stmt) :
    pruneIn tracked (ss ++ rest) = pruneIn tracked ss ++ pruneIn tracked rest := by
  induction ss with
  | nil => rfl
  | cons s ss ih => rw [List.cons_append, pruneIn, pruneIn, ih, List.append_assoc]

theorem pruneIn_singleton (s : Stmt) : pruneIn tracked [s] = prune tracked s := by
  rw [pruneIn, pruneIn, List.append_nil]

/-! ## What a decision can come to -/

/-- A conditional is rebuilt, or gives way to one branch: then its test holds no tracked call, and the
    other branch is empty. -/
theorem rebuildCond_cases (test : Expr) (body orelse : List Stmt) (line : Nat) :
    (rebuildCond tracked test body orelse line = [.cond test body orelse line] ∧
      (test.hasCall (isTracked tracked) = true ∨ body ≠ [] ∧ orelse ≠ [])) ∨
    (test.hasCall (isTracked tracked) = false ∧
      (body = [] ∧ rebuildCond tracked test body orelse line = orelse ∨
        orelse = [] ∧ rebuildCond tracked test body orelse line = body)) := by
  unfold rebuildCond
  cases htest : test.hasCall (isTracked tracked) with
  | true => exact Or.inl ⟨rfl, Or.inl rfl⟩
  | false =>
    cases body with
    | nil => exact Or.inr ⟨rfl, Or.inl ⟨rfl, rfl⟩⟩
    | cons s ss =>
      cases orelse with
      | nil => exact Or.inr ⟨rfl, Or.inr ⟨rfl, rfl⟩⟩
      | cons e es => exact Or.inl ⟨rfl, Or.inr ⟨List.cons_ne_nil _ _, List.cons_ne_nil _ _⟩⟩

/-- A `with` statement is rebuilt, or nothing in it is tracked. -/
theorem rebuildWith_cases (items : List Expr) (body : List Stmt) (isAsync : Bool) (line : Nat) :
    (rebuildWith tracked items body isAsync line = [.withBlock items body isAsync line] ∧
      (body ≠ [] ∨ items.any (·.hasCall (isTracked tracked)) = true)) ∨
    (rebuildWith tracked items body isAsync line = [] ∧
      body = [] ∧ items.any (·.hasCall (isTracked tracked)) = false) := by
  unfold rebuildWith
  cases body with
  | cons s ss => exact Or.inl ⟨rfl, Or.inl (List.cons_ne_nil _ _)⟩
  | nil =>
    cases hitems : items.any (·.hasCall (isTracked tracked)) with
    | true => exact Or.inl ⟨rfl, Or.inr rfl⟩
    | false => exact Or.inr ⟨rfl, rfl, rfl⟩

/-- A `try` statement is rebuilt, or nothing in it is tracked. -/
theorem rebuildTry_cases (body : List Stmt) (handlers : List Handler) (orelse finalbody : List Stmt)
    (line : Nat) :
    (rebuildTry tracked body handlers orelse finalbody line =
        [.tryBlock body handlers orelse finalbody line] ∧
      (body ≠ [] ∨ orelse ≠ [] ∨ finalbody ≠ [] ∨ ∃ h ∈ handlers, h.keeps tracked = true)) ∨
    (rebuildTry tracked body handlers orelse finalbody line = [] ∧
      body = [] ∧ orelse = [] ∧ finalbody = [] ∧ ∀ h ∈ handlers, h.keeps tracked = false) := by
  unfold rebuildTry
  cases body with
  | cons s ss => exact Or.inl ⟨rfl, Or.inl (List.cons_ne_nil _ _)⟩
  | nil =>
    cases orelse with
    | cons s ss => exact Or.inl ⟨rfl, Or.inr (Or.inl (List.cons_ne_nil _ _))⟩
    | nil =>
      cases finalbody with
      | cons s ss => exact Or.inl ⟨rfl, Or.inr (Or.inr (Or.inl (List.cons_ne_nil _ _)))⟩
      | nil =>
        cases hany : handlers.any (·.keeps tracked) with
        | true => exact Or.inl ⟨rfl, Or.inr (Or.inr (Or.inr (List.any_eq_true.mp hany)))⟩
        | false =>
          refine Or.inr ⟨rfl, rfl, rfl, rfl, fun h hh => ?_⟩
          exact Bool.eq_false_iff.mpr (List.any_eq_false.mp hany h hh)

theorem keepTracked_cases (s : Stmt) :
    (prune.keepTracked tracked s = [s] ∧ s.hasCall (isTracked tracked) = true) ∨
    (prune.keepTracked tracked s = [] ∧ s.hasCall (isTracked tracked) = false) := by
  unfold prune.keepTracked
  cases hs : s.hasCall (isTracked tracked) with
  | true => exact Or.inl ⟨rfl, rfl⟩
  | false => exact Or.inr ⟨rfl, rfl⟩

/-! ## Decisions about empty blocks -/

variable {tracked}

/-- Without a tracked call in its test and without a first branch a conditional is its second branch. -/
theorem rebuildCond_nil_left {test : Expr} (h : test.hasCall (isTracked tracked) = false)
    (orelse : List Stmt) (line : Nat) : rebuildCond tracked test [] orelse line = orelse := by
  unfold rebuildCond
  rw [h]
  rfl

theorem rebuildCond_nil_right {test : Expr} (h : test.hasCall (isTracked tracked) = false)
    (body : List Stmt) (line : Nat) : rebuildCond tracked test body [] line = body := by
  unfold rebuildCond
  rw [h]
  cases body <;> rfl

theorem rebuildWith_nil {items : List Expr}
    (h : items.any (·.hasCall (isTracked tracked)) = false) (isAsync : Bool) (line : Nat) :
    rebuildWith tracked items [] isAsync line = [] := by
  unfold rebuildWith
  rw [h]
  rfl

theorem rebuildTry_nil {handlers : List Handler} (h : ∀ handler ∈ handlers, handler.keeps tracked = false)
    (line : Nat) : rebuildTry tracked [] handlers [] [] line = [] := by
  have hany : handlers.any (·.keeps tracked) = false :=
    List.any_eq_false.mpr fun handler hmem => Bool.eq_false_iff.mp (h handler hmem)
  unfold rebuildTry
  rw [hany]
  rfl

end Stmt

end ServiceTrace
