import ServiceTrace.Proofs.Ast.Traversal
import ServiceTrace.Proofs.Prune.Composition
import ServiceTrace.Proofs.Prune.Survival

/-!
# `ServiceTrace.Proofs.Prune.Reduced` — the shape of a reduced block

Pruning decides about a statement by asking whether its reduced blocks are empty. That is the right question
only if a reduced block is non-empty exactly when it holds a tracked call, and the blocks are reduced one
inside the other.

`Stmt.Left` says what pruning leaves of a statement. It is proved decision by decision: a decision reads
reduced blocks and header expressions, and a statement that it rebuilds holds a tracked call because one of
these parts does (`Stmt.hasCall_of_block`), whatever the way in which `Stmt.hasCall` goes through the
statement. The blocks of a rebuilt statement are reduced bodies again, so the same is true inside them
(`Stmt.BlockIn`), down to the `match` statements, which stay as they were written.

* **`prune_reduced`** — every block of a reduced body is reduced (`Stmt.IsReduced`), and the body is empty
  exactly when no tracked call survives.
-/

namespace ServiceTrace

namespace Stmt

/-- Statements that no reduced block has: loops, jumps, `return`, `delete`, `pass`, imports and
    definitions. -/
def isDropped : Stmt → Bool
  | .forLoop _ _ _ _ _ _ | .whileLoop _ _ _ _ | .ret _ _ | .delete _ _ | .pass _ | .breakLoop _
  | .continueLoop _ | .imports _ _ | .importFrom _ _ _ _ | .function _ | .classDef _ => true
  | _ => false

/-- Statements that are put together again from reduced blocks. -/
def isRebuilt : Stmt → Bool
  | .cond _ _ _ _ | .withBlock _ _ _ _ | .tryBlock _ _ _ _ _ => true
  | _ => false

/-- A block of a body: the body itself, or a block of a rebuilt statement in such a block. -/
inductive BlockIn (body : List Stmt) : List Stmt → Prop where
  | whole : BlockIn body body
  | inner {block b : List Stmt} {s : Stmt} (h : BlockIn body block) (hs : s ∈ block)
      (hrebuilt : s.isRebuilt = true) (hb : b ∈ s.blocks) : BlockIn body b

/-- A block as pruning leaves it. -/
structure IsReduced (tracked : NameSet) (block : List Stmt) : Prop where
  holds : ∀ s ∈ block, s.hasCall (isTracked tracked) = true
  nonempty : block ≠ [] ↔ anyHasCall (isTracked tracked) block = true
  kept : ∀ s ∈ block, s.isDropped = false
  /-- A conditional stays for its test, or for the choice between its branches. -/
  branches : ∀ test body orelse line, .cond test body orelse line ∈ block →
    test.hasCall (isTracked tracked) = false → body ≠ [] ∧ orelse ≠ []

end Stmt

/-! ## Tracked calls in the parts of a statement -/

section Parts

variable {p : Call → Bool}

theorem Stmt.hasCall_of_block {s : Stmt} {b : List Stmt} (hb : b ∈ s.blocks)
    (h : Stmt.anyHasCall p b = true) : s.hasCall p = true := by
  rw [Stmt.anyHasCall_eq_any, List.any_eq_true] at h
  obtain ⟨c, hc, hp⟩ := h
  rw [Stmt.hasCall_eq_any, List.any_eq_true]
  exact ⟨c, Stmt.deepCallsIn_subset_of_block hb hc, hp⟩

theorem Handler.anyHasCall_of_types {h : Handler} {hs : List Handler} (hmem : h ∈ hs)
    (htypes : h.types.any (·.hasCall p) = true) : Handler.anyHasCall p hs = true := by
  induction hmem with
  | head hs =>
    obtain ⟨types, body, line⟩ := h
    rw [Handler.anyHasCall, Handler.hasCall, htypes, Bool.true_or, Bool.true_or]
  | tail g _ ih => rw [Handler.anyHasCall, ih, Bool.or_true]

theorem Stmt.anyHasCall_of_ne_nil {block : List Stmt} (h : ∀ s ∈ block, s.hasCall p = true)
    (hne : block ≠ []) : Stmt.anyHasCall p block = true := by
  cases block with
  | nil => exact absurd rfl hne
  | cons s ss => rw [Stmt.anyHasCall, h s List.mem_cons_self, Bool.true_or]

end Parts

/-! ## Decisions leave reduced statements -/

namespace Stmt

variable {tracked : NameSet}

/-- What pruning leaves a statement as: it holds a tracked call, and its blocks are reduced bodies. -/
structure Left (tracked : NameSet) (s : Stmt) : Prop where
  holds : s.hasCall (isTracked tracked) = true
  kept : s.isDropped = false
  blocks : s.isRebuilt = true → ∀ b ∈ s.blocks, ∃ whole, b = pruneIn tracked whole
  branches : ∀ test body orelse line, s = .cond test body orelse line →
    test.hasCall (isTracked tracked) = false → body ≠ [] ∧ orelse ≠ []

theorem anyHasCall_of_left {block : List Stmt} (h : ∀ s ∈ block, Left tracked s) (hne : block ≠ []) :
    anyHasCall (isTracked tracked) block = true :=
  anyHasCall_of_ne_nil (fun s hs => (h s hs).holds) hne

theorem left_rebuildCond {body orelse : List Stmt} (hbody : ∀ s ∈ pruneIn tracked body, Left tracked s)
    (horelse : ∀ s ∈ pruneIn tracked orelse, Left tracked s) (test : Expr) (line : Nat) :
    ∀ s ∈ rebuildCond tracked test (pruneIn tracked body) (pruneIn tracked orelse) line,
      Left tracked s := by
  rcases rebuildCond_cases tracked test (pruneIn tracked body) (pruneIn tracked orelse) line with
    ⟨hkept, hreason⟩ | ⟨-, ⟨-, hleft⟩ | ⟨-, hleft⟩⟩
  · rw [hkept]
    intro s hs
    obtain rfl := List.mem_singleton.mp hs
    refine ⟨?_, rfl, ?_, ?_⟩
    · rcases hreason with htest | ⟨hne, -⟩
      · rw [hasCall, htest, Bool.true_or, Bool.true_or]
      · exact hasCall_of_block List.mem_cons_self (anyHasCall_of_left hbody hne)
    · intro _ b hb
      rcases List.mem_cons.mp hb with rfl | hb
      · exact ⟨body, rfl⟩
      · exact ⟨orelse, List.mem_singleton.mp hb⟩
    · rintro _ _ _ _ ⟨⟩ htest
      exact hreason.resolve_left (Bool.eq_false_iff.mp htest)
  · rw [hleft]
    exact horelse
  · rw [hleft]
    exact hbody

theorem left_rebuildWith {body : List Stmt} (hbody : ∀ s ∈ pruneIn tracked body, Left tracked s)
    (items : List Expr) (isAsync : Bool) (line : Nat) :
    ∀ s ∈ rebuildWith tracked items (pruneIn tracked body) isAsync line, Left tracked s := by
  rcases rebuildWith_cases tracked items (pruneIn tracked body) isAsync line with
    ⟨hkept, hreason⟩ | ⟨hleft, -⟩
  · rw [hkept]
    intro s hs
    obtain rfl := List.mem_singleton.mp hs
    refine ⟨?_, rfl, ?_, by rintro _ _ _ _ ⟨⟩⟩
    · rcases hreason with hne | hitems
      · exact hasCall_of_block List.mem_cons_self (anyHasCall_of_left hbody hne)
      · rw [hasCall, hitems, Bool.true_or]
    · intro _ b hb
      exact ⟨body, List.mem_singleton.mp hb⟩
  · rw [hleft]
    intro s hs
    exact absurd hs List.not_mem_nil

theorem left_rebuildTry {body orelse finalbody : List Stmt} {handlers : List Handler}
    (hbody : ∀ s ∈ pruneIn tracked body, Left tracked s)
    (hhandlers : ∀ h ∈ handlers, ∀ s ∈ pruneIn tracked h.body, Left tracked s)
    (horelse : ∀ s ∈ pruneIn tracked orelse, Left tracked s)
    (hfinalbody : ∀ s ∈ pruneIn tracked finalbody, Left tracked s) (line : Nat) :
    ∀ s ∈ rebuildTry tracked (pruneIn tracked body) (Handler.pruneAll tracked handlers)
      (pruneIn tracked orelse) (pruneIn tracked finalbody) line, Left tracked s := by
  have hpruned : ∀ h ∈ Handler.pruneAll tracked handlers, ∃ g ∈ handlers, h = g.prune tracked := by
    intro h hh
    rw [Handler.pruneAll_eq_map, List.mem_map] at hh
    obtain ⟨g, hg, rfl⟩ := hh
    exact ⟨g, hg, rfl⟩
  rcases rebuildTry_cases tracked (pruneIn tracked body) (Handler.pruneAll tracked handlers)
    (pruneIn tracked orelse) (pruneIn tracked finalbody) line with ⟨hkept, hreason⟩ | ⟨hleft, -⟩
  · rw [hkept]
    intro s hs
    obtain rfl := List.mem_singleton.mp hs
    refine ⟨?_, rfl, ?_, by rintro _ _ _ _ ⟨⟩⟩
    · rcases hreason with hne | hne | hne | ⟨h, hh, hkeeps⟩
      · exact hasCall_of_block (by simp [blocks]) (anyHasCall_of_left hbody hne)
      · exact hasCall_of_block (by simp [blocks]) (anyHasCall_of_left horelse hne)
      · exact hasCall_of_block (by simp [blocks]) (anyHasCall_of_left hfinalbody hne)
      · -- a clause keeps the statement for its block or for its types
        rcases Bool.or_eq_true_iff.mp hkeeps with hne | htypes
        · obtain ⟨⟨types, block, line⟩, hg, rfl⟩ := hpruned h hh
          have hblock : pruneIn tracked block ≠ [] := by
            rintro hnil
            rw [Handler.prune, hnil] at hne
            exact Bool.false_ne_true hne
          apply hasCall_of_block (b := pruneIn tracked block)
          · simp only [blocks, List.cons_append, List.mem_cons, List.mem_append, List.mem_map]
            exact .inr (.inl ⟨_, hh, rfl⟩)
          · exact anyHasCall_of_left (hhandlers _ hg) hblock
        · rw [hasCall, Handler.anyHasCall_of_types hh htypes, Bool.or_true, Bool.true_or, Bool.true_or]
    · intro _ b hb
      simp only [blocks, List.cons_append, List.mem_cons, List.mem_append, List.mem_map,
        List.not_mem_nil, or_false] at hb
      rcases hb with rfl | ⟨h, hh, rfl⟩ | rfl | rfl
      · exact ⟨body, rfl⟩
      · obtain ⟨⟨types, block, line⟩, -, rfl⟩ := hpruned h hh
        exact ⟨block, rfl⟩
      · exact ⟨orelse, rfl⟩
      · exact ⟨finalbody, rfl⟩
  · rw [hleft]
    intro s hs
    exact absurd hs List.not_mem_nil

theorem left_keepTracked {s : Stmt} (hrebuilt : s.isRebuilt = false) (hkept : s.isDropped = false) :
    ∀ t ∈ prune.keepTracked tracked s, Left tracked t := by
  rcases keepTracked_cases tracked s with ⟨hwhole, hs⟩ | ⟨hleft, -⟩
  · rw [hwhole]
    intro t ht
    obtain rfl := List.mem_singleton.mp ht
    refine ⟨hs, hkept, ?_, ?_⟩
    · intro h
      rw [hrebuilt] at h
      exact absurd h Bool.false_ne_true
    · rintro _ _ _ _ rfl
      exact Bool.noConfusion hrebuilt
  · rw [hleft]
    intro t ht
    exact absurd ht List.not_mem_nil

end Stmt

/-! ## From decisions to bodies -/

section Bodies

variable {tracked : NameSet}

mutual

theorem Stmt.left_prune : ∀ s : Stmt, ∀ t ∈ s.prune tracked, Stmt.Left tracked t
  | .cond test body orelse line => by
    rw [Stmt.prune_cond]
    exact Stmt.left_rebuildCond (Stmt.left_pruneIn body) (Stmt.left_pruneIn orelse) test line
  | .forLoop _ _ body _ _ _ | .whileLoop _ body _ _ => by
    rw [Stmt.prune]
    exact Stmt.left_pruneIn body
  | .withBlock items body isAsync line => by
    rw [Stmt.prune_with]
    exact Stmt.left_rebuildWith (Stmt.left_pruneIn body) items isAsync line
  | .tryBlock body handlers orelse finalbody line => by
    rw [Stmt.prune_try]
    exact Stmt.left_rebuildTry (Stmt.left_pruneIn body) (Handler.left_pruneAll handlers)
      (Stmt.left_pruneIn orelse) (Stmt.left_pruneIn finalbody) line
  | .expr _ _ | .assign _ _ _ _ | .matchBlock _ _ _ | .raise _ _ | .other _ _ _ => by
    rw [Stmt.prune]
    exact Stmt.left_keepTracked rfl rfl
  | .function _ | .classDef _ | .ret _ _ | .breakLoop _ | .continueLoop _ | .pass _
  | .delete _ _ | .imports _ _ | .importFrom _ _ _ _ => by
    rw [Stmt.prune]
    intro t ht
    exact absurd ht List.not_mem_nil

theorem Stmt.left_pruneIn : ∀ ss : List Stmt, ∀ t ∈ Stmt.pruneIn tracked ss, Stmt.Left tracked t
  | [] => by
    intro t ht
    exact absurd ht List.not_mem_nil
  | s :: ss => by
    rw [Stmt.pruneIn]
    intro t ht
    rcases List.mem_append.mp ht with ht | ht
    · exact Stmt.left_prune s t ht
    · exact Stmt.left_pruneIn ss t ht

theorem Handler.left_pruneAll : ∀ hs : List Handler, ∀ h ∈ hs, ∀ t ∈ Stmt.pruneIn tracked h.body,
    Stmt.Left tracked t
  | [] => by
    intro h hh
    exact absurd hh List.not_mem_nil
  | ⟨types, body, line⟩ :: hs => by
    intro h hh
    rcases List.mem_cons.mp hh with rfl | hh
    · exact Stmt.left_pruneIn body
    · exact Handler.left_pruneAll hs h hh

end

theorem Stmt.isReduced_pruneIn (body : List Stmt) :
    Stmt.IsReduced tracked (Stmt.pruneIn tracked body) where
  holds := fun s hs => (Stmt.left_pruneIn body s hs).holds
  nonempty := by
    constructor
    · exact Stmt.anyHasCall_of_left (Stmt.left_pruneIn body)
    · rintro htracked hnil
      rw [hnil] at htracked
      exact Bool.false_ne_true htracked
  kept := fun s hs => (Stmt.left_pruneIn body s hs).kept
  branches := fun test body' orelse line hs => (Stmt.left_pruneIn body _ hs).branches _ _ _ _ rfl

/-- The blocks of a reduced body are reduced bodies. -/
theorem Stmt.BlockIn.exists_eq_pruneIn {body block : List Stmt}
    (h : Stmt.BlockIn (Stmt.pruneIn tracked body) block) : ∃ whole, block = Stmt.pruneIn tracked whole := by
  induction h with
  | whole => exact ⟨body, rfl⟩
  | inner _ hs hrebuilt hb ih =>
    obtain ⟨whole, rfl⟩ := ih
    exact (Stmt.left_pruneIn whole _ hs).blocks hrebuilt _ hb

end Bodies

/-- A body with a tracked call that survives does not prune to nothing. -/
theorem Stmt.pruneIn_ne_nil {tracked : NameSet} {body : List Stmt} {c : Call}
    (hc : c ∈ Stmt.survivingIn body) (htracked : isTracked tracked c = true) :
    Stmt.pruneIn tracked body ≠ [] := by
  intro hnil
  have hretains : Retains (isTracked tracked) (Stmt.callsIn (Stmt.pruneIn tracked body))
      (Stmt.survivingIn body) := Stmt.retains_pruneIn body
  have hmem : c ∈ (Stmt.survivingIn body).filter (isTracked tracked) := List.mem_filter.mpr ⟨hc, htracked⟩
  rw [← hretains.filter_eq, hnil] at hmem
  exact List.not_mem_nil hmem

/-- **A reduced block is non-empty exactly when it holds a tracked call**: this is so for a pruned body and
    for every block that pruning rebuilt inside it. Each of their statements holds a tracked call, none is of
    a kind that is dropped, and a conditional with nothing tracked in its test has both branches. A body with
    a tracked call that survives leaves something behind. -/
theorem prune_reduced (tracked : NameSet) (body : List Stmt) :
    (∀ block, Stmt.BlockIn (Stmt.pruneIn tracked body) block → Stmt.IsReduced tracked block) ∧
      ∀ c ∈ Stmt.survivingIn body, isTracked tracked c = true → Stmt.pruneIn tracked body ≠ [] := by
  constructor
  · intro block hblock
    obtain ⟨whole, rfl⟩ := hblock.exists_eq_pruneIn
    exact Stmt.isReduced_pruneIn whole
  · intro c hc htracked
    exact Stmt.pruneIn_ne_nil hc htracked

/-- The first branch of the conditional in `checkoutBody`. -/
def paidBranch : List Stmt :=
  [.expr (.call ⟨.name "log", [], [], 2, none⟩) 2, .expr (.call ⟨.name "ship", [], [], 3, none⟩) 3]

/-- The call in its loop. -/
def shipItem : Call :=
  ⟨.attribute (.name "item") "ship", [], [], 7, none⟩

/-- With both names tracked the branch stays a block of its own, and the call in the loop survives. -/
theorem checkout_reduced :
    Stmt.BlockIn (Stmt.pruneIn (.ofList ["log", "ship"]) checkoutBody) paidBranch ∧
    Stmt.IsReduced (.ofList ["log", "ship"]) paidBranch ∧
    shipItem ∈ Stmt.survivingIn checkoutBody ∧ isTracked (.ofList ["log", "ship"]) shipItem = true ∧
    Stmt.pruneIn (.ofList ["log", "ship"]) checkoutBody ≠ [] := by
  have hblock : Stmt.BlockIn (Stmt.pruneIn (.ofList ["log", "ship"]) checkoutBody) paidBranch :=
    .inner .whole List.mem_cons_self rfl List.mem_cons_self
  have hcall : shipItem ∈ Stmt.survivingIn checkoutBody := by
    simp [shipItem, checkoutBody, Stmt.survivingIn, Stmt.surviving, Stmt.calls, Expr.calls, Call.innerCalls]
  have htracked : isTracked (.ofList ["log", "ship"]) shipItem = true := by decide +kernel
  obtain ⟨hreduced, hne⟩ := prune_reduced (.ofList ["log", "ship"]) checkoutBody
  exact ⟨hblock, hreduced paidBranch hblock, hcall, htracked, hne shipItem hcall htracked⟩

end ServiceTrace
