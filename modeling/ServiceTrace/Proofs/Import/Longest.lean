import ServiceTrace.Proofs.Import.Bindings

/-!
# `ServiceTrace.Proofs.Import.Longest` — the longest alias that a chain begins with

A chain is qualified through the longest alias that it begins with, the first one of several. The table
finds it in one pass, which keeps the best candidate so far. Keeping the longer one of two candidates is
associative, and having no candidate is neutral for it, so the pass can be cut anywhere
(`longest_append`), and a binding that was there before does not count again (`longest_addBinding`).

* `ImportTable.candidate?` — what a binding offers for a chain;
* `ImportTable.longest` — the candidate that a list of bindings ends up with;
* `ImportTable.length_le_longest`, `ImportTable.exists_of_longest` — it is one of the candidates, and no
  other is longer.
-/

namespace ServiceTrace

/-- What follows an alias in a chain is what follows it and a dot, when that is not empty. -/
theorem ImportTable.afterAlias?_eq_some_iff {localName : String} {chain rest : List Char} :
    afterAlias? localName chain = some rest ↔
      rest ≠ [] ∧ chain = localName.toList ++ '.' :: rest := by
  unfold afterAlias?
  constructor
  · intro h
    split at h
    · rename_i c rest' hdrop
      obtain rfl := Option.some.inj h
      exact ⟨List.cons_ne_nil _ _, by simpa using Text.dropInitial?_eq_some_iff.mp hdrop⟩
    · exact absurd h (by simp)
  · rintro ⟨hne, rfl⟩
    have hdrop : Text.dropInitial? (localName.toList ++ ['.']) (localName.toList ++ '.' :: rest) =
        some rest := Text.dropInitial?_eq_some_iff.mpr (by simp)
    rw [hdrop]
    cases rest with
    | nil => exact absurd rfl hne
    | cons c rest => rfl

namespace ImportTable

/-- A binding that a chain may be qualified through, with what follows its alias in the chain. -/
abbrev Candidate := (String × ImportTarget) × List Char

/-- The length of the alias of a candidate. -/
def Candidate.length (c : Candidate) : Nat :=
  c.1.1.utf8ByteSize

/-- What a binding offers for a chain. A wildcard offers nothing. -/
def candidate? (chain : String) (b : String × ImportTarget) : Option Candidate :=
  if b.2.isWildcard then none else (afterAlias? b.1 chain.toList).map (b, ·)

theorem binding_of_candidate? {chain : String} {b : String × ImportTarget} {c : Candidate}
    (h : candidate? chain b = some c) : c.1 = b := by
  unfold candidate? at h
  split at h
  · exact absurd h (by simp)
  · obtain ⟨rest, -, rfl⟩ := Option.map_eq_some_iff.mp h
    rfl

/-- The longer one of two candidates, the first one of two that are equally long. -/
def longerOf : Option Candidate → Option Candidate → Option Candidate
  | best, none => best
  | none, some c => some c
  | some best, some c => if best.length < c.length then some c else some best

/-- The candidate that a list of bindings ends up with for a chain. -/
def longest (chain : String) (bs : List (String × ImportTarget)) : Option Candidate :=
  bs.foldl (longerBinding chain) none

@[simp] theorem longerOf_none_right (best : Option Candidate) : longerOf best none = best := by
  cases best <;> rfl

@[simp] theorem longerOf_none_left (c : Option Candidate) : longerOf none c = c := by
  cases c <;> rfl

theorem longerOf_assoc (a b c : Option Candidate) :
    longerOf (longerOf a b) c = longerOf a (longerOf b c) := by
  cases a with
  | none => simp
  | some a =>
    cases b with
    | none => simp
    | some b =>
      cases c with
      | none => simp
      | some c =>
        by_cases hab : a.length < b.length
        · by_cases hbc : b.length < c.length
          · have hac : a.length < c.length := Nat.lt_trans hab hbc
            simp [longerOf, hab, hbc, hac]
          · simp [longerOf, hab, hbc]
        · by_cases hbc : b.length < c.length
          · simp [longerOf, hab, hbc]
          · have hac : ¬ a.length < c.length := by omega
            simp [longerOf, hab, hbc, hac]

/-- The pass over the bindings keeps the longer candidate. -/
theorem longerBinding_eq (chain : String) (best : Option Candidate) (b : String × ImportTarget) :
    longerBinding chain best b = longerOf best (candidate? chain b) := by
  unfold longerBinding candidate?
  by_cases hw : b.2.isWildcard = true
  · simp [hw]
  · rw [if_neg hw, if_neg hw]
    cases afterAlias? b.1 chain.toList with
    | none => simp
    | some rest => cases best <;> rfl

/-- The pass can start anew at any binding. -/
theorem foldl_longerBinding (chain : String) (bs : List (String × ImportTarget))
    (best : Option Candidate) :
    bs.foldl (longerBinding chain) best = longerOf best (longest chain bs) := by
  unfold longest
  -- the best candidate so far is arbitrary, for the pass over the rest starts with that of `b`
  induction bs generalizing best with
  | nil => simp
  | cons b bs ih =>
    rw [List.foldl_cons, List.foldl_cons, ih, ih (longerBinding chain none b), longerBinding_eq,
      longerBinding_eq, longerOf_none_left, longerOf_assoc]

theorem longest_append (chain : String) (as bs : List (String × ImportTarget)) :
    longest chain (as ++ bs) = longerOf (longest chain as) (longest chain bs) := by
  unfold longest
  rw [List.foldl_append, foldl_longerBinding]
  rfl

theorem longest_cons (chain : String) (b : String × ImportTarget)
    (bs : List (String × ImportTarget)) :
    longest chain (b :: bs) = longerOf (candidate? chain b) (longest chain bs) := by
  unfold longest
  rw [List.foldl_cons, foldl_longerBinding, longerBinding_eq, longerOf_none_left]
  rfl

theorem attribute?_eq_longest (t : ImportTable) (chain : String) :
    t.attribute? chain = (longest chain t.bindings).bind qualify? :=
  t.attribute?_eq_bindings chain

/-! ## The longest candidate -/

/-- No candidate is longer than the one that is kept. -/
theorem length_le_longest {chain : String} {bs : List (String × ImportTarget)}
    {b : String × ImportTarget} (hb : b ∈ bs) {c : Candidate} (hc : candidate? chain b = some c) :
    ∃ best, longest chain bs = some best ∧ c.length ≤ best.length := by
  induction bs with
  | nil => exact absurd hb List.not_mem_nil
  | cons b' bs ih =>
    rw [longest_cons]
    rcases List.mem_cons.mp hb with rfl | hb
    · rw [hc]
      cases hrest : longest chain bs with
      | none => exact ⟨c, rfl, Nat.le_refl _⟩
      | some rest =>
        by_cases hlt : c.length < rest.length
        · exact ⟨rest, if_pos hlt, Nat.le_of_lt hlt⟩
        · exact ⟨c, if_neg hlt, Nat.le_refl _⟩
    · obtain ⟨rest, hrest, hle⟩ := ih hb
      rw [hrest]
      cases hfirst : candidate? chain b' with
      | none => exact ⟨rest, rfl, hle⟩
      | some first =>
        by_cases hlt : first.length < rest.length
        · exact ⟨rest, if_pos hlt, hle⟩
        · exact ⟨first, if_neg hlt, by omega⟩

/-- The candidate that is kept is that of a binding. -/
theorem exists_of_longest {chain : String} {bs : List (String × ImportTarget)} {best : Candidate}
    (h : longest chain bs = some best) : ∃ b ∈ bs, candidate? chain b = some best := by
  induction bs with
  | nil => exact absurd h (by simp [longest])
  | cons b bs ih =>
    rw [longest_cons] at h
    cases hfirst : candidate? chain b with
    | none =>
      rw [hfirst, longerOf_none_left] at h
      obtain ⟨b', hb', hc⟩ := ih h
      exact ⟨b', List.mem_cons_of_mem b hb', hc⟩
    | some first =>
      cases hrest : longest chain bs with
      | none =>
        rw [hfirst, hrest, longerOf_none_right] at h
        exact ⟨b, List.mem_cons_self, hfirst.trans h⟩
      | some rest =>
        rw [hfirst, hrest, longerOf] at h
        split at h
        · obtain ⟨b', hb', hc⟩ := ih (hrest.trans h)
          exact ⟨b', List.mem_cons_of_mem b hb', hc⟩
        · exact ⟨b, List.mem_cons_self, hfirst.trans h⟩

/-- A binding counts once: when it is there already, its candidate changes nothing. -/
theorem longest_addBinding (chain : String) (bs : List (String × ImportTarget))
    (b : String × ImportTarget) :
    longest chain (addBinding bs b) = longerOf (longest chain bs) (candidate? chain b) := by
  unfold addBinding
  by_cases hb : b ∈ bs
  · rw [if_pos hb]
    cases hc : candidate? chain b with
    | none => simp
    | some c =>
      obtain ⟨best, hbest, hle⟩ := length_le_longest hb hc
      rw [hbest]
      exact (if_neg (Nat.not_lt.mpr hle)).symm
  · rw [if_neg hb, longest_append, longest_cons]
    simp [longest]

theorem longest_foldl_addBinding (chain : String) (as bs : List (String × ImportTarget)) :
    longest chain (bs.foldl addBinding as) = longerOf (longest chain as) (longest chain bs) := by
  induction bs generalizing as with
  | nil => simp [longest]
  | cons b bs ih => rw [List.foldl_cons, ih, longest_addBinding, longerOf_assoc, longest_cons]

end ImportTable

end ServiceTrace
