import ServiceTrace.Proofs.Import.Longest

/-!
# `ServiceTrace.Proofs.Import.Marks` — which entry a call goes through, and which one is marked

A qualified call goes through one binding of the scope: the one that the lookup selects
(`Scope.through?`). It is marked in the table of the module under its alias alone, in the first entry that
has this alias. A table in which a list of calls has been marked therefore says of an entry, in
`mem_referenced_markAll`, which of them were made through its alias, when it is the first of that alias, and
nothing otherwise.

* `ImportTable.markAll` — a table with a list of calls marked in it;
* `ImportTable.chainBinding?`, `ImportTable.plainBinding?`, `Scope.through?` — the selected binding;
* `Scope.through?_of_imported` — it has the alias that the call is qualified by.
-/

namespace ServiceTrace

namespace ImportTable

/-! ## Marked tables -/

/-- A table with a list of calls marked in it, one after the other. -/
def markAll (t : ImportTable) (hits : List Qualified) : ImportTable :=
  hits.foldl (fun t hit => t.mark hit.localName hit.name) t

@[simp] theorem markAll_nil (t : ImportTable) : t.markAll [] = t :=
  rfl

theorem markAll_append (t : ImportTable) (hits hits' : List Qualified) :
    t.markAll (hits ++ hits') = (t.markAll hits).markAll hits' :=
  List.foldl_append

theorem bindings_markAll (t : ImportTable) (hits : List Qualified) :
    (t.markAll hits).bindings = t.bindings := by
  induction hits generalizing t with
  | nil => rfl
  | cons hit hits ih =>
    show ((t.mark hit.localName hit.name).markAll hits).bindings = _
    rw [ih, bindings_mark]

/-- An entry with the names of a list of calls added to those that were called through it. -/
def noteAll (e : ImportEntry) (hits : List Qualified) : ImportEntry :=
  { e with referenced := (hits.map Qualified.name).foldl NameSet.insert e.referenced }

@[simp] theorem localName_noteAll (e : ImportEntry) (hits : List Qualified) :
    (noteAll e hits).localName = e.localName :=
  rfl

/-- The first entry takes the calls under its alias and leaves the others to the entries behind it. -/
theorem entries_markAll_cons (e : ImportEntry) (es : List ImportEntry) (hits : List Qualified) :
    (markAll ⟨e :: es⟩ hits).entries =
      noteAll e (hits.filter (·.localName = e.localName)) ::
        (markAll ⟨es⟩ (hits.filter (·.localName ≠ e.localName))).entries := by
  -- the table changes with every call that is marked, so both its parts are arbitrary
  induction hits generalizing e es with
  | nil => rfl
  | cons hit hits ih =>
    show (markAll ⟨mark.go hit.localName hit.name (e :: es)⟩ hits).entries = _
    by_cases h : hit.localName = e.localName
    · rw [mark.go, if_pos h.symm, ih, List.filter_cons_of_pos (by simpa using h),
        List.filter_cons_of_neg (by simpa using h)]
      rfl
    · rw [mark.go, if_neg (Ne.symm h), ih, List.filter_cons_of_neg (by simpa using h),
        List.filter_cons_of_pos (by simpa using h)]
      rfl

/-- **What is marked in an entry.** An entry of a table that had no marks holds the names that were called
    through its alias, when it is the first entry with that alias, and no names otherwise. -/
theorem mem_referenced_markAll {t : ImportTable} (hempty : ∀ e ∈ t.entries, e.referenced = .empty)
    (hnodup : t.bindings.Nodup) {hits : List Qualified} {e : ImportEntry}
    (he : e ∈ (t.markAll hits).entries) {name : String} :
    name ∈ e.referenced ↔
      (t.markAll hits).entries.find? (·.localName = e.localName) = some e ∧
        ∃ hit ∈ hits, hit.localName = e.localName ∧ hit.name = name := by
  obtain ⟨es⟩ := t
  -- by the entries: those behind the first one only see the calls that it has let through
  induction es generalizing hits with
  | nil =>
    have hnone : (markAll ⟨[]⟩ hits).entries = [] :=
      List.map_eq_nil_iff.mp (bindings_markAll ⟨[]⟩ hits)
    rw [hnone] at he
    exact absurd he List.not_mem_nil
  | cons e₀ es ih =>
    have hfirst : e₀.referenced = .empty := hempty e₀ List.mem_cons_self
    obtain ⟨hnew, hrest⟩ := List.nodup_cons.mp hnodup
    rw [entries_markAll_cons] at he ⊢
    rcases List.mem_cons.mp he with rfl | he
    · rw [List.find?_cons_of_pos (by simp)]
      simp [noteAll, hfirst, NameSet.mem_foldl_insert, and_assoc]
    · rw [ih (fun e he => hempty e (List.mem_cons_of_mem e₀ he)) hrest he]
      by_cases h : e₀.localName = e.localName
      · -- the calls under this alias are marked in the first entry, and that is another one
        have hne : noteAll e₀ (hits.filter (·.localName = e₀.localName)) ≠ e := by
          intro heq
          apply hnew
          show (e₀.localName, e₀.target) ∈ ImportTable.bindings ⟨es⟩
          rw [← bindings_markAll ⟨es⟩ (hits.filter (·.localName ≠ e₀.localName))]
          exact List.mem_map.mpr ⟨e, he, by rw [← heq]; rfl⟩
        rw [List.find?_cons_of_pos (by simp [h])]
        constructor
        · rintro ⟨-, hit, hmem, hname, -⟩
          have hother := (List.mem_filter.mp hmem).2
          simp [hname, h] at hother
        · rintro ⟨hfound, -⟩
          exact absurd (Option.some.inj hfound) hne
      · rw [List.find?_cons_of_neg (by simp [h])]
        refine and_congr_right fun _ => exists_congr fun hit => ?_
        rw [List.mem_filter, and_assoc]
        refine and_congr_right fun _ => ⟨And.right, fun hhit => ⟨?_, hhit⟩⟩
        simpa [hhit.1] using Ne.symm h

/-! ## Fresh tables -/

/-- A table that is made from statements has no marks. -/
theorem referenced_ofStmts (resolve : Resolver) (package : List String) (stmts : List Stmt) :
    ∀ e ∈ (ofStmts resolve package stmts).entries, e.referenced = .empty := by
  refine ofStmts_induction (P := fun t => ∀ e ∈ t.entries, e.referenced = .empty)
    (fun _ he => absurd he List.not_mem_nil) ?_ resolve package stmts
  intro t localName target h e he
  unfold add at he
  split at he
  · exact h e he
  · rcases List.mem_append.mp he with he | he
    · exact h e he
    · obtain rfl := List.mem_singleton.mp he
      rfl

/-! ## Selected bindings -/

/-- The binding that a chain is qualified through. -/
def chainBinding? (t : ImportTable) (chain : String) : Option (String × ImportTarget) :=
  (t.bestFor? chain).map fun (e, _) => (e.localName, e.target)

/-- The binding that a plain name is qualified through: the first symbol of that name, or else the first
    wildcard. -/
def plainBinding? (t : ImportTable) (name : String) : Option (String × ImportTarget) :=
  (t.bindings.find? fun b => (symbolOf? name b).isSome).or
    (t.bindings.find? fun b => (wildcardOf? name b).isSome)

theorem chainBinding?_eq_longest (t : ImportTable) (chain : String) :
    t.chainBinding? chain = (longest chain t.bindings).map (·.1) := by
  have hlongest : longest chain t.bindings = (t.bestFor? chain).map bindingOf :=
    (bestFor?_eq_bindings t chain).symm
  rw [hlongest, Option.map_map]
  rfl

theorem localName_of_qualify? {c : Candidate} {hit : Qualified} (h : qualify? c = some hit) :
    hit.localName = c.1.1 := by
  obtain ⟨⟨localName, target⟩, rest⟩ := c
  unfold qualify? at h
  cases target <;> cases hrest : Text.splitLast? '.' rest <;> simp [hrest] at h <;> simp [← h]

/-- A qualified chain goes through a binding of the table with the alias that it is qualified by. -/
theorem chainBinding?_of_attribute? {t : ImportTable} {chain : String} {hit : Qualified}
    (h : t.attribute? chain = some hit) :
    ∃ target, t.chainBinding? chain = some (hit.localName, target) ∧
      (hit.localName, target) ∈ t.bindings := by
  rw [attribute?_eq_longest] at h
  obtain ⟨c, hbest, hhit⟩ := Option.bind_eq_some_iff.mp h
  obtain ⟨b, hb, hc⟩ := exists_of_longest hbest
  obtain rfl := binding_of_candidate? hc
  rw [localName_of_qualify? hhit]
  exact ⟨c.1.2, by rw [chainBinding?_eq_longest, hbest]; rfl, hb⟩

/-- The first binding that gives something is the one that the search finds. -/
theorem findSome?_eq_find?_bind {β : Type} (f : String × ImportTarget → Option β)
    (bs : List (String × ImportTarget)) :
    bs.findSome? f = (bs.find? fun b => (f b).isSome).bind f := by
  induction bs with
  | nil => rfl
  | cons b bs ih => cases hb : f b <;> simp [hb, ih]

theorem localName_of_symbolOf? {name : String} {b : String × ImportTarget} {hit : Qualified}
    (h : symbolOf? name b = some hit) : hit.localName = b.1 := by
  obtain ⟨localName, target⟩ := b
  cases target <;> simp [symbolOf?] at h
  simp [← h.2]

theorem localName_of_wildcardOf? {name : String} {b : String × ImportTarget} {hit : Qualified}
    (h : wildcardOf? name b = some hit) : hit.localName = b.1 := by
  obtain ⟨localName, target⟩ := b
  cases target <;> simp [wildcardOf?] at h
  simp [← h]

/-- A qualified name goes through a binding of the table with the alias that it is qualified by. -/
theorem plainBinding?_of_plain? {t : ImportTable} {name : String} {hit : Qualified}
    (h : t.plain? name = some hit) :
    ∃ target, t.plainBinding? name = some (hit.localName, target) ∧
      (hit.localName, target) ∈ t.bindings := by
  rw [plain?_eq_bindings, findSome?_eq_find?_bind, findSome?_eq_find?_bind] at h
  unfold plainBinding?
  cases hsymbol : t.bindings.find? fun b => (symbolOf? name b).isSome with
  | some b =>
    obtain ⟨found, hfound⟩ := Option.isSome_iff_exists.mp
      (List.find?_some (p := fun b => (symbolOf? name b).isSome) hsymbol)
    rw [hsymbol, Option.bind_some, hfound] at h
    obtain rfl : found = hit := Option.some.inj h
    rw [localName_of_symbolOf? hfound]
    exact ⟨b.2, rfl, List.mem_of_find?_eq_some hsymbol⟩
  | none =>
    rw [hsymbol, Option.bind_none, Option.none_or] at h
    obtain ⟨b, hwildcard, hhit⟩ := Option.bind_eq_some_iff.mp h
    rw [localName_of_wildcardOf? hhit]
    exact ⟨b.2, hwildcard, List.mem_of_find?_eq_some hwildcard⟩

end ImportTable

namespace Scope

/-- The binding that a call is qualified through, when it is qualified. -/
def through? (scope : Scope) (c : Call) : Option (String × ImportTarget) :=
  match c.func with
  | .name id => scope.imports.plainBinding? id
  | .attribute value attr => (Expr.attribute value attr).dottedName?.bind scope.imports.chainBinding?
  | _ => none

/-- A qualified call goes through a binding of its scope with the alias that it is qualified by. -/
theorem through?_of_imported {scope : Scope} {c : Call} {hit : Qualified}
    (h : scope.classify c = .imported hit) :
    ∃ target, scope.through? c = some (hit.localName, target) ∧
      (hit.localName, target) ∈ scope.imports.bindings := by
  unfold classify at h
  unfold through?
  split at h
  · exact absurd h (by simp)
  · split at h
    · rename_i id hfunc
      unfold classifyName at h
      split at h
      · exact absurd h (by simp)
      · split at h
        · rename_i hit' hplain
          obtain rfl : hit' = hit := by simpa using h
          simpa only [hfunc] using ImportTable.plainBinding?_of_plain? hplain
        · exact absurd h (by simp)
    · rename_i value attr hfunc
      split at h
      · rename_i chain hchain
        unfold classifyChain at h
        split at h
        · exact absurd h (by simp)
        · split at h
          · rename_i hit' hattribute
            obtain rfl : hit' = hit := by simpa using h
            simpa only [hfunc, hchain, Option.bind_some] using
              ImportTable.chainBinding?_of_attribute? hattribute
          · exact absurd h (by simp)
      · exact absurd h (by simp)
    · exact absurd h (by simp)

end Scope

end ServiceTrace
