import ServiceTrace.Trace.Basic

/-!
# `ServiceTrace.Proofs.Import.Bindings` — a table read as its list of bindings

An entry of an import table carries a binding and the names that were called through it. Qualification
reads only the binding. So whatever is asked of a table has the same answer for any other table with the
same `ImportTable.bindings`, and a trace may note calls in a table while it still asks it questions.

* `ImportTable.bindings_mark`, `ImportTable.bindings_shadowing` — what operations do to the bindings;
* `ImportTable.plain?_congr`, `ImportTable.attribute?_congr` — qualification depends on nothing else;
* `Scope.classify_congr` — neither does the target of a call.
-/

namespace ServiceTrace

namespace ImportTable

/-! ## Bindings -/

/-- The bindings of a table in order, without the names that were called through them. -/
def bindings (t : ImportTable) : List (String × ImportTarget) :=
  t.entries.map fun e => (e.localName, e.target)

/-- Bindings with one more, unless they have it. -/
def addBinding (bs : List (String × ImportTarget)) (b : String × ImportTarget) :
    List (String × ImportTarget) :=
  if b ∈ bs then bs else bs ++ [b]

theorem bindings_add (t : ImportTable) (localName : String) (target : ImportTarget) :
    (t.add localName target).bindings = addBinding t.bindings (localName, target) := by
  have hmem : (t.entries.any fun e => e.localName = localName ∧ e.target = target) = true ↔
      (localName, target) ∈ t.bindings := by
    simp [bindings]
  unfold add addBinding
  by_cases h : (localName, target) ∈ t.bindings
  · rw [if_pos h, if_pos (hmem.mpr h)]
  · rw [if_neg h, if_neg (fun hc => h (hmem.mp hc))]
    simp [bindings]

theorem nodup_addBinding {bs : List (String × ImportTarget)} (h : bs.Nodup)
    (b : String × ImportTarget) : (addBinding bs b).Nodup := by
  unfold addBinding
  split
  · exact h
  · rename_i hb
    exact List.nodup_append.mpr ⟨h, by simp, fun x hx y hy hxy => hb (by
      rw [List.mem_singleton] at hy
      exact hy ▸ hxy ▸ hx)⟩

/-- What one more binding keeps is kept by every import statement. -/
theorem register_induction {P : ImportTable → Prop}
    (hadd : ∀ t localName target, P t → P (t.add localName target)) {resolve : Resolver}
    {package : List String} {t : ImportTable} (ht : P t) (s : Stmt) :
    P (register resolve package t s) := by
  have hfold : ∀ (name : ImportName → String) (target : ImportName → ImportTarget)
      (names : List ImportName) (t : ImportTable), P t →
      P (names.foldl (fun t n => t.add (name n) (target n)) t) := by
    intro name target names
    induction names with
    | nil => exact fun t ht => ht
    | cons n names ih => exact fun t ht => ih _ (hadd t _ _ ht)
  unfold register
  split
  · exact hfold _ _ _ t ht
  · split
    · exact ht
    · split
      · exact hadd t _ _ ht
      · exact hfold _ _ _ t ht
  · exact ht

/-- What holds of the empty table and is kept by one more binding holds of the table of every list of
    statements. -/
theorem ofStmts_induction {P : ImportTable → Prop} (hempty : P empty)
    (hadd : ∀ t localName target, P t → P (t.add localName target)) (resolve : Resolver)
    (package : List String) (stmts : List Stmt) : P (ofStmts resolve package stmts) := by
  unfold ofStmts
  suffices ∀ t : ImportTable, P t → P (stmts.foldl (register resolve package) t) from this empty hempty
  induction stmts with
  | nil => exact fun t ht => ht
  | cons s ss ih => exact fun t ht => ih _ (register_induction hadd ht s)

/-- The table of a list of statements binds nothing twice. -/
theorem nodup_bindings_ofStmts (resolve : Resolver) (package : List String) (stmts : List Stmt) :
    (ofStmts resolve package stmts).bindings.Nodup := by
  refine ofStmts_induction (P := fun t => t.bindings.Nodup) List.nodup_nil ?_ resolve package stmts
  intro t localName target h
  rw [bindings_add]
  exact nodup_addBinding h _

theorem bindings_shadowing (inner outer : ImportTable) :
    (inner.shadowing outer).bindings = outer.bindings.foldl addBinding inner.bindings := by
  unfold shadowing bindings
  rw [List.foldl_map]
  generalize outer.entries = es
  induction es generalizing inner with
  | nil => rfl
  | cons e es ih =>
    rw [List.foldl_cons, List.foldl_cons, ih]
    exact congrArg (es.foldl _ ·) (bindings_add inner e.localName e.target)

/-- What is bound in two scopes together is bound in one of them. -/
theorem mem_bindings_shadowing {inner outer : ImportTable} {b : String × ImportTarget} :
    b ∈ (inner.shadowing outer).bindings ↔ b ∈ inner.bindings ∨ b ∈ outer.bindings := by
  rw [bindings_shadowing]
  generalize inner.bindings = acc
  induction outer.bindings generalizing acc with
  | nil => simp
  | cons b' bs ih =>
    rw [List.foldl_cons, ih, addBinding, List.mem_cons]
    split
    · rename_i hmem
      constructor
      · exact fun h => h.imp_right .inr
      · rintro (h | rfl | h)
        · exact .inl h
        · exact .inl hmem
        · exact .inr h
    · rw [List.mem_append, List.mem_singleton, or_assoc]

/-- A scope around which nothing is bound twice adds nothing to the empty one but itself. -/
theorem bindings_shadowing_of_isEmpty {inner outer : ImportTable} (hi : inner.isEmpty = true)
    (ho : outer.bindings.Nodup) : (inner.shadowing outer).bindings = outer.bindings := by
  have hinner : inner.bindings = [] := by
    simpa [isEmpty, bindings] using hi
  rw [bindings_shadowing, hinner]
  suffices ∀ acc bs : List (String × ImportTarget), (acc ++ bs).Nodup →
      bs.foldl addBinding acc = acc ++ bs from this [] outer.bindings ho
  intro acc bs
  induction bs generalizing acc with
  | nil => intro _; simp
  | cons b bs ih =>
    intro h
    have hb : b ∉ acc := by
      intro hc
      exact (List.nodup_append.mp h).2.2 b hc b List.mem_cons_self rfl
    rw [List.foldl_cons, addBinding, if_neg hb, ih (acc ++ [b]) (by simpa using h)]
    simp

theorem bindings_mark (t : ImportTable) (localName name : String) :
    (t.mark localName name).bindings = t.bindings := by
  unfold mark bindings
  show (mark.go localName name t.entries).map _ = t.entries.map _
  induction t.entries with
  | nil => rfl
  | cons e es ih =>
    unfold mark.go
    split
    · rfl
    · rw [List.map_cons, List.map_cons, ih]

/-! ## Qualification reads bindings only -/

/-- The symbol that a binding gives a plain name. -/
def symbolOf? (name : String) : String × ImportTarget → Option Qualified
  | (localName, .symbol module imported) =>
    if localName = name then some ⟨localName, module, imported⟩ else none
  | _ => none

/-- What a wildcard makes of a plain name. -/
def wildcardOf? (name : String) : String × ImportTarget → Option Qualified
  | (localName, .wildcard module) => some ⟨localName, module, name⟩
  | _ => none

theorem plain?_eq_bindings (t : ImportTable) (name : String) :
    t.plain? name =
      (t.bindings.findSome? (symbolOf? name)).or (t.bindings.findSome? (wildcardOf? name)) := by
  unfold plain? bindings
  rw [List.findSome?_map, List.findSome?_map]
  show (t.entries.findSome? _).or (t.entries.findSome? _) = _
  congr 2 <;> funext e <;> obtain ⟨localName, target, referenced⟩ := e <;> cases target <;> rfl

theorem plain?_congr {t t' : ImportTable} (h : t.bindings = t'.bindings) (name : String) :
    t.plain? name = t'.plain? name := by
  rw [plain?_eq_bindings, plain?_eq_bindings, h]

/-- The better one of the best binding so far and the next one. -/
def longerBinding (chain : String) (best : Option ((String × ImportTarget) × List Char))
    (b : String × ImportTarget) : Option ((String × ImportTarget) × List Char) :=
  if b.2.isWildcard then best
  else
    match afterAlias? b.1 chain.toList, best with
    | none, _ => best
    | some rest, none => some (b, rest)
    | some rest, some (current, _) =>
      if current.1.utf8ByteSize < b.1.utf8ByteSize then some (b, rest) else best

/-- The binding of a candidate entry. -/
def bindingOf : ImportEntry × List Char → (String × ImportTarget) × List Char
  | (e, rest) => ((e.localName, e.target), rest)

theorem map_longer (chain : String) (best : Option (ImportEntry × List Char)) (e : ImportEntry) :
    (bestFor?.longer chain best e).map bindingOf =
      longerBinding chain (best.map bindingOf) (e.localName, e.target) := by
  unfold bestFor?.longer longerBinding
  by_cases hw : e.target.isWildcard = true
  · simp [hw]
  · simp only [hw]
    cases afterAlias? e.localName chain.toList with
    | none => rfl
    | some rest =>
      cases best with
      | none => rfl
      | some current =>
        obtain ⟨c, crest⟩ := current
        by_cases hl : c.localName.utf8ByteSize < e.localName.utf8ByteSize <;>
          simp [bindingOf, hl]

theorem bestFor?_eq_bindings (t : ImportTable) (chain : String) :
    (t.bestFor? chain).map bindingOf = t.bindings.foldl (longerBinding chain) none := by
  unfold bestFor? bindings
  rw [List.foldl_map]
  suffices ∀ (es : List ImportEntry) (best : Option (ImportEntry × List Char)),
      (es.foldl (bestFor?.longer chain) best).map bindingOf =
        es.foldl (fun b e => longerBinding chain b (e.localName, e.target)) (best.map bindingOf) from
    this t.entries none
  intro es
  induction es with
  | nil => exact fun _ => rfl
  | cons e es ih => intro best; rw [List.foldl_cons, List.foldl_cons, ih, map_longer]

/-- What the best binding makes of a chain. -/
def qualify? : (String × ImportTarget) × List Char → Option Qualified
  | ((localName, target), rest) =>
    match target, Text.splitLast? '.' rest with
    | .whole module, none => some ⟨localName, module, String.ofList rest⟩
    | .whole module, some (middle, name) =>
      some ⟨localName, module ++ "." ++ String.ofList middle, String.ofList name⟩
    | .symbol module _, none => some ⟨localName, module, String.ofList rest⟩
    | _, _ => none

theorem attribute?_eq_bindings (t : ImportTable) (chain : String) :
    t.attribute? chain = (t.bindings.foldl (longerBinding chain) none).bind qualify? := by
  rw [← bestFor?_eq_bindings]
  unfold attribute?
  cases t.bestFor? chain with
  | none => rfl
  | some best => rfl

theorem attribute?_congr {t t' : ImportTable} (h : t.bindings = t'.bindings) (chain : String) :
    t.attribute? chain = t'.attribute? chain := by
  rw [attribute?_eq_bindings, attribute?_eq_bindings, h]

end ImportTable

/-- The target of a call depends on what is declared and on the bindings. -/
theorem Scope.classify_congr {a b : Scope} (hd : a.declared = b.declared)
    (hi : a.imports.bindings = b.imports.bindings) (c : Call) : a.classify c = b.classify c := by
  have hname : ∀ id, a.classifyName id = b.classifyName id := by
    intro id
    unfold Scope.classifyName
    rw [hd, ImportTable.plain?_congr hi]
  have hchain : ∀ chain, a.classifyChain chain = b.classifyChain chain := by
    intro chain
    unfold Scope.classifyChain
    rw [hd, ImportTable.attribute?_congr hi]
  unfold Scope.classify
  simp only [hname, hchain]

end ServiceTrace
