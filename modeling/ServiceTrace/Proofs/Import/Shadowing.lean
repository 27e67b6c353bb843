import ServiceTrace.Proofs.Import.Longest
import ServiceTrace.Proofs.Text.Split

/-!
# `ServiceTrace.Proofs.Import.Shadowing` — an inner scope over an outer one

The bindings of a function stand in front of those of its module. What a chain is qualified through in the
two scopes together follows from what it is qualified through in each of them: the longer alias wins, and the
inner one of two that are equally long (`attribute?_shadowing`). A plain name is looked up among the symbols
of both scopes first, and among their wildcards after that (`plain?_shadowing`).

So an inner alias shadows an outer one of the same name, but not an outer one that goes on behind it:
`ImportTable.Overrides` says when that is the case, and `ImportTable.layered` is what a scope can rely on.
-/

namespace ServiceTrace

/-- An entry that a chain can be qualified through: no wildcard, and its alias, a dot and something more
    make up the chain. -/
def ImportEntry.Begins (e : ImportEntry) (chain : String) : Prop :=
  e.target.isWildcard = false ∧ ∃ rest, rest ≠ [] ∧ chain.toList = e.localName.toList ++ '.' :: rest

namespace ImportTable

/-- A table has a symbol of a name. -/
def HasSymbol (t : ImportTable) (name : String) : Prop :=
  ∃ e ∈ t.entries, e.localName = name ∧ ∃ module imported, e.target = .symbol module imported

/-- A table has a wildcard. -/
def HasWildcard (t : ImportTable) : Prop :=
  ∃ e ∈ t.entries, e.target.isWildcard = true

/-- An outer scope overrides an inner one for a chain: one of its aliases begins the chain and is longer than
    every alias of the inner scope that does. -/
def Overrides (outer inner : ImportTable) (chain : String) : Prop :=
  ∃ e ∈ outer.entries, e.Begins chain ∧
    ∀ i ∈ inner.entries, i.Begins chain → i.localName.utf8ByteSize < e.localName.utf8ByteSize

/-! ## Chains -/

/-- The entries that a chain can be qualified through are those that offer a candidate. -/
theorem begins_iff {e : ImportEntry} {chain : String} :
    e.Begins chain ↔ ∃ c : Candidate, candidate? chain (e.localName, e.target) = some c ∧
      c.length = e.localName.utf8ByteSize := by
  unfold ImportEntry.Begins candidate?
  by_cases hw : e.target.isWildcard = true
  · simp [hw]
  · simp only [hw, Bool.false_eq_true, if_false, true_and, Option.map_eq_some_iff,
      afterAlias?_eq_some_iff]
    constructor
    · rintro ⟨rest, hne, hchain⟩
      exact ⟨((e.localName, e.target), rest), ⟨rest, ⟨hne, hchain⟩, rfl⟩, rfl⟩
    · rintro ⟨-, ⟨rest, ⟨hne, hchain⟩, rfl⟩, -⟩
      exact ⟨rest, hne, hchain⟩

/-- No entry that begins the chain has a longer alias than the candidate that a table ends up with. -/
theorem le_longest_of_begins {t : ImportTable} {e : ImportEntry} (he : e ∈ t.entries) {chain : String}
    (hb : e.Begins chain) :
    ∃ best, longest chain t.bindings = some best ∧ e.localName.utf8ByteSize ≤ best.length := by
  obtain ⟨c, hc, hlength⟩ := begins_iff.mp hb
  have hmem : (e.localName, e.target) ∈ t.bindings := List.mem_map_of_mem he
  obtain ⟨best, hbest, hle⟩ := length_le_longest hmem hc
  exact ⟨best, hbest, hlength ▸ hle⟩

/-- The candidate that a table ends up with is that of an entry that begins the chain. -/
theorem exists_begins_of_longest {t : ImportTable} {chain : String} {best : Candidate}
    (h : longest chain t.bindings = some best) :
    ∃ e ∈ t.entries, e.Begins chain ∧ e.localName.utf8ByteSize = best.length := by
  obtain ⟨b, hb, hc⟩ := exists_of_longest h
  obtain ⟨e, he, rfl⟩ := List.mem_map.mp hb
  have hlength : best.length = e.localName.utf8ByteSize := by
    unfold Candidate.length
    rw [binding_of_candidate? hc]
  exact ⟨e, he, begins_iff.mpr ⟨best, hc, hlength⟩, hlength.symm⟩

/-- An outer scope overrides an inner one when its candidate is the longer one. -/
theorem overrides_iff {inner outer : ImportTable} {chain : String} :
    outer.Overrides inner chain ↔
      ∃ c, longest chain outer.bindings = some c ∧
        ∀ best, longest chain inner.bindings = some best → best.length < c.length := by
  constructor
  · rintro ⟨e, he, hb, hlonger⟩
    obtain ⟨c, hc, hle⟩ := le_longest_of_begins he hb
    refine ⟨c, hc, fun best hbest => ?_⟩
    obtain ⟨i, hi, hib, hlength⟩ := exists_begins_of_longest hbest
    have hlt := hlonger i hi hib
    omega
  · rintro ⟨c, hc, hlonger⟩
    obtain ⟨e, he, hb, hlength⟩ := exists_begins_of_longest hc
    refine ⟨e, he, hb, fun i hi hib => ?_⟩
    obtain ⟨best, hbest, hle⟩ := le_longest_of_begins hi hib
    have hlt := hlonger best hbest
    omega

/-- A chain is qualified through the longer one of the aliases that the two scopes offer. -/
theorem attribute?_shadowing (inner outer : ImportTable) (chain : String) :
    (inner.shadowing outer).attribute? chain =
      (longerOf (longest chain inner.bindings) (longest chain outer.bindings)).bind qualify? := by
  rw [attribute?_eq_longest, bindings_shadowing, longest_foldl_addBinding]

theorem attribute?_of_not_overrides {inner outer : ImportTable} {chain : String}
    (h : ¬ outer.Overrides inner chain) :
    (inner.shadowing outer).attribute? chain = inner.attribute? chain := by
  rw [attribute?_shadowing, attribute?_eq_longest]
  congr 1
  cases hc : longest chain outer.bindings with
  | none => simp
  | some c =>
    cases hbest : longest chain inner.bindings with
    | none => exact absurd (overrides_iff.mpr ⟨c, hc, by simp [hbest]⟩) h
    | some best =>
      refine if_neg fun hlt => h (overrides_iff.mpr ⟨c, hc, fun best' hbest' => ?_⟩)
      obtain rfl : best = best' := Option.some.inj (hbest.symm.trans hbest')
      exact hlt

theorem attribute?_of_overrides {inner outer : ImportTable} {chain : String}
    (h : outer.Overrides inner chain) :
    (inner.shadowing outer).attribute? chain = outer.attribute? chain := by
  rw [attribute?_shadowing, attribute?_eq_longest]
  congr 1
  obtain ⟨c, hc, hlonger⟩ := overrides_iff.mp h
  rw [hc]
  cases hbest : longest chain inner.bindings with
  | none => simp
  | some best => exact if_pos (hlonger best hbest)

/-- The first part of a chain is what stands in front of the first dot. -/
theorem head?_split_eq {chain : String} {front tail : List Char} (hfront : '.' ∉ front)
    (hchain : chain.toList = front ++ '.' :: tail) :
    (Text.split '.' chain).head? = some (String.ofList front) := by
  unfold Text.split
  rw [hchain, Text.splitAt_append_cons, Text.splitAt_of_not_mem hfront]
  rfl

/-- Where the first part of a chain is an alias of the inner scope, only a longer alias that goes on behind it
    can override that. -/
theorem Overrides.extends {inner outer : ImportTable} {chain : String}
    (h : outer.Overrides inner chain) {i : ImportEntry} (hi : i ∈ inner.entries)
    (hw : i.target.isWildcard = false) (hfirst : (Text.split '.' chain).head? = some i.localName) :
    ∃ e ∈ outer.entries, e.Begins chain ∧ ∃ more, e.localName.toList = i.localName.toList ++ '.' :: more := by
  obtain ⟨e, he, ⟨hew, rest, hne, hchain⟩, hlonger⟩ := h
  refine ⟨e, he, ⟨hew, rest, hne, hchain⟩, ?_⟩
  by_cases hdot : '.' ∈ e.localName.toList
  · -- the alias is cut at its first dot, which is also the first dot of the chain
    obtain ⟨front, more, hcut, hfront⟩ := List.eq_append_cons_of_mem hdot
    rw [hcut, List.append_assoc, List.cons_append] at hchain
    rw [head?_split_eq hfront hchain] at hfirst
    exact ⟨more, by rw [hcut, ← Option.some.inj hfirst, String.toList_ofList]⟩
  · -- without a dot the alias is the first part itself, and no longer than the inner one
    rw [head?_split_eq hdot hchain, String.ofList_toList] at hfirst
    have hname : e.localName = i.localName := Option.some.inj hfirst
    have hlt := hlonger i hi ⟨hw, rest, hne, hname ▸ hchain⟩
    rw [hname] at hlt
    exact absurd hlt (Nat.lt_irrefl _)

/-! ## Plain names -/

theorem findSome?_addBinding {β : Type} (f : String × ImportTarget → Option β)
    (bs : List (String × ImportTarget)) (b : String × ImportTarget) :
    (addBinding bs b).findSome? f = (bs.findSome? f).or (f b) := by
  unfold addBinding
  by_cases hb : b ∈ bs
  · rw [if_pos hb]
    cases hbs : bs.findSome? f with
    | none => rw [List.findSome?_eq_none_iff.mp hbs b hb]; rfl
    | some x => rfl
  · rw [if_neg hb, List.findSome?_append]
    cases hfb : f b <;> simp [hfb]

theorem findSome?_foldl_addBinding {β : Type} (f : String × ImportTarget → Option β)
    (as bs : List (String × ImportTarget)) :
    (bs.foldl addBinding as).findSome? f = (as.findSome? f).or (bs.findSome? f) := by
  induction bs generalizing as with
  | nil => simp
  | cons b bs ih =>
    rw [List.foldl_cons, ih, findSome?_addBinding, Option.or_assoc]
    cases hfb : f b <;> simp [hfb]

/-- A plain name is qualified through a symbol of the inner scope or else of the outer one, and through a
    wildcard when there is no symbol. -/
theorem plain?_shadowing (inner outer : ImportTable) (name : String) :
    (inner.shadowing outer).plain? name =
      ((inner.bindings.findSome? (symbolOf? name)).or (outer.bindings.findSome? (symbolOf? name))).or
        ((inner.bindings.findSome? (wildcardOf? name)).or
          (outer.bindings.findSome? (wildcardOf? name))) := by
  rw [plain?_eq_bindings, bindings_shadowing, findSome?_foldl_addBinding, findSome?_foldl_addBinding]

theorem isSome_symbolOf?_iff {t : ImportTable} {name : String} :
    (t.bindings.findSome? (symbolOf? name)).isSome = true ↔ t.HasSymbol name := by
  unfold bindings HasSymbol
  rw [List.findSome?_map, List.findSome?_isSome_iff]
  apply exists_congr
  rintro ⟨localName, target, referenced⟩
  apply and_congr_right
  intro _
  cases target <;> simp [symbolOf?]

theorem isSome_wildcardOf?_iff {t : ImportTable} (name : String) :
    (t.bindings.findSome? (wildcardOf? name)).isSome = true ↔ t.HasWildcard := by
  unfold bindings HasWildcard
  rw [List.findSome?_map, List.findSome?_isSome_iff]
  apply exists_congr
  rintro ⟨localName, target, referenced⟩
  apply and_congr_right
  intro _
  cases target <;> simp [wildcardOf?, ImportTarget.isWildcard]

/-- A symbol of the inner scope shadows whatever the outer one has under its name. -/
theorem plain?_of_hasSymbol {inner : ImportTable} {name : String} (h : inner.HasSymbol name)
    (outer : ImportTable) : (inner.shadowing outer).plain? name = inner.plain? name := by
  obtain ⟨hit, hhit⟩ := Option.isSome_iff_exists.mp (isSome_symbolOf?_iff.mpr h)
  rw [plain?_shadowing, plain?_eq_bindings, hhit]
  rfl

/-- Without a symbol in the outer scope, its wildcards count when the inner one has none. -/
theorem plain?_of_not_hasSymbol {inner outer : ImportTable} {name : String}
    (hsymbol : ¬ outer.HasSymbol name) (hwildcard : inner.HasWildcard ∨ ¬ outer.HasWildcard) :
    (inner.shadowing outer).plain? name = inner.plain? name := by
  have hnone : outer.bindings.findSome? (symbolOf? name) = none := by
    simpa [← isSome_symbolOf?_iff] using hsymbol
  rw [plain?_shadowing, plain?_eq_bindings, hnone, Option.or_none]
  congr 1
  rcases hwildcard with hinner | houter
  · obtain ⟨hit, hhit⟩ := Option.isSome_iff_exists.mp ((isSome_wildcardOf?_iff name).mpr hinner)
    rw [hhit]
    rfl
  · have hnone : outer.bindings.findSome? (wildcardOf? name) = none := by
      simpa [← isSome_wildcardOf?_iff name] using houter
    rw [hnone, Option.or_none]

/-! ## Two scopes -/

/-- What a scope can rely on when it stands in front of another one. -/
structure Layered (inner outer : ImportTable) : Prop where
  /-- A chain is qualified as in the inner scope, unless the outer one overrides it. -/
  kept : ∀ chain, ¬ outer.Overrides inner chain →
    (inner.shadowing outer).attribute? chain = inner.attribute? chain
  /-- Where the outer scope overrides the inner one, the chain is qualified as in the outer scope. -/
  overridden : ∀ chain, outer.Overrides inner chain →
    (inner.shadowing outer).attribute? chain = outer.attribute? chain
  /-- An alias of the inner scope with which a chain starts is only overridden by a longer alias that goes on
      behind it with a dot. -/
  extended : ∀ chain, outer.Overrides inner chain → ∀ i ∈ inner.entries,
    i.target.isWildcard = false → (Text.split '.' chain).head? = some i.localName →
    ∃ e ∈ outer.entries, e.Begins chain ∧ ∃ more, e.localName.toList = i.localName.toList ++ '.' :: more
  /-- A plain name is qualified as in the inner scope when it is a symbol there, or when the outer scope has
      neither a symbol of that name nor the only wildcard. -/
  names : ∀ name,
    inner.HasSymbol name ∨ ¬ outer.HasSymbol name ∧ (inner.HasWildcard ∨ ¬ outer.HasWildcard) →
    (inner.shadowing outer).plain? name = inner.plain? name

/-- **An inner scope shadows an outer one, except for longer aliases.** -/
theorem layered (inner outer : ImportTable) : inner.Layered outer where
  kept _ := attribute?_of_not_overrides
  overridden _ := attribute?_of_overrides
  extended _ h _ hi hw hfirst := h.extends hi hw hfirst
  names _ h := h.elim (fun hsymbol => plain?_of_hasSymbol hsymbol outer)
    fun ⟨hsymbol, hwildcard⟩ => plain?_of_not_hasSymbol hsymbol hwildcard

/-- The imports of a function: the data base of a store, and a function that opens it. -/
def storeImports : ImportTable :=
  ⟨[⟨"db", .whole "store.db", .empty⟩, ⟨"connect", .symbol "store.db" "connect", .empty⟩]⟩

/-- The imports of the module around it: a part of an older data base, a function that opens it, and one
    that has the name of the data base. -/
def legacyImports : ImportTable :=
  ⟨[⟨"db.legacy", .whole "db.legacy", .empty⟩, ⟨"connect", .symbol "legacy" "connect", .empty⟩,
    ⟨"db", .symbol "legacy" "db", .empty⟩]⟩

/-- In the function `db.query` and `connect` are those of the store. -/
theorem store_layered :
    (¬ legacyImports.Overrides storeImports "db.query" ∧
      (storeImports.shadowing legacyImports).attribute? "db.query" =
        some ⟨"db", "store.db", "query"⟩) ∧
    (legacyImports.Overrides storeImports "db.legacy.query" ∧
      (storeImports.shadowing legacyImports).attribute? "db.legacy.query" =
        some ⟨"db.legacy", "db.legacy", "query"⟩) ∧
    (storeImports.HasSymbol "connect" ∧
      (storeImports.shadowing legacyImports).plain? "connect" =
        some ⟨"connect", "store.db", "connect"⟩) := by
  have hquery : ¬ legacyImports.Overrides storeImports "db.query" := by
    -- both scopes offer `db`, and the outer one has to be longer
    have houter : longest "db.query" legacyImports.bindings =
        some (("db", .symbol "legacy" "db"), "query".toList) := by decide +kernel
    have hinner : longest "db.query" storeImports.bindings =
        some (("db", .whole "store.db"), "query".toList) := by decide +kernel
    rw [overrides_iff, houter]
    rintro ⟨c, hc, hlonger⟩
    obtain rfl := Option.some.inj hc
    exact absurd (hlonger _ hinner) (by decide)
  have hlegacy : legacyImports.Overrides storeImports "db.legacy.query" := by
    rw [overrides_iff]
    refine ⟨(("db.legacy", .whole "db.legacy"), "query".toList), by decide +kernel, fun best hbest => ?_⟩
    have hstore : longest "db.legacy.query" storeImports.bindings =
        some (("db", .whole "store.db"), "legacy.query".toList) := by decide +kernel
    obtain rfl := Option.some.inj (hstore.symm.trans hbest)
    decide
  have hconnect : storeImports.HasSymbol "connect" :=
    ⟨_, .tail _ (.head _), rfl, "store.db", "connect", rfl⟩
  have hlayered := layered storeImports legacyImports
  refine ⟨⟨hquery, ?_⟩, ⟨hlegacy, ?_⟩, ⟨hconnect, ?_⟩⟩
  · exact (hlayered.kept "db.query" hquery).trans (by decide +kernel)
  · exact (hlayered.overridden "db.legacy.query" hlegacy).trans (by decide +kernel)
  · exact (hlayered.names "connect" (.inl hconnect)).trans (by decide +kernel)

/-- Although `db` is an alias of the function, the longer alias of the module is taken for `db.legacy.query`,
    and `db` alone is the function of that name. -/
theorem db_not_shadowed :
    (∃ i ∈ storeImports.entries, i.localName = "db" ∧ i.target.isWildcard = false) ∧
    (Text.split '.' "db.legacy.query").head? = some "db" ∧
    (storeImports.shadowing legacyImports).attribute? "db.legacy.query" ≠
      storeImports.attribute? "db.legacy.query" ∧
    (storeImports.shadowing legacyImports).plain? "db" ≠ storeImports.plain? "db" := by
  refine ⟨⟨_, .head _, rfl, rfl⟩, ?_, ?_, ?_⟩ <;> decide +kernel

end ImportTable

end ServiceTrace
