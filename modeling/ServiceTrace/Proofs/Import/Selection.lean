import ServiceTrace.Proofs.Import.Shadowing

/-!
# `ServiceTrace.Proofs.Import.Selection` — which entry qualifies a chain, and to what

A chain is qualified through one entry of the table. It is the entry with the longest of the aliases that
begin the chain, and the earliest of several (`ImportTable.Selects`). The pass over the table compares
aliases by their bytes; since all aliases that begin one chain are prefixes of each other, it is the same to
count their characters. What the selected entry stands for then decides the outcome alone: behind a module
all of the chain is kept, behind a symbol one more component is, and no shorter alias is tried when there are
more.

`ImportTable.Reached` are the tables that the operations make, and `ImportTable.Reached.qualifies` says what
holds of each of them.
-/

namespace ServiceTrace

/-! ## Tables that are made -/

namespace ImportTable

/-- The tables that are made from the empty one by binding, by import statements, by putting one scope over
    another and by marking. -/
inductive Reached : ImportTable → Prop
  | empty : Reached .empty
  | add {t : ImportTable} (localName : String) (target : ImportTarget) (h : Reached t) :
      Reached (t.add localName target)
  | register {t : ImportTable} (resolve : Resolver) (package : List String) (s : Stmt) (h : Reached t) :
      Reached (t.register resolve package s)
  | shadowing {inner outer : ImportTable} (hinner : Reached inner) (houter : Reached outer) :
      Reached (inner.shadowing outer)
  | mark {t : ImportTable} (localName name : String) (h : Reached t) : Reached (t.mark localName name)

theorem nodup_foldl_addBinding {as : List (String × ImportTarget)} (h : as.Nodup)
    (bs : List (String × ImportTarget)) : (bs.foldl addBinding as).Nodup := by
  induction bs generalizing as with
  | nil => exact h
  | cons b bs ih => exact ih (nodup_addBinding h b)

/-- No operation binds an alias to a target twice. -/
theorem Reached.nodup_bindings {t : ImportTable} (h : t.Reached) : t.bindings.Nodup := by
  have hadd : ∀ (t : ImportTable) (localName : String) (target : ImportTarget),
      t.bindings.Nodup → (t.add localName target).bindings.Nodup := by
    intro t localName target h
    rw [bindings_add]
    exact nodup_addBinding h _
  induction h with
  | empty => exact List.nodup_nil
  | add localName target _ ih => exact hadd _ localName target ih
  | register resolve package s _ ih =>
    exact register_induction (P := fun t => t.bindings.Nodup) hadd ih s
  | shadowing _ _ ih _ =>
    rw [bindings_shadowing]
    exact nodup_foldl_addBinding ih _
  | mark localName name _ ih =>
    rw [bindings_mark]
    exact ih

end ImportTable

/-! ## The selected entry -/

/-- Of two aliases that begin one chain, the longer one in bytes is the longer one in characters. -/
theorem utf8ByteSize_lt_iff_length_lt {a b : String} {chain : List Char} (ha : a.toList <+: chain)
    (hb : b.toList <+: chain) : a.utf8ByteSize < b.utf8ByteSize ↔ a.length < b.length := by
  have hlonger : ∀ {a b : String}, a.toList <+: b.toList →
      a = b ∨ a.utf8ByteSize < b.utf8ByteSize ∧ a.length < b.length := by
    rintro a b ⟨more, hmore⟩
    have hb : b = a ++ String.ofList more := by
      rw [← String.toList_inj, String.toList_append, String.toList_ofList, hmore]
    by_cases hempty : more = []
    · left
      rw [hb, hempty]
      simp
    · right
      have hsize : 0 < (String.ofList more).utf8ByteSize := by
        rw [Nat.pos_iff_ne_zero, ne_eq, String.utf8ByteSize_eq_zero_iff]
        simpa using hempty
      have hlength := List.length_pos_iff.mpr hempty
      rw [hb, String.utf8ByteSize_append, String.length_append, String.length_ofList]
      omega
  rcases List.prefix_or_prefix_of_prefix ha hb with hab | hba
  · rcases hlonger hab with rfl | hlt
    · simp
    · exact iff_of_true hlt.1 hlt.2
  · rcases hlonger hba with rfl | hlt
    · simp
    · omega

/-- An alias that begins a chain is a prefix of it. -/
theorem ImportEntry.Begins.prefix_chain {e : ImportEntry} {chain : String} (h : e.Begins chain) :
    e.localName.toList <+: chain.toList := by
  obtain ⟨-, rest, -, hchain⟩ := h
  exact ⟨'.' :: rest, hchain.symm⟩

/-- Of the members of a list that have a property, one is the first of the greatest. -/
theorem exists_first_greatest {α : Type} {p : α → Prop} (size : α → Nat) {xs : List α}
    (h : ∃ x ∈ xs, p x) :
    ∃ before x after, xs = before ++ x :: after ∧ p x ∧ (∀ y ∈ before, p y → size y < size x) ∧
      ∀ y ∈ after, p y → size y ≤ size x := by
  induction xs with
  | nil =>
    obtain ⟨x, hx, -⟩ := h
    exact absurd hx List.not_mem_nil
  | cons x xs ih =>
    by_cases hrest : ∃ y ∈ xs, p y
    · obtain ⟨before, y, after, rfl, hy, hbefore, hafter⟩ := ih hrest
      by_cases hx : p x ∧ size y ≤ size x
      · -- the first member is at least as great as the greatest of the others
        refine ⟨[], x, before ++ y :: after, rfl, hx.1, by simp, ?_⟩
        intro z hz hpz
        rcases List.mem_append.mp hz with hz | hz
        · have := hbefore z hz hpz
          omega
        · rcases List.mem_cons.mp hz with rfl | hz
          · exact hx.2
          · have := hafter z hz hpz
            omega
      · refine ⟨x :: before, y, after, rfl, hy, ?_, hafter⟩
        intro z hz hpz
        rcases List.mem_cons.mp hz with rfl | hz
        · have := not_and.mp hx hpz
          omega
        · exact hbefore z hz hpz
    · refine ⟨[], x, xs, rfl, ?_, by simp, ?_⟩
      · obtain ⟨y, hy, hpy⟩ := h
        rcases List.mem_cons.mp hy with rfl | hy
        · exact hpy
        · exact absurd ⟨y, hy, hpy⟩ hrest
      · intro z hz hpz
        exact absurd ⟨z, hz, hpz⟩ hrest

namespace ImportTable

variable {t : ImportTable} {chain : String} {e : ImportEntry}

/-- The entry that a chain is qualified through: of the entries whose alias, a dot and something more make
    up the chain, the one with the longest alias, and the earliest of those. -/
def Selects (t : ImportTable) (chain : String) (e : ImportEntry) : Prop :=
  ∃ before after, t.entries = before ++ e :: after ∧ e.Begins chain ∧
    (∀ i ∈ before, i.Begins chain → i.localName.length < e.localName.length) ∧
    ∀ i ∈ after, i.Begins chain → i.localName.length ≤ e.localName.length

theorem exists_selects (h : ∃ e ∈ t.entries, e.Begins chain) : ∃ e, t.Selects chain e := by
  obtain ⟨before, e, after, hentries, he, hbefore, hafter⟩ :=
    exists_first_greatest (fun e : ImportEntry => e.localName.length) h
  exact ⟨e, before, after, hentries, he, hbefore, hafter⟩

/-- A selected entry offers the candidate that the table ends up with. -/
theorem Selects.longest_eq (h : t.Selects chain e) :
    ∃ c, longest chain t.bindings = some c ∧ candidate? chain (e.localName, e.target) = some c := by
  obtain ⟨before, after, hentries, he, hbefore, hafter⟩ := h
  obtain ⟨c, hc, hlength⟩ := begins_iff.mp he
  have hbindings : t.bindings = bindings ⟨before⟩ ++ (e.localName, e.target) :: bindings ⟨after⟩ := by
    simp [bindings, hentries]
  have hfront : longerOf (longest chain (bindings ⟨before⟩)) (some c) = some c := by
    cases hbest : longest chain (bindings ⟨before⟩) with
    | none => rfl
    | some best =>
      obtain ⟨i, hi, hbegins, hsize⟩ := exists_begins_of_longest hbest
      have hlt := (utf8ByteSize_lt_iff_length_lt hbegins.prefix_chain he.prefix_chain).mpr
        (hbefore i hi hbegins)
      exact if_pos (by omega)
  have hback : longerOf (some c) (longest chain (bindings ⟨after⟩)) = some c := by
    cases hbest : longest chain (bindings ⟨after⟩) with
    | none => rfl
    | some best =>
      obtain ⟨i, hi, hbegins, hsize⟩ := exists_begins_of_longest hbest
      have hle := mt (utf8ByteSize_lt_iff_length_lt he.prefix_chain hbegins.prefix_chain).mp
        (Nat.not_lt.mpr (hafter i hi hbegins))
      exact if_neg (by omega)
  refine ⟨c, ?_, hc⟩
  rw [hbindings, longest_append, longest_cons, hc, hback, hfront]

/-- A chain is qualified by what its selected entry makes of the rest behind the alias. -/
theorem Selects.attribute?_eq (h : t.Selects chain e) {rest : List Char}
    (hchain : chain.toList = e.localName.toList ++ '.' :: rest) :
    t.attribute? chain = qualify? ((e.localName, e.target), rest) := by
  obtain ⟨c, hlongest, hc⟩ := h.longest_eq
  have hrest : c = ((e.localName, e.target), rest) := by
    unfold candidate? at hc
    split at hc
    · exact absurd hc nofun
    · obtain ⟨rest', hafter, rfl⟩ := Option.map_eq_some_iff.mp hc
      obtain ⟨-, hcut⟩ := afterAlias?_eq_some_iff.mp hafter
      rw [hchain] at hcut
      have hsame := List.append_cancel_left hcut
      rw [List.cons.injEq] at hsame
      rw [hsame.2]
  rw [attribute?_eq_longest, hlongest, hrest]
  rfl

/-- Without an alias that begins it, a chain is not qualified. -/
theorem attribute?_of_not_begins (h : ∀ e ∈ t.entries, ¬ e.Begins chain) :
    t.attribute? chain = none := by
  rw [attribute?_eq_longest]
  cases hbest : longest chain t.bindings with
  | none => rfl
  | some best =>
    obtain ⟨e, he, hbegins, -⟩ := exists_begins_of_longest hbest
    exact absurd hbegins (h e he)

/-! ## What a chain is qualified to -/

/-- A module takes in all of the chain but its last component, which becomes the name. -/
theorem qualify?_whole (localName module : String) (rest : List Char) :
    ∃ hit, qualify? ((localName, .whole module), rest) = some hit ∧ hit.localName = localName ∧
      hit.module ++ "." ++ hit.name = module ++ "." ++ String.ofList rest ∧
      (Text.split '.' (String.ofList rest)).getLast? = some hit.name := by
  cases hlast : Text.splitLast? '.' rest with
  | none =>
    have hno : '.' ∉ (String.ofList rest).toList := by
      rw [String.toList_ofList]
      exact Text.splitLast?_eq_none_iff.mp hlast
    have hhit : qualify? ((localName, .whole module), rest) =
        some ⟨localName, module, String.ofList rest⟩ := by
      simp only [qualify?, hlast]
    refine ⟨_, hhit, rfl, rfl, ?_⟩
    rw [Text.split_of_not_mem hno]
    rfl
  | some parts =>
    obtain ⟨middle, name⟩ := parts
    have hno : '.' ∉ (String.ofList name).toList := by
      rw [String.toList_ofList]
      exact Text.not_mem_of_splitLast? hlast
    have hrest : String.ofList rest = String.ofList middle ++ "." ++ String.ofList name := by
      rw [← String.toList_inj, Text.of_splitLast? hlast]
      simp
    have hhit : qualify? ((localName, .whole module), rest) =
        some ⟨localName, module ++ "." ++ String.ofList middle, String.ofList name⟩ := by
      simp only [qualify?, hlast]
    refine ⟨_, hhit, rfl, ?_, ?_⟩
    · simp only [hrest, String.append_assoc]
    · rw [hrest, Text.getLast?_split_append rfl, Text.split_of_not_mem hno]
      rfl

/-- A symbol takes one component. -/
theorem qualify?_symbol (localName module name rest : String) :
    qualify? ((localName, .symbol module name), rest.toList) =
      if '.' ∈ rest.toList then none else some ⟨localName, module, rest⟩ := by
  by_cases hdot : '.' ∈ rest.toList
  · rw [if_pos hdot]
    cases hlast : Text.splitLast? '.' rest.toList with
    | none => exact absurd hdot (Text.splitLast?_eq_none_iff.mp hlast)
    | some parts => simp only [qualify?, hlast]
  · rw [if_neg hdot]
    simp only [qualify?, Text.splitLast?_of_not_mem hdot, String.ofList_toList]

/-- Behind a module all of the chain is kept, and its last component becomes the name. -/
theorem Selects.attribute?_whole (h : t.Selects chain e) {module : String} (htarget : e.target = .whole module) :
    ∃ hit, t.attribute? chain = some hit ∧ hit.localName = e.localName ∧
      hit.module ++ "." ++ hit.name =
        module ++ String.ofList (chain.toList.drop e.localName.length) ∧
      (Text.split '.' chain).getLast? = some hit.name := by
  obtain ⟨-, -, -, ⟨-, rest, -, hchain⟩, -⟩ := id h
  have hdrop : String.ofList (chain.toList.drop e.localName.length) = "." ++ String.ofList rest := by
    rw [hchain, ← String.length_toList, List.drop_left, String.ofList_cons]
    rfl
  have hjoined : chain = e.localName ++ "." ++ String.ofList rest := by
    rw [← String.toList_inj, hchain]
    simp
  obtain ⟨hit, hhit, hlocal, hname, hlast⟩ := qualify?_whole e.localName module rest
  refine ⟨hit, ?_, hlocal, ?_, ?_⟩
  · rw [h.attribute?_eq hchain, htarget, hhit]
  · rw [hname, hdrop, String.append_assoc]
  · rw [hjoined, Text.getLast?_split_append rfl, hlast]

/-- Behind a symbol one component is the name, and more of them are not qualified. -/
theorem Selects.attribute?_symbol (h : t.Selects chain e) {module name rest : String}
    (htarget : e.target = .symbol module name) (hchain : chain = e.localName ++ "." ++ rest) :
    t.attribute? chain = if '.' ∈ rest.toList then none else some ⟨e.localName, module, rest⟩ := by
  have hlist : chain.toList = e.localName.toList ++ '.' :: rest.toList := by
    rw [hchain]
    simp
  rw [h.attribute?_eq hlist, htarget, qualify?_symbol]

/-! ## Tables as they are made -/

/-- What a table promises for the chains that it is asked for. -/
structure Qualifies (t : ImportTable) : Prop where
  /-- No alias is bound to a target twice. -/
  single : t.entries.Pairwise fun a b => ¬ (a.localName = b.localName ∧ a.target = b.target)
  /-- A chain that no alias begins is not qualified. -/
  nothing : ∀ chain, (∀ e ∈ t.entries, ¬ e.Begins chain) → t.attribute? chain = none
  /-- For any other chain an entry is selected. -/
  selected : ∀ chain, (∃ e ∈ t.entries, e.Begins chain) → ∃ e, t.Selects chain e
  /-- Through a module the chain is qualified by its last component, in the module with what stands in
      between. -/
  whole : ∀ chain e module, t.Selects chain e → e.target = .whole module →
    ∃ hit, t.attribute? chain = some hit ∧ hit.localName = e.localName ∧
      hit.module ++ "." ++ hit.name =
        module ++ String.ofList (chain.toList.drop e.localName.length) ∧
      (Text.split '.' chain).getLast? = some hit.name
  /-- Through a symbol it is qualified by the one component behind the alias, and not at all when there are
      more. -/
  symbol : ∀ chain e module name rest, t.Selects chain e → e.target = .symbol module name →
    chain = e.localName ++ "." ++ rest →
    t.attribute? chain = if '.' ∈ rest.toList then none else some ⟨e.localName, module, rest⟩

/-- **The longest alias qualifies a chain, the earliest of several**, in every table that is made. -/
theorem Reached.qualifies (h : t.Reached) : t.Qualifies where
  single := by
    have hnodup := List.pairwise_map.mp h.nodup_bindings
    apply hnodup.imp
    intro a b hne heq
    exact hne (Prod.ext heq.1 heq.2)
  nothing _ := attribute?_of_not_begins
  selected _ := exists_selects
  whole _ _ _ hselects := hselects.attribute?_whole
  symbol _ _ _ _ _ hselects := hselects.attribute?_symbol

/-- The table of the function that opens the data base of a store, over that of its module, with a call
    through `db` marked in it. -/
def storeScope : ImportTable :=
  (storeImports.shadowing legacyImports).mark "db" "query"

theorem storeScope_qualifies : storeScope.Reached ∧ storeScope.Qualifies ∧
    storeScope.attribute? "db.query" = some ⟨"db", "store.db", "query"⟩ ∧
    storeScope.attribute? "db.legacy.old.query" = some ⟨"db.legacy", "db.legacy.old", "query"⟩ ∧
    storeScope.attribute? "connect.close" = some ⟨"connect", "store.db", "close"⟩ ∧
    storeScope.attribute? "connect.pool.close" = none ∧ storeScope.attribute? "dbs.query" = none := by
  have hstore : storeImports.Reached :=
    (Reached.empty.add "db" (.whole "store.db")).add "connect" (.symbol "store.db" "connect")
  have hlegacy : legacyImports.Reached :=
    ((Reached.empty.add "db.legacy" (.whole "db.legacy")).add "connect" (.symbol "legacy" "connect")).add
      "db" (.symbol "legacy" "db")
  have hscope : storeScope.Reached := (hstore.shadowing hlegacy).mark "db" "query"
  refine ⟨hscope, hscope.qualifies, ?_, ?_, ?_, ?_, ?_⟩ <;> decide +kernel

end ImportTable

end ServiceTrace
