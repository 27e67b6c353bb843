import ServiceTrace.Ast.Declarations

/-!
# `ServiceTrace.Proofs.Ast.Declared` — which definition of a name counts

A module may define a name several times. The functions that it declares are collected in two passes, where
a method is added unless its name is taken and a top-level function replaces what has its name. What is found
under a name in the end is the last definition at the top level, and the first method when there is none
there (`Stmt.functionIn?_eq`). Such a definition is said to count for its name (`Stmt.Counts`).

Neither pass leaves two functions of one name, so the declared functions are known once it is said what is
found under each name. In the words of the module body alone this is `Stmt.Finds`, and
`Stmt.functionsIn_exact` puts the parts together.
-/

namespace ServiceTrace.Stmt

variable {body : List Stmt} {declared : List FunctionDef} {d : FunctionDef} {name : String}

/-! ## One more definition -/

theorem find?_declareNew (declared : List FunctionDef) (d : FunctionDef) (name : String) :
    (declareNew declared d).find? (·.name = name) =
      (declared.find? (·.name = name)).or ([d].find? (·.name = name)) := by
  unfold declareNew
  split
  · rename_i htaken
    cases hfind : declared.find? (·.name = name) with
    | some e => rfl
    | none =>
      -- what has the name of the definition would have been found
      obtain ⟨e, he, hname⟩ := List.any_eq_true.mp htaken
      have hne : ¬ e.name = name := by simpa using List.find?_eq_none.mp hfind e he
      have hd : ¬ d.name = name := by rwa [← of_decide_eq_true hname]
      simp [hd]
  · exact List.find?_append

theorem find?_redeclare (declared : List FunctionDef) (d : FunctionDef) (name : String) :
    (redeclare declared d).find? (·.name = name) =
      ([d].find? (·.name = name)).or (declared.find? (·.name = name)) := by
  unfold redeclare
  rw [List.find?_append]
  by_cases h : d.name = name
  · have hnone : (declared.filter (·.name ≠ d.name)).find? (·.name = name) = none := by
      rw [List.find?_eq_none]
      intro e he
      simpa [h] using (List.mem_filter.mp he).2
    have hsome : [d].find? (·.name = name) = some d := List.find?_cons_of_pos (decide_eq_true h)
    rw [hnone, hsome, Option.none_or, Option.some_or]
  · have hkept : (declared.filter (·.name ≠ d.name)).find? (·.name = name) =
        declared.find? (·.name = name) := by
      rw [List.find?_filter]
      congr 1
      funext e
      by_cases he : e.name = name
      · simp [he, Ne.symm h]
      · simp [he]
    have hnone : [d].find? (·.name = name) = none := List.find?_cons_of_neg (by simpa using h)
    rw [hkept, hnone, Option.or_none, Option.none_or]

/-! ## All definitions -/

theorem find?_foldl_declareNew (methods declared : List FunctionDef) (name : String) :
    (methods.foldl declareNew declared).find? (·.name = name) =
      (declared.find? (·.name = name)).or (methods.find? (·.name = name)) := by
  induction methods generalizing declared with
  | nil => rw [List.foldl_nil, List.find?_nil, Option.or_none]
  | cons d methods ih =>
    rw [List.foldl_cons, ih, find?_declareNew, Option.or_assoc, ← List.find?_append,
      List.singleton_append]

theorem find?_foldl_redeclare (functions declared : List FunctionDef) (name : String) :
    (functions.foldl redeclare declared).find? (·.name = name) =
      (functions.reverse.find? (·.name = name)).or (declared.find? (·.name = name)) := by
  induction functions generalizing declared with
  | nil => rw [List.foldl_nil, List.reverse_nil, List.find?_nil, Option.none_or]
  | cons d functions ih =>
    rw [List.foldl_cons, ih, find?_redeclare, ← Option.or_assoc, ← List.find?_append,
      ← List.reverse_cons]

/-- The function of a name is the last one at the top level, or else the first method. -/
theorem functionIn?_eq (body : List Stmt) (name : String) :
    functionIn? body name =
      ((topLevelIn body).reverse.find? (·.name = name)).or ((methodsIn body).find? (·.name = name)) := by
  rw [functionIn?, functionsIn, find?_foldl_redeclare, find?_foldl_declareNew, List.find?_nil,
    Option.none_or]

/-- A definition that counts for its name: the last one at the top level, or the first method when the top
    level has none. -/
def Counts (body : List Stmt) (d : FunctionDef) : Prop :=
  (topLevelIn body).reverse.find? (·.name = d.name) = some d ∨
    (∀ e ∈ topLevelIn body, e.name ≠ d.name) ∧ (methodsIn body).find? (·.name = d.name) = some d

/-- Functions of which no two have the same name. -/
def HaveOwnNames (declared : List FunctionDef) : Prop :=
  (declared.map (·.name)).Nodup

theorem HaveOwnNames.concat (h : HaveOwnNames declared) (hnew : ∀ e ∈ declared, e.name ≠ d.name) :
    HaveOwnNames (declared ++ [d]) := by
  unfold HaveOwnNames
  rw [List.map_append, List.map_singleton, List.nodup_append]
  refine ⟨h, List.pairwise_singleton _ _, ?_⟩
  intro name hname other hother
  obtain ⟨e, he, rfl⟩ := List.mem_map.mp hname
  rw [List.mem_singleton.mp hother]
  exact hnew e he

theorem HaveOwnNames.declareNew (h : HaveOwnNames declared) (d : FunctionDef) :
    HaveOwnNames (declareNew declared d) := by
  unfold Stmt.declareNew
  split
  · exact h
  · next hfree =>
    apply h.concat
    intro e he hname
    exact hfree (List.any_eq_true.mpr ⟨e, he, decide_eq_true hname⟩)

theorem HaveOwnNames.redeclare (h : HaveOwnNames declared) (d : FunctionDef) :
    HaveOwnNames (redeclare declared d) := by
  have hkept : HaveOwnNames (declared.filter (·.name ≠ d.name)) :=
    List.Nodup.sublist (List.filter_sublist.map _) h
  apply hkept.concat
  intro e he
  exact of_decide_eq_true (List.mem_filter.mp he).2

theorem haveOwnNames_functionsIn (body : List Stmt) : HaveOwnNames (functionsIn body) := by
  have hmethods : HaveOwnNames ((methodsIn body).foldl declareNew []) :=
    List.foldlRecOn (motive := HaveOwnNames) _ _ List.nodup_nil fun _ h d _ => h.declareNew d
  exact List.foldlRecOn (motive := HaveOwnNames) _ _ hmethods fun _ h d _ => h.redeclare d

/-! ## Definitions where they stand -/

/-- A function definition of a block cuts the block where it cuts the list of definitions. -/
theorem of_topLevelIn_eq_append_cons {block : List Stmt} {fs gs : List FunctionDef}
    (h : topLevelIn block = fs ++ d :: gs) :
    ∃ before after, block = before ++ .function d :: after ∧ topLevelIn before = fs ∧
      topLevelIn after = gs := by
  obtain ⟨front, back, rfl, hfront, hback⟩ := List.filterMap_eq_append_iff.mp h
  obtain ⟨idle, s, after, rfl, hidle, hs, hafter⟩ := List.filterMap_eq_cons_iff.mp hback
  obtain rfl : s = .function d := by
    split at hs
    · rw [Option.some.inj hs]
    · cases hs
  refine ⟨front ++ idle, after, (List.append_assoc ..).symm, ?_, hafter⟩
  rw [topLevelIn, List.filterMap_append, List.filterMap_eq_nil_iff.mpr hidle, List.append_nil]
  exact hfront

theorem mem_topLevelIn : d ∈ topLevelIn body ↔ .function d ∈ body := by
  constructor
  · intro hd
    obtain ⟨fs, gs, hsplit⟩ := List.append_of_mem hd
    obtain ⟨before, after, rfl, -⟩ := of_topLevelIn_eq_append_cons hsplit
    exact List.mem_append_right _ List.mem_cons_self
  · intro hd
    exact List.mem_filterMap.mpr ⟨.function d, hd, rfl⟩

theorem mem_methodsIn : d ∈ methodsIn body ↔ ∃ c, .classDef c ∈ body ∧ .function d ∈ c.body := by
  rw [methodsIn, List.mem_flatMap]
  constructor
  · rintro ⟨s, hs, hd⟩
    split at hd
    · next c => exact ⟨c, hs, mem_topLevelIn.mp hd⟩
    · exact absurd hd List.not_mem_nil
  · rintro ⟨c, hc, hd⟩
    exact ⟨.classDef c, hc, mem_topLevelIn.mpr hd⟩

/-- The declared names are those of the functions at the top level and of the methods. -/
theorem exists_functionsIn_iff :
    (∃ d ∈ functionsIn body, d.name = name) ↔
      (∃ d, .function d ∈ body ∧ d.name = name) ∨
        ∃ c d, .classDef c ∈ body ∧ .function d ∈ c.body ∧ d.name = name := by
  have hdeclared : (∃ d ∈ functionsIn body, d.name = name) ↔ (functionIn? body name).isSome := by
    simp [functionIn?]
  have hfunction : ((topLevelIn body).reverse.find? (·.name = name)).isSome ↔
      ∃ d, .function d ∈ body ∧ d.name = name := by
    simp [mem_topLevelIn]
  have hmethod : ((methodsIn body).find? (·.name = name)).isSome ↔
      ∃ c d, .classDef c ∈ body ∧ .function d ∈ c.body ∧ d.name = name := by
    rw [List.find?_isSome]
    constructor
    · rintro ⟨d, hd, hname⟩
      obtain ⟨c, hc, hd⟩ := mem_methodsIn.mp hd
      exact ⟨c, d, hc, hd, of_decide_eq_true hname⟩
    · rintro ⟨c, d, hc, hd, hname⟩
      exact ⟨d, mem_methodsIn.mpr ⟨c, hc, hd⟩, decide_eq_true hname⟩
  rw [hdeclared, functionIn?_eq, Option.isSome_or, Bool.or_eq_true, hfunction, hmethod]

/-- A definition with no other one of its name before it in a block. -/
def IsFirstDefinition (block : List Stmt) (d : FunctionDef) : Prop :=
  ∃ before after, block = before ++ .function d :: after ∧
    ∀ e, .function e ∈ before → e.name ≠ d.name

/-- A definition with no other one of its name behind it in a block. -/
def IsLastDefinition (block : List Stmt) (d : FunctionDef) : Prop :=
  ∃ before after, block = before ++ .function d :: after ∧
    ∀ e, .function e ∈ after → e.name ≠ d.name

/-- What a module body has under a name: the last definition at its top level, or else the first one in its
    classes, taken in order, if there is any. -/
inductive Finds (body : List Stmt) (name : String) : Option FunctionDef → Prop where
  | topLevel {d : FunctionDef} (named : d.name = name) (last : IsLastDefinition body d) :
      Finds body name (some d)
  | method {before after : List Stmt} {c : ClassDef} {d : FunctionDef} (named : d.name = name)
      (no_function : ∀ e, .function e ∈ body → e.name ≠ name)
      (split : body = before ++ .classDef c :: after)
      (no_method : ∀ b e, .classDef b ∈ before → .function e ∈ b.body → e.name ≠ name)
      (first : IsFirstDefinition c.body d) : Finds body name (some d)
  | missing (no_function : ∀ e, .function e ∈ body → e.name ≠ name)
      (no_method : ∀ b e, .classDef b ∈ body → .function e ∈ b.body → e.name ≠ name) :
      Finds body name none

theorem isFirstDefinition_of_find? {block : List Stmt}
    (h : (topLevelIn block).find? (·.name = name) = some d) : IsFirstDefinition block d := by
  obtain ⟨hname, fs, gs, hsplit, hfirst⟩ := List.find?_eq_some_iff_append.mp h
  obtain ⟨before, after, rfl, rfl, -⟩ := of_topLevelIn_eq_append_cons hsplit
  refine ⟨before, after, rfl, ?_⟩
  intro e he
  have hne := hfirst e (mem_topLevelIn.mpr he)
  rw [of_decide_eq_true hname]
  simpa using hne

/-- The first method of a name is the first definition in the first class that has one. -/
theorem of_find?_methodsIn (h : (methodsIn body).find? (·.name = name) = some d) :
    ∃ before c after, body = before ++ .classDef c :: after ∧ IsFirstDefinition c.body d ∧
      ∀ b e, .classDef b ∈ before → .function e ∈ b.body → e.name ≠ name := by
  rw [methodsIn, List.find?_flatMap, List.findSome?_eq_some_iff] at h
  obtain ⟨before, s, after, hsplit, hfind, hbefore⟩ := h
  split at hfind
  · next c =>
    refine ⟨before, c, after, hsplit, isFirstDefinition_of_find? hfind, ?_⟩
    intro b e hb he
    simpa using List.find?_eq_none.mp (hbefore _ hb) e (mem_topLevelIn.mpr he)
  · exact absurd hfind (by simp)

theorem isLastDefinition_of_find? {block : List Stmt}
    (h : (topLevelIn block).reverse.find? (·.name = name) = some d) : IsLastDefinition block d := by
  obtain ⟨hname, fs, gs, hsplit, hlast⟩ := List.find?_eq_some_iff_append.mp h
  rw [List.reverse_eq_iff, List.reverse_append, List.reverse_cons, List.append_assoc,
    List.singleton_append] at hsplit
  obtain ⟨before, after, rfl, -, hafter⟩ := of_topLevelIn_eq_append_cons hsplit
  refine ⟨before, after, rfl, ?_⟩
  intro e he
  have hmem : e ∈ fs := by
    rw [← List.mem_reverse, ← hafter]
    exact mem_topLevelIn.mpr he
  rw [of_decide_eq_true hname]
  simpa using hlast e hmem

theorem finds_functionIn? (body : List Stmt) (name : String) :
    Finds body name (functionIn? body name) := by
  rw [functionIn?_eq]
  cases hlast : (topLevelIn body).reverse.find? (·.name = name) with
  | some d =>
    have hname : d.name = name := by simpa using List.find?_some hlast
    exact .topLevel hname (isLastDefinition_of_find? hlast)
  | none =>
    have hnone : ∀ e, .function e ∈ body → e.name ≠ name := by
      intro e he
      simpa using List.find?_eq_none.mp hlast e (List.mem_reverse.mpr (mem_topLevelIn.mpr he))
    rw [Option.none_or]
    cases hmethod : (methodsIn body).find? (·.name = name) with
    | some d =>
      have hname : d.name = name := by simpa using List.find?_some hmethod
      obtain ⟨before, c, after, hsplit, hfirst, hothers⟩ := of_find?_methodsIn hmethod
      exact .method hname hnone hsplit hothers hfirst
    | none =>
      apply Finds.missing hnone
      intro b e hb he
      simpa using List.find?_eq_none.mp hmethod e (mem_methodsIn.mpr ⟨b, hb, he⟩)

/-- **What a module declares.** Each name is declared once, the names are those of the functions at the top
    level and of the methods of the classes there, and what a name stands for is the last function at the top
    level, or else the first method in the order of the classes. -/
theorem functionsIn_exact (body : List Stmt) :
    HaveOwnNames (functionsIn body) ∧
      (∀ name, (∃ d ∈ functionsIn body, d.name = name) ↔
        (∃ d, .function d ∈ body ∧ d.name = name) ∨
          ∃ c d, .classDef c ∈ body ∧ .function d ∈ c.body ∧ d.name = name) ∧
      ∀ name, Finds body name (functionIn? body name) :=
  ⟨haveOwnNames_functionsIn body, fun _ => exists_functionsIn_iff, finds_functionIn? body⟩

end ServiceTrace.Stmt
