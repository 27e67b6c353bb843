import Mathlib.Data.List.DropRight
import ServiceTrace.Path
import ServiceTrace.Proofs.Text.Split

/-!
# `ServiceTrace.Proofs.Path.Joined` — paths that are put together from names

A path may be written in many ways. The paths that a lookup builds are names joined by slashes
(`Path.joined`), possibly behind another path. On these every operation is one of lists: the components are
the names, the parent drops the last name, a new extension changes only the last name.

* `Path.IsName` — what can stand between two slashes and leads to a file or a directory of that name;
* `Path.components_joined`, `Path.components_join`, `Path.parent?_joined`, `Path.withExtension_joined`;
* `Path.splitExtension_append` — the stem of a name with an extension.
-/

namespace ServiceTrace

namespace Path

/-- Whether a text is a name that a file or a directory can have. -/
structure IsName (text : String) : Prop where
  nonempty : text ≠ ""
  noSlash : '/' ∉ text.toList
  notCurrent : text ≠ "."
  notParent : text ≠ ".."

/-- The relative path that names lead along. -/
def joined (names : List String) : Path :=
  ⟨String.intercalate "/" names⟩

variable {names : List String} {name : String}

theorem IsName.toList_ne_nil (h : IsName name) : name.toList ≠ [] :=
  fun hnil => h.nonempty (String.toList_eq_nil_iff.mp hnil)

/-! ## Texts -/

theorem text_joined_append {right : List String} (hne : names ≠ []) (hright : right ≠ []) :
    (joined (names ++ right)).text = (joined names).text ++ "/" ++ (joined right).text :=
  String.intercalate_append_of_ne_nil hne hright

theorem joined_singleton (name : String) : joined [name] = ⟨name⟩ :=
  congrArg Path.mk String.intercalate_singleton

/-- What stands in front of the last name of a joined path. -/
def lead (names : List String) : List Char :=
  if names = [] then [] else (joined names).text.toList ++ ['/']

theorem toList_joined_concat (names : List String) (name : String) :
    (joined (names ++ [name])).text.toList = lead names ++ name.toList := by
  unfold lead
  by_cases hne : names = []
  · rw [if_pos hne, hne, List.nil_append, joined_singleton, List.nil_append]
  · rw [if_neg hne, text_joined_append hne (List.cons_ne_nil _ _), joined_singleton,
      String.toList_append, String.toList_append]
    rfl

theorem toList_joined_ne_nil (h : ∀ name ∈ names, IsName name) (hne : names ≠ []) :
    (joined names).text.toList ≠ [] := by
  obtain rfl | ⟨front, name, rfl⟩ := names.eq_nil_or_concat'
  · exact absurd rfl hne
  · rw [toList_joined_concat]
    exact fun hnil => (h name (by simp)).toList_ne_nil (List.append_eq_nil_iff.mp hnil).2

theorem split_joined (h : ∀ name ∈ names, IsName name) (hne : names ≠ []) :
    Text.split '/' (joined names).text = names :=
  Text.split_intercalate (by rfl) hne fun name hname => (h name hname).noSlash

/-! ## Components -/

/-- A text that begins with a slash, or has no characters at all, has nothing before its first slash. -/
theorem head?_split_eq_empty_iff (text : String) :
    (Text.split '/' text).head? = some "" ↔ text = "" ∨ text.toList.head? = some '/' := by
  rw [← String.toList_eq_nil_iff, Text.split]
  cases text.toList with
  | nil => simp [Text.splitAt]
  | cons c cs =>
    by_cases hslash : c = '/'
    · subst hslash
      rw [Text.splitAt_cons_self]
      simp
    · obtain ⟨piece, rest, hrest⟩ := List.exists_cons_of_ne_nil (Text.splitAt_ne_nil cs)
      rw [Text.splitAt_cons_of_ne hslash, hrest]
      simp [hslash]

theorem isAbsolute_joined (h : ∀ name ∈ names, IsName name) (hne : names ≠ []) :
    (joined names).isAbsolute = false := by
  refine decide_eq_false fun hslash => ?_
  have hhead := (head?_split_eq_empty_iff _).mpr (.inr hslash)
  rw [split_joined h hne] at hhead
  exact (h "" (List.mem_of_head? hhead)).nonempty rfl

/-- The component that a path starts with apart from its names. -/
def startOf (absolute : Bool) (first : Option String) : List Component :=
  if absolute then [.root] else if first = some "." then [.current] else []

/-- The components that the parts between slashes stand for. -/
def componentsOf (parts : List String) : List Component :=
  (parts.filter fun part => part ≠ "" ∧ part ≠ ".").map Component.ofPart

theorem components_eq (p : Path) : p.components =
    startOf p.isAbsolute (Text.split '/' p.text).head? ++ componentsOf (Text.split '/' p.text) :=
  rfl

theorem componentsOf_append (left right : List String) :
    componentsOf (left ++ right) = componentsOf left ++ componentsOf right := by
  rw [componentsOf, List.filter_append, List.map_append]
  rfl

theorem componentsOf_names (h : ∀ name ∈ names, IsName name) :
    componentsOf names = names.map Component.name := by
  have hall : names.filter (fun part => part ≠ "" ∧ part ≠ ".") = names :=
    List.filter_eq_self.mpr fun name hname =>
      decide_eq_true ⟨(h name hname).nonempty, (h name hname).notCurrent⟩
  rw [componentsOf, hall]
  exact List.map_congr_left fun name hname => if_neg (h name hname).notParent

theorem components_joined (h : ∀ name ∈ names, IsName name) (hne : names ≠ []) :
    (joined names).components = names.map Component.name := by
  have hcurrent : names.head? ≠ some "." :=
    fun hhead => (h "." (List.mem_of_head? hhead)).notCurrent rfl
  rw [components_eq, isAbsolute_joined h hne, split_joined h hne, componentsOf_names h, startOf,
    if_neg Bool.false_ne_true, if_neg hcurrent, List.nil_append]

/-- Only names stand in a path as names. -/
theorem isName_of_mem_components {p : Path} {text : String} (h : .name text ∈ p.components) : IsName text := by
  rw [components_eq, List.mem_append] at h
  rcases h with h | h
  · unfold startOf at h
    split at h
    · exact absurd (List.mem_singleton.mp h) nofun
    · split at h
      · exact absurd (List.mem_singleton.mp h) nofun
      · exact absurd h List.not_mem_nil
  · obtain ⟨part, hpart, hname⟩ := List.mem_map.mp h
    obtain ⟨hmem, hkept⟩ := List.mem_filter.mp hpart
    obtain ⟨hne, hcurrent⟩ := of_decide_eq_true hkept
    unfold Component.ofPart at hname
    split at hname
    · exact absurd hname nofun
    · rename_i hparent
      obtain rfl := Component.name.inj hname
      exact ⟨hne, Text.not_mem_of_mem_split hmem, hcurrent, hparent⟩

/-- Only the empty path has no components. -/
theorem components_ne_nil {p : Path} (h : p.text ≠ "") : p.components ≠ [] := by
  obtain ⟨first, rest, hsplit⟩ := List.exists_cons_of_ne_nil fun hnil : Text.split '/' p.text = [] =>
    Text.splitAt_ne_nil _ (List.map_eq_nil_iff.mp hnil)
  rw [components_eq, hsplit, List.head?_cons, startOf]
  by_cases habsolute : p.isAbsolute = true
  · rw [if_pos habsolute]
    exact List.cons_ne_nil _ _
  · by_cases hcurrent : first = "."
    · rw [if_neg habsolute, if_pos (congrArg some hcurrent)]
      exact List.cons_ne_nil _ _
    · -- a relative path has something before its first slash
      have hfirst : first ≠ "" := by
        rintro rfl
        have hslash := (head?_split_eq_empty_iff p.text).mp (by rw [hsplit]; rfl)
        exact habsolute (decide_eq_true (hslash.resolve_left h))
      have hkept : (first :: rest).filter (fun part => part ≠ "" ∧ part ≠ ".") =
          first :: rest.filter fun part => part ≠ "" ∧ part ≠ "." :=
        List.filter_cons_of_pos (decide_eq_true ⟨hfirst, hcurrent⟩)
      rw [componentsOf, hkept]
      exact List.append_ne_nil_of_right_ne_nil _ (List.cons_ne_nil _ _)

theorem isAbsolute_append {text : String} (hne : text ≠ "") (more : String) :
    (Path.mk (text ++ more)).isAbsolute = (Path.mk text).isAbsolute := by
  have hfirst : text.toList.head?.isSome = true :=
    List.isSome_head?.mpr fun hnil => hne (String.toList_eq_nil_iff.mp hnil)
  unfold isAbsolute
  rw [String.toList_append, List.head?_append, Option.or_of_isSome hfirst]

theorem split_append_slash (text : String) : Text.split '/' (text ++ "/") = Text.split '/' text ++ [""] :=
  String.append_empty (s := text ++ "/") ▸ Text.split_append rfl

theorem head?_split_append (text : String) (parts : List String) :
    (Text.split '/' text ++ parts).head? = (Text.split '/' text).head? := by
  have hsome : (Text.split '/' text).head?.isSome = true :=
    List.isSome_head?.mpr fun hnil => Text.splitAt_ne_nil _ (List.map_eq_nil_iff.mp hnil)
  rw [List.head?_append, Option.or_of_isSome hsome]

/-- A slash at the end is no component. -/
theorem components_append_slash {text : String} (hne : text ≠ "") :
    (Path.mk (text ++ "/")).components = (Path.mk text).components := by
  rw [components_eq, components_eq, isAbsolute_append hne, split_append_slash, head?_split_append,
    componentsOf_append]
  exact congrArg _ (List.append_nil _)

/-- Names behind a slash are further components. -/
theorem components_append_joined (text : String) (h : ∀ name ∈ names, IsName name) (hne : names ≠ []) :
    (Path.mk (text ++ "/" ++ (joined names).text)).components =
      (Path.mk (text ++ "/")).components ++ names.map Component.name := by
  have hslash : text ++ "/" ≠ "" := by simp
  have hparts : componentsOf (Text.split '/' text ++ [""]) = componentsOf (Text.split '/' text) := by
    rw [componentsOf_append]
    exact List.append_nil _
  rw [components_eq, components_eq, isAbsolute_append hslash, Text.split_append rfl, split_joined h hne,
    split_append_slash, head?_split_append, head?_split_append, hparts, componentsOf_append,
    componentsOf_names h, List.append_assoc]

/-- Names below a directory are further components, whether or not its path ends in a slash. -/
theorem components_join {base : Path} (hbase : base.text ≠ "") (h : ∀ name ∈ names, IsName name)
    (hne : names ≠ []) : (base.join (joined names)).components = base.components ++ names.map .name := by
  obtain ⟨text⟩ := base
  unfold join
  rw [isAbsolute_joined h hne, if_neg Bool.false_ne_true]
  by_cases hslash : text.toList.getLast? = some '/'
  · obtain ⟨front, hfront⟩ := List.getLast?_eq_some_iff.mp hslash
    obtain rfl : text = String.ofList front ++ "/" := by
      rw [← String.toList_inj, hfront, String.toList_append, String.toList_ofList]
      rfl
    rw [if_pos (.inr hslash), components_append_joined _ h hne]
  · rw [if_neg (not_or.mpr ⟨hbase, hslash⟩), components_append_joined _ h hne,
      components_append_slash hbase]

theorem fileName?_joined (h : ∀ n ∈ names ++ [name], IsName n) :
    (joined (names ++ [name])).fileName? = some name := by
  unfold fileName?
  rw [components_joined h (by simp), List.map_append, List.map_singleton, List.getLast?_concat]

theorem IsName.fileName? (h : IsName name) : (Path.mk name).fileName? = some name := by
  have hall : ∀ n ∈ [name], IsName n := fun n hn => List.mem_singleton.mp hn ▸ h
  rw [Path.fileName?, ← joined_singleton, components_joined hall (List.cons_ne_nil _ _)]
  rfl

/-! ## Joining step by step -/

theorem getLast?_joined_ne (h : ∀ name ∈ names, IsName name) :
    (joined names).text.toList.getLast? ≠ some '/' := by
  obtain rfl | ⟨front, name, rfl⟩ := names.eq_nil_or_concat'
  · exact nofun
  · have hname : IsName name := h name (by simp)
    have hlast : name.toList.getLast?.isSome = true := List.getLast?_isSome.mpr hname.toList_ne_nil
    rw [toList_joined_concat, List.getLast?_append, Option.or_of_isSome hlast]
    exact fun hslash => hname.noSlash (List.mem_of_getLast? hslash)

theorem join_joined {right : List String} (h : ∀ name ∈ names ++ right, IsName name) (hright : right ≠ []) :
    (joined names).join (joined right) = joined (names ++ right) := by
  have hnames : ∀ name ∈ names, IsName name := fun name hname => h name (List.mem_append_left _ hname)
  unfold join
  rw [isAbsolute_joined (fun name hname => h name (List.mem_append_right _ hname)) hright,
    if_neg Bool.false_ne_true]
  by_cases hne : names = []
  · subst hne
    rw [if_pos (.inl rfl)]
    exact congrArg Path.mk (String.empty_append)
  · have htext : (joined names).text ≠ "" := fun hempty =>
      toList_joined_ne_nil hnames hne (String.toList_eq_nil_iff.mpr hempty)
    rw [if_neg (not_or.mpr ⟨htext, getLast?_joined_ne hnames⟩), ← text_joined_append hne hright]

theorem foldl_join (h : ∀ name ∈ names, IsName name) :
    names.foldl (fun p name => p.join ⟨name⟩) ⟨""⟩ = joined names := by
  induction names using List.reverseRecOn with
  | nil => rfl
  | append_singleton names name ih =>
    have hjoin := join_joined h (List.cons_ne_nil name [])
    have hfront := ih fun n hn => h n (List.mem_append_left _ hn)
    rw [List.foldl_append, List.foldl_cons, List.foldl_nil, hfront, ← hjoin, joined_singleton]

/-! ## Parents and extensions -/

/-- Backwards, nothing is dropped from a path that ends in a name. -/
theorem dropTrailing_of_isName (h : IsName name) (rest : List Char) :
    dropTrailing (name.toList.reverse ++ rest) = name.toList.reverse ++ rest := by
  have hslash : '/' ∉ name.toList.reverse := fun hc => h.noSlash (List.mem_reverse.mp hc)
  have hdot : name.toList.reverse ≠ ['.'] := fun hdot =>
    h.notCurrent (String.toList_inj.mp (List.reverse_eq_iff.mp hdot))
  obtain ⟨c, cs, hchars⟩ :=
    List.exists_cons_of_ne_nil fun hnil => h.toList_ne_nil (List.reverse_eq_nil_iff.mp hnil)
  rw [hchars] at hslash hdot ⊢
  obtain ⟨hc, hcs⟩ := not_or.mp (mt List.mem_cons.mpr hslash)
  unfold dropTrailing
  split
  · rename_i heq
    exact absurd (List.cons_eq_cons.mp heq).1.symm hc
  · rename_i heq
    exact absurd (List.cons_eq_cons.mp heq).1.symm hc
  · -- a dot in front of a slash is more than a name can be
    rename_i rest' heq
    obtain ⟨rfl, htail⟩ := List.cons_eq_cons.mp heq
    cases cs with
    | nil => exact absurd rfl hdot
    | cons d ds => exact absurd ((List.cons_eq_cons.mp htail).1 ▸ List.mem_cons_self) hcs
  · rfl

theorem dropTrailing_joined (h : ∀ n ∈ names, IsName n) :
    dropTrailing (joined names).text.toList.reverse = (joined names).text.toList.reverse := by
  obtain rfl | ⟨front, name, rfl⟩ := names.eq_nil_or_concat'
  · rfl
  · rw [toList_joined_concat, List.reverse_append]
    exact dropTrailing_of_isName (h name (by simp)) _

/-- Without its last name and the slash in front of it, a joined path is that of the names before. -/
theorem dropTrailing_lead (h : ∀ n ∈ names, IsName n) :
    dropTrailing ((lead names).reverse.dropWhile (· ≠ '/')) = (joined names).text.toList.reverse := by
  unfold lead
  by_cases hne : names = []
  · subst hne
    rfl
  · obtain ⟨c, cs, hchars⟩ := List.exists_cons_of_ne_nil fun hnil =>
      toList_joined_ne_nil h hne (List.reverse_eq_nil_iff.mp hnil)
    rw [if_neg hne, List.reverse_append, List.reverse_singleton, List.singleton_append,
      List.dropWhile_cons_of_neg (by simp)]
    have hdrop := dropTrailing_joined h
    rw [hchars] at hdrop ⊢
    rwa [dropTrailing]
    simp

theorem parent?_joined (h : ∀ n ∈ names ++ [name], IsName n) :
    (joined (names ++ [name])).parent? = some (joined names) := by
  have hname : IsName name := h name (by simp)
  have hnames : ∀ n ∈ names, IsName n := fun n hn => h n (List.mem_append_left _ hn)
  have hslash : ∀ c ∈ name.toList.reverse, decide (c ≠ '/') = true := fun c hc => by
    simpa using fun heq : c = '/' => hname.noSlash (heq ▸ List.mem_reverse.mp hc)
  obtain ⟨c, cs, hchars⟩ :=
    List.exists_cons_of_ne_nil fun hnil => hname.toList_ne_nil (List.reverse_eq_nil_iff.mp hnil)
  unfold parent?
  rw [dropTrailing_joined h, toList_joined_concat, List.reverse_append]
  split
  · rename_i heq
    exact absurd heq (by simp [hchars])
  · rename_i heq
    rw [hchars, List.cons_append, List.cons_eq_cons] at heq
    exact absurd (hslash c (hchars ▸ List.mem_cons_self)) (by simp [heq.1])
  · rw [List.dropWhile_append_of_pos hslash, dropTrailing_lead hnames, List.reverse_reverse,
      String.ofList_toList]

theorem withExtension_joined (h : ∀ n ∈ names ++ [name], IsName n) (extension : String) :
    (joined (names ++ [name])).withExtension extension =
      joined (names ++ [(splitExtension name).1 ++ "." ++ extension]) := by
  have hdirectory : (joined (names ++ [name])).text.toList.reverse.drop name.length = (lead names).reverse := by
    rw [toList_joined_concat, List.reverse_append]
    exact List.drop_left' (by rw [List.length_reverse, String.length_toList])
  unfold withExtension
  rw [fileName?_joined h]
  dsimp only
  rw [dropTrailing_joined h, hdirectory, List.reverse_reverse]
  refine congrArg Path.mk (String.toList_inj.mp ?_)
  show _ = (joined (names ++ [_])).text.toList
  rw [toList_joined_concat]
  simp

theorem splitExtension_append {stem extension : String} (hstem : stem ≠ "")
    (hdot : '.' ∉ extension.toList) :
    splitExtension (stem ++ "." ++ extension) = (stem, some extension) := by
  have htext : (stem ++ "." ++ extension).toList = stem.toList ++ '.' :: extension.toList := by simp
  have hne : stem.toList ≠ [] := fun hnil => hstem (String.toList_eq_nil_iff.mp hnil)
  unfold splitExtension
  rw [htext, Text.splitLast?_append_cons hdot]
  simp [hne]

/-- The stem of a name is the beginning of the name. -/
theorem splitExtension_prefix (name : String) : (splitExtension name).1.toList <+: name.toList := by
  unfold splitExtension
  split
  · rename_i before after hsplit
    split
    · exact List.prefix_refl _
    · rw [Text.of_splitLast? hsplit, String.toList_ofList]
      exact List.prefix_append _ _
  · exact List.prefix_refl _

theorem splitExtension_of_not_mem (hdot : '.' ∉ name.toList) : splitExtension name = (name, none) := by
  unfold splitExtension
  rw [Text.splitLast?_of_not_mem hdot]

end Path

end ServiceTrace
