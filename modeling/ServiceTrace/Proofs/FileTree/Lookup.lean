import ServiceTrace.FileTree.Modules
import ServiceTrace.Proofs.FileTree.Locate
import ServiceTrace.Proofs.Module.Names

/-!
# `ServiceTrace.Proofs.FileTree.Lookup` — the file of a module, and the module of a file

Below a directory, two files can be that of a module: the one named by the last part of the name, and the
`__init__.py` in the directory of this name (`moduleFile?_eq`). The first one counts.

The other way, the module of an entry file is named by the names that lead to it from the root
(`of_entryModule`). They may be more than the parts of a module can be.
-/

namespace ServiceTrace

namespace Path

theorem below?_eq_some_iff {base p : Path} {rest : List Component} :
    below? base p = some rest ↔ p.components = base.components ++ rest := by
  unfold below?
  generalize base.components = bs
  generalize p.components = cs
  induction bs generalizing cs with
  | nil => simp [below?.go, eq_comm]
  | cons b bs ih =>
    cases cs with
    | nil => simp [below?.go]
    | cons c cs =>
      by_cases h : b = c
      · simp [below?.go, h, ih]
      · simp [below?.go, h, Ne.symm h]

theorem plain_names {names : List String} (hne : names ≠ []) :
    plain (names.map Component.name) = (joined names).text := by
  unfold plain
  simp only [List.filterMap_map, Function.comp_def, List.filterMap_some, if_neg hne]
  rfl

end Path

namespace FileTree

open ModuleName (IsPart sourceFile packageFile parts)
open ServiceTrace.Path (IsName joined)

variable {tree : FileTree} {base root entry file : Path} {name last : String} {above : List String}

/-! ## The file of a module -/

theorem isName_packageFile : IsName packageFile :=
  ⟨by decide, by decide, by decide, by decide⟩

/-- The file of a module is looked for in two places. -/
theorem moduleFile?_eq (h : ∀ part ∈ parts name, IsPart part) (hparts : parts name = above ++ [last]) :
    tree.moduleFile? base name =
      if above ≠ [] ∧ ¬ tree.isDir (base.join (joined above)) = true then none
      else if tree.isFile (base.join (joined (above ++ [sourceFile last]))) = true then
        some (base.join (joined (above ++ [sourceFile last])))
      else if tree.isFile (base.join (joined (above ++ [last] ++ [packageFile]))) = true then
        some (base.join (joined (above ++ [last] ++ [packageFile])))
      else none := by
  rw [hparts] at h
  have hnames : ∀ part ∈ above ++ [last], IsName part := fun part hpart => (h part hpart).isName
  have hrelative : (above ++ [last]).foldl (fun p part => p.join ⟨part⟩) ⟨""⟩ =
      joined (above ++ [last]) := Path.foldl_join hnames
  have hparent : ((joined (above ++ [last])).parent?.map (·.text)).getD "" = (joined above).text := by
    rw [Path.parent?_joined hnames]
    rfl
  have hmodule : (joined (above ++ [last])).withExtension "py" = joined (above ++ [sourceFile last]) := by
    rw [Path.withExtension_joined hnames, Path.splitExtension_of_not_mem (h last (by simp)).noDot]
    rfl
  have hpackage : (joined (above ++ [last])).join ⟨packageFile⟩ =
      joined (above ++ [last] ++ [packageFile]) := by
    rw [← Path.joined_singleton]
    exact Path.join_joined
      (List.forall_mem_append.mpr ⟨hnames, List.forall_mem_singleton.mpr isName_packageFile⟩)
      (List.cons_ne_nil _ _)
  have habove : (joined above).text ≠ "" ↔ above ≠ [] := by
    constructor
    · rintro htext rfl
      exact htext rfl
    · intro hne htext
      exact Path.toList_joined_ne_nil (List.forall_mem_append.mp hnames).1 hne
        (String.toList_eq_nil_iff.mpr htext)
  unfold moduleFile?
  simp only [hparts, hrelative, hparent, hmodule, hpackage]
  rw [if_neg (by simp)]
  simp only [habove]

/-- A name without parts, such as that of the directory itself, has no file. -/
theorem moduleFile?_of_parts_nil (hparts : parts name = []) : tree.moduleFile? base name = none := by
  unfold moduleFile?
  simp [hparts]

/-- The names that lead from a directory to a file of the module. -/
inductive ModuleNames (name : String) : List String → Prop where
  | module (above : List String) (last : String) :
    parts name = above ++ [last] → ModuleNames name (above ++ [sourceFile last])
  | package (above : List String) (last : String) :
    parts name = above ++ [last] → ModuleNames name (above ++ [last] ++ [packageFile])

theorem ModuleNames.ne_nil {names : List String} (h : ModuleNames name names) : names ≠ [] := by
  cases h <;> simp

theorem ModuleNames.isName {names : List String} (hnames : ModuleNames name names)
    (h : ∀ part ∈ parts name, IsPart part) : ∀ n ∈ names, IsName n := by
  cases hnames with
  | module above last hparts =>
    rw [hparts] at h
    obtain ⟨habove, hlast⟩ := List.forall_mem_append.mp h
    exact List.forall_mem_append.mpr ⟨fun n hn => (habove n hn).isName,
      List.forall_mem_singleton.mpr (List.forall_mem_singleton.mp hlast).isName_sourceFile⟩
  | package above last hparts =>
    rw [hparts] at h
    exact List.forall_mem_append.mpr ⟨fun n hn => (h n hn).isName,
      List.forall_mem_singleton.mpr isName_packageFile⟩

/-- What is found for a module is a file with one of these names. -/
theorem of_moduleFile? (h : ∀ part ∈ parts name, IsPart part)
    (hfound : tree.moduleFile? base name = some file) :
    ∃ names, ModuleNames name names ∧ file = base.join (joined names) ∧ tree.isFile file = true := by
  obtain hparts | ⟨above, last, hparts⟩ := (parts name).eq_nil_or_concat'
  · rw [moduleFile?_of_parts_nil hparts] at hfound
    exact absurd hfound nofun
  · rw [moduleFile?_eq h hparts] at hfound
    obtain ⟨-, hfound⟩ := Option.ite_none_left_eq_some.mp hfound
    split at hfound
    · rename_i hfile
      obtain rfl := Option.some.inj hfound
      exact ⟨_, .module above last hparts, rfl, hfile⟩
    · obtain ⟨hfile, hsome⟩ := Option.ite_none_right_eq_some.mp hfound
      obtain rfl := Option.some.inj hsome
      exact ⟨_, .package above last hparts, rfl, hfile⟩

variable {location : Location}

/-- The test for the directory of a module file passes when there is something in it. -/
theorem above_opens {rest : List String} (h : ∀ n ∈ location ++ (above ++ rest), IsName n)
    (hrest : rest ≠ []) (hfile : tree.isFile (pathOf (location ++ (above ++ rest))) = true) :
    ¬ (above ≠ [] ∧ ¬ tree.isDir ((pathOf location).join (joined above)) = true) := by
  rintro ⟨hne, hdir⟩
  rw [← List.append_assoc] at h hfile
  rw [pathOf_join (List.forall_mem_append.mp h).1 hne] at hdir
  exact hdir (isDir_of_isFile h hrest hfile)

section Below

variable (h : ∀ part ∈ parts name, IsPart part) (hlocation : ∀ n ∈ location, IsName n)
include h hlocation

theorem isName_below {names : List String} (hnames : ModuleNames name names) :
    ∀ n ∈ location ++ names, IsName n :=
  List.forall_mem_append.mpr ⟨hlocation, hnames.isName h⟩

variable (hparts : parts name = above ++ [last])
include hparts

/-- Below a location, the file that has the name of the module is its file. -/
theorem moduleFile?_module
    (hfile : tree.isFile (pathOf (location ++ (above ++ [sourceFile last]))) = true) :
    tree.moduleFile? (pathOf location) name = some (pathOf (location ++ (above ++ [sourceFile last]))) := by
  have hnames := isName_below h hlocation (.module above last hparts)
  rw [moduleFile?_eq h hparts, if_neg (above_opens hnames (List.cons_ne_nil _ _) hfile),
    pathOf_join hnames (by simp), if_pos hfile]

/-- Below a location, the file of the package is the file of the module when there is no other. -/
theorem moduleFile?_package
    (hmodule : ¬ tree.isFile (pathOf (location ++ (above ++ [sourceFile last]))) = true)
    (hfile : tree.isFile (pathOf (location ++ (above ++ [last] ++ [packageFile]))) = true) :
    tree.moduleFile? (pathOf location) name =
      some (pathOf (location ++ (above ++ [last] ++ [packageFile]))) := by
  have hnames := isName_below h hlocation (.package above last hparts)
  rw [List.append_assoc] at hnames hfile ⊢
  rw [moduleFile?_eq h hparts, if_neg (above_opens hnames (by simp) hfile),
    pathOf_join (isName_below h hlocation (.module above last hparts)) (by simp), if_neg hmodule,
    List.append_assoc, pathOf_join hnames (by simp), if_pos hfile]

end Below

/-! ## The search for a module -/

variable {search : List Path} {external : List String} {ref : ModuleRef}

/-- What the root has is what is found. -/
theorem path_of_root (hfile : tree.moduleFile? (tree.canonical root) name = some file)
    (h : (ModuleSearch.within tree root search external).resolve name = some ref) :
    ref.path = tree.canonical file := by
  unfold ModuleSearch.resolve ModuleSearch.within at h
  rw [List.findSome?_cons, hfile] at h
  obtain rfl := Option.some.inj h
  rfl

/-- What is found is found below the root or a search path. -/
theorem of_resolve (h : (ModuleSearch.within tree root search external).resolve name = some ref) :
    ∃ base ∈ root :: search, ∃ file, tree.moduleFile? (tree.canonical base) name = some file ∧
      ref.path = tree.canonical file := by
  obtain ⟨file, hfound, rfl⟩ := Option.map_eq_some_iff.mp h
  have hbases : (root :: search).findSome? (fun base => tree.moduleFile? (tree.canonical base) name) =
      some file := by
    rw [← hfound]
    show _ = ((root :: search).map tree.canonical).findSome? (tree.moduleFile? · name)
    rw [List.findSome?_map]
    rfl
  obtain ⟨base, hbase, hfile⟩ := List.exists_of_findSome?_eq_some hbases
  exact ⟨base, hbase, file, hfile, rfl⟩

/-- What is found lies below the location that the root or a search path leads to, and can be opened there. -/
theorem exists_location_of_resolve (hworking : ∀ n ∈ tree.working, IsName n)
    (hparts : ∀ part ∈ parts name, IsPart part) (hbases : ∀ base ∈ root :: search, base.text ≠ "")
    (h : (ModuleSearch.within tree root search external).resolve name = some ref) :
    ∃ base ∈ root :: search, ∃ location names, tree.locate? base = some location ∧
      ModuleNames name names ∧ ref.path = pathOf (location ++ names) ∧ tree.isFile ref.path = true := by
  obtain ⟨base, hbase, file, hfound, hpath⟩ := of_resolve h
  obtain ⟨names, hmodule, rfl, hfile⟩ := of_moduleFile? hparts hfound
  obtain ⟨target, hopen, -⟩ := isFile_iff.mp hfile
  obtain ⟨location, hcanonical, -⟩ := locate?_join (text_canonical_ne (hbases base hbase))
    (hmodule.isName hparts) hmodule.ne_nil (openable?_eq_some_iff.mp hopen).2
  have hlocate := locate?_of_canonical hworking hcanonical
  have hnames := isName_below hparts (isName_of_locate? hworking hlocate) hmodule
  rw [canonical_of_locate? hlocate, pathOf_join hnames hmodule.ne_nil] at hpath hfile
  rw [canonical_pathOf hnames] at hpath
  exact ⟨base, hbase, location, names, hlocate, hmodule, hpath, hpath ▸ hfile⟩

/-! ## The module of a file -/

/-- The module of an entry file is named by what leads to it from the root, unless it is the root. -/
theorem of_entryModule {E : Location} (hworking : ∀ n ∈ tree.working, IsName n)
    (hentry : tree.locate? entry = some E) (hfile : (tree.file? E).isSome = true)
    (hroot : root.text ≠ "") (h : tree.entryModule root entry = .ok name) :
    name = "." ∨ ∃ location names, tree.locate? root = some location ∧ names ≠ [] ∧
      E = location ++ names ∧ name = ModuleName.ofPath (joined names) := by
  have hnames := isName_of_locate? hworking hentry
  unfold entryModule at h
  cases hbelow : Path.below? (tree.canonical root) (tree.canonical entry) with
  | none => simp [hbelow] at h
  | some rest =>
    obtain rfl : ModuleName.ofPath ⟨Path.plain rest⟩ = name := by simpa [hbelow] using h
    -- the components of the root and what follows them make up those of the entry file
    have hsplit := Path.below?_eq_some_iff.mp hbelow
    have hcomponents : (tree.canonical root).components ≠ [] :=
      Path.components_ne_nil (text_canonical_ne hroot)
    obtain ⟨c, cs, hcs⟩ := List.exists_cons_of_ne_nil hcomponents
    rw [canonical_of_locate? hentry, components_pathOf hnames, hcs, List.cons_append,
      List.cons_eq_cons] at hsplit
    obtain ⟨rfl, hsplit⟩ := hsplit
    obtain ⟨location, names, rfl, rfl, rfl⟩ := List.map_eq_append_iff.mp hsplit
    by_cases hne : names = []
    · subst hne
      exact .inl (by decide)
    · refine .inr ⟨location, names, ?_, hne, rfl, by rw [Path.plain_names hne]⟩
      cases hlocate : tree.locate? root with
      | none =>
        rw [canonical_of_locate?_none hlocate] at hcs
        rw [← hlocate]
        exact locate?_of_file hne hfile hcs
      | some found =>
        rw [canonical_of_locate? hlocate, components_pathOf (isName_of_locate? hworking hlocate),
          List.cons_inj_right] at hcs
        rw [map_name_injective hcs]

end FileTree

end ServiceTrace
