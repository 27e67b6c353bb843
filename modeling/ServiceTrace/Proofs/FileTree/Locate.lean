import ServiceTrace.FileTree.Basic
import ServiceTrace.Proofs.Path.Joined

/-!
# `ServiceTrace.Proofs.FileTree.Locate` — where paths lead

A path is followed component by component, so a path with names behind it leads below the location that it
leads to without them (`locate?_join`). The canonical path of a location leads to this location or nowhere
(`locate?_pathOf`), and is its own canonical path. In the other direction, every directory above a file is
found (`locate?_of_file`).

* `FileTree.locate?_eq_some_iff`, `FileTree.isFile_iff`, `FileTree.isDir_iff` — what the questions about paths
  ask;
* `FileTree.components_pathOf`, `FileTree.pathOf_inj`, `FileTree.pathOf_join` — canonical paths as lists of
  names.
-/

namespace ServiceTrace

namespace FileTree

open ServiceTrace.Path (IsName joined)

variable {tree : FileTree} {p : Path} {location target : Location} {names : List String}

/-! ## Canonical paths -/

theorem components_pathOf (h : ∀ name ∈ location, IsName name) :
    (pathOf location).components = .root :: location.map .name := by
  by_cases hne : location = []
  · subst hne
    decide
  · have hslash : (Path.mk ("" ++ "/")).components = [.root] := by decide
    have hjoined := Path.components_append_joined "" h hne
    rwa [hslash] at hjoined

theorem map_name_injective : Function.Injective (List.map Path.Component.name) :=
  List.map_injective_iff.mpr fun _ _ => Path.Component.name.inj

theorem pathOf_inj {location' : Location} (h : ∀ name ∈ location, IsName name)
    (h' : ∀ name ∈ location', IsName name) :
    pathOf location = pathOf location' ↔ location = location' := by
  refine ⟨fun heq => ?_, congrArg _⟩
  have hcomponents := congrArg Path.components heq
  rw [components_pathOf h, components_pathOf h', List.cons_inj_right] at hcomponents
  exact map_name_injective hcomponents

theorem text_pathOf_append (hlocation : location ≠ []) (hne : names ≠ []) :
    (pathOf (location ++ names)).text = (pathOf location).text ++ "/" ++ (joined names).text := by
  show "/" ++ (joined (location ++ names)).text = "/" ++ (joined location).text ++ "/" ++ _
  rw [Path.text_joined_append hlocation hne, String.append_assoc, String.append_assoc, String.append_assoc]

/-- Names behind a canonical path make the canonical path of the location below. -/
theorem pathOf_join (h : ∀ name ∈ location ++ names, IsName name) (hne : names ≠ []) :
    (pathOf location).join (joined names) = pathOf (location ++ names) := by
  obtain ⟨hlocation, hnames⟩ := List.forall_mem_append.mp h
  unfold Path.join
  rw [Path.isAbsolute_joined hnames hne, if_neg Bool.false_ne_true]
  by_cases hroot : location = []
  · -- the path of the root is a slash, and gets no second one
    subst hroot
    rw [if_pos (.inr (by decide))]
    rfl
  · have hlast : (pathOf location).text.toList.getLast? = (joined location).text.toList.getLast? := by
      have hsome : (joined location).text.toList.getLast?.isSome = true :=
        List.getLast?_isSome.mpr (Path.toList_joined_ne_nil hlocation hroot)
      show ("/" ++ (joined location).text).toList.getLast? = _
      rw [String.toList_append, List.getLast?_append, Option.or_of_isSome hsome]
    have hopen : ¬ ((pathOf location).text = "" ∨ (pathOf location).text.toList.getLast? = some '/') := by
      rw [hlast]
      exact not_or.mpr ⟨by simp [pathOf], Path.getLast?_joined_ne hlocation⟩
    rw [if_neg hopen, ← text_pathOf_append hroot hne]

/-! ## Following paths -/

theorem locate?_eq_some_iff : tree.locate? p = some location ↔ p.text ≠ "" ∧
    p.components.foldlM tree.step tree.working = some location ∧
    (needsDir p = true → tree.isDirAt location = true) := by
  unfold locate?
  by_cases htext : p.text = ""
  · simp [htext]
  · rw [if_neg htext]
    cases hfold : p.components.foldlM tree.step tree.working with
    | none => simp
    | some found =>
      dsimp only
      by_cases hstays : (needsDir p && !tree.isDirAt found) = true
      · rw [if_pos hstays]
        refine iff_of_false nofun ?_
        rintro ⟨-, hfound, hdir⟩
        obtain rfl := Option.some.inj hfound
        obtain ⟨hneeds, hno⟩ := (Bool.and_eq_true _ _).mp hstays
        simp [hdir hneeds] at hno
      · rw [if_neg hstays, and_iff_right htext, iff_self_and]
        intro hfound
        obtain rfl := Option.some.inj hfound
        simpa using hstays

/-- One more name leads one step down, from a directory to something in it. -/
theorem step_name_eq_some_iff {text : String} : tree.step location (.name text) = some target ↔
    tree.isDirAt location = true ∧ tree.existsAt (location ++ [text]) = true ∧
      target = location ++ [text] := by
  unfold step
  rw [Option.ite_none_right_eq_some, Bool.and_eq_true, and_assoc, Option.some_inj]
  exact and_congr_right fun _ => and_congr_right fun _ => eq_comm

/-- Names lead down by themselves, and only from a directory. -/
theorem of_foldlM_names (h : (names.map .name).foldlM tree.step location = some target) :
    target = location ++ names ∧ (names ≠ [] → tree.isDirAt location = true) := by
  induction names generalizing location with
  | nil => exact ⟨by simpa [eq_comm] using h, fun hne => absurd rfl hne⟩
  | cons name names ih =>
    obtain ⟨next, hstep, hrest⟩ := Option.bind_eq_some_iff.mp h
    obtain ⟨hdir, -, rfl⟩ := step_name_eq_some_iff.mp hstep
    exact ⟨by simpa using (ih hrest).1, fun _ => hdir⟩

/-- A path with names behind it leads below the location that it leads to without them. -/
theorem locate?_join (hp : p.text ≠ "") (h : ∀ name ∈ names, IsName name) (hne : names ≠ [])
    (hjoin : tree.locate? (p.join (joined names)) = some target) :
    ∃ location, tree.locate? p = some location ∧ target = location ++ names := by
  obtain ⟨-, hfold, -⟩ := locate?_eq_some_iff.mp hjoin
  rw [Path.components_join hp h hne, List.foldlM_append] at hfold
  obtain ⟨location, hlocation, hnames⟩ := Option.bind_eq_some_iff.mp hfold
  obtain ⟨htarget, hdir⟩ := of_foldlM_names hnames
  exact ⟨location, locate?_eq_some_iff.mpr ⟨hp, hlocation, fun _ => hdir hne⟩, htarget⟩

/-- The canonical path of a location leads nowhere else. -/
theorem locate?_pathOf (h : ∀ name ∈ location, IsName name)
    (hlocate : tree.locate? (pathOf location) = some target) : target = location := by
  obtain ⟨-, hfold, -⟩ := locate?_eq_some_iff.mp hlocate
  rw [components_pathOf h] at hfold
  exact (of_foldlM_names hfold).1

theorem canonical_of_locate? (h : tree.locate? p = some location) : tree.canonical p = pathOf location := by
  unfold canonical
  rw [h]

theorem canonical_of_locate?_none (h : tree.locate? p = none) : tree.canonical p = p := by
  unfold canonical
  rw [h]

theorem canonical_pathOf (h : ∀ name ∈ location, IsName name) :
    tree.canonical (pathOf location) = pathOf location := by
  cases hlocate : tree.locate? (pathOf location) with
  | none => exact canonical_of_locate?_none hlocate
  | some target => rw [canonical_of_locate? hlocate, locate?_pathOf h hlocate]

theorem text_canonical_ne (h : p.text ≠ "") : (tree.canonical p).text ≠ "" := by
  unfold canonical
  split
  · simp [pathOf]
  · exact h

/-- Steps with names lead from names to names. -/
theorem isName_of_foldlM {cs : List Path.Component} (hcs : ∀ text, .name text ∈ cs → IsName text)
    (h : ∀ name ∈ location, IsName name) (hfold : cs.foldlM tree.step location = some target) :
    ∀ name ∈ target, IsName name := by
  induction cs generalizing location with
  | nil =>
    obtain rfl : location = target := by simpa using hfold
    exact h
  | cons c cs ih =>
    obtain ⟨next, hstep, hrest⟩ := Option.bind_eq_some_iff.mp hfold
    refine ih (fun text htext => hcs text (List.mem_cons_of_mem _ htext)) ?_ hrest
    cases c with
    | root =>
      obtain rfl := Option.some.inj hstep
      exact fun name hname => absurd hname List.not_mem_nil
    | current =>
      obtain rfl := Option.some.inj hstep
      exact h
    | parent =>
      obtain ⟨-, hnext⟩ := Option.ite_none_right_eq_some.mp hstep
      obtain rfl := Option.some.inj hnext
      exact fun name hname => h name (List.dropLast_subset _ hname)
    | name text =>
      obtain ⟨-, -, rfl⟩ := step_name_eq_some_iff.mp hstep
      exact List.forall_mem_append.mpr
        ⟨h, List.forall_mem_singleton.mpr (hcs text List.mem_cons_self)⟩

/-- Where a path leads there are only names, when there are only names in the working directory. -/
theorem isName_of_locate? (hworking : ∀ name ∈ tree.working, IsName name)
    (hlocate : tree.locate? p = some location) : ∀ name ∈ location, IsName name := by
  obtain ⟨-, hfold, -⟩ := locate?_eq_some_iff.mp hlocate
  exact isName_of_foldlM (fun text => Path.isName_of_mem_components) hworking hfold

/-- A path leads wherever its canonical path leads. -/
theorem locate?_of_canonical (hworking : ∀ name ∈ tree.working, IsName name)
    (h : tree.locate? (tree.canonical p) = some location) : tree.locate? p = some location := by
  cases hlocate : tree.locate? p with
  | none => rwa [canonical_of_locate?_none hlocate, hlocate] at h
  | some found =>
    rw [canonical_of_locate? hlocate] at h
    rw [locate?_pathOf (isName_of_locate? hworking hlocate) h]

/-! ## Files and the directories above them -/

theorem isDirAt_of_file {rest : List String} (hrest : rest ≠ [])
    (hfile : (tree.file? (location ++ rest)).isSome = true) : tree.isDirAt location = true := by
  rw [file?, Option.isSome_map] at hfile
  obtain ⟨entry, hentry⟩ := Option.isSome_iff_exists.mp hfile
  have hat : entry.1 = location ++ rest := by simpa using List.find?_some hentry
  unfold isDirAt
  rw [Bool.or_eq_true]
  refine .inr (List.any_eq_true.mpr ⟨entry, List.mem_of_find?_eq_some hentry, ?_⟩)
  simp [hat, hrest]

/-- Names that lead along the way to a file are followed. -/
theorem foldlM_names_of_file {rest : List String} (hrest : rest ≠ [])
    (hfile : (tree.file? (location ++ (names ++ rest))).isSome = true) :
    (names.map .name).foldlM tree.step location = some (location ++ names) := by
  -- each name moves on to the location, and what is left still leads to the same file
  induction names generalizing location with
  | nil => simp
  | cons name names ih =>
    have hbelow : (tree.file? (location ++ [name] ++ (names ++ rest))).isSome = true := by
      simpa using hfile
    have hdir := isDirAt_of_file (List.append_ne_nil_of_right_ne_nil names hrest) hbelow
    have hstep : tree.step location (.name name) = some (location ++ [name]) :=
      step_name_eq_some_iff.mpr ⟨isDirAt_of_file (List.cons_ne_nil _ _) hfile,
        (Bool.or_eq_true _ _).mpr (.inl hdir), rfl⟩
    rw [List.map_cons, List.foldlM_cons, hstep, Option.bind_eq_bind, Option.bind_some, ih hbelow]
    simp

/-- Every directory above a file is found. -/
theorem locate?_of_file {rest : List String} (hrest : rest ≠ [])
    (hfile : (tree.file? (location ++ rest)).isSome = true)
    (hp : p.components = .root :: location.map .name) : tree.locate? p = some location := by
  refine locate?_eq_some_iff.mpr ⟨?_, ?_, fun _ => isDirAt_of_file hrest hfile⟩
  · intro hempty
    have hnone : p.components = [] := by
      obtain ⟨text⟩ := p
      obtain rfl : text = "" := hempty
      decide
    rw [hnone] at hp
    exact absurd hp nofun
  · have hfold : (location.map .name).foldlM tree.step [] = some ([] ++ location) :=
      foldlM_names_of_file hrest hfile
    rw [hp]
    exact hfold

/-! ## Opening -/

theorem openable?_eq_some_iff : tree.openable? p = some location ↔
    p.text.utf8ByteSize < pathLimit ∧ tree.locate? p = some location :=
  Option.ite_none_right_eq_some

theorem isFile_iff : tree.isFile p = true ↔
    ∃ location, tree.openable? p = some location ∧ (tree.file? location).isSome = true := by
  unfold isFile fileOf?
  rw [Option.isSome_bind]
  cases tree.openable? p <;> simp

theorem isDir_iff : tree.isDir p = true ↔
    ∃ location, tree.openable? p = some location ∧ tree.isDirAt location = true := by
  unfold isDir
  cases tree.openable? p <;> simp

/-- Every directory above a file that can be opened can be opened. -/
theorem isDir_of_isFile {rest : List String} (h : ∀ name ∈ location ++ rest, IsName name) (hrest : rest ≠ [])
    (hfile : tree.isFile (pathOf (location ++ rest)) = true) : tree.isDir (pathOf location) = true := by
  obtain ⟨target, hopen, hat⟩ := isFile_iff.mp hfile
  obtain ⟨hsize, hlocate⟩ := openable?_eq_some_iff.mp hopen
  obtain rfl := locate?_pathOf h hlocate
  have hlocation : ∀ name ∈ location, IsName name := (List.forall_mem_append.mp h).1
  have hshort : (pathOf location).text.utf8ByteSize ≤ (pathOf (location ++ rest)).text.utf8ByteSize := by
    by_cases hroot : location = []
    · subst hroot
      show ("/" ++ "").utf8ByteSize ≤ ("/" ++ (joined rest).text).utf8ByteSize
      rw [String.utf8ByteSize_append, String.utf8ByteSize_append]
      exact Nat.add_le_add_left (Nat.zero_le _) _
    · rw [text_pathOf_append hroot hrest, String.utf8ByteSize_append, String.utf8ByteSize_append]
      omega
  exact isDir_iff.mpr ⟨location, openable?_eq_some_iff.mpr ⟨Nat.lt_of_le_of_lt hshort hsize,
    locate?_of_file hrest hat (components_pathOf hlocation)⟩, isDirAt_of_file hrest hat⟩

end FileTree

end ServiceTrace
