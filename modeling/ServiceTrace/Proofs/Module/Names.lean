import Mathlib.Data.List.DropRight
import ServiceTrace.ModuleName
import ServiceTrace.Proofs.Path.Joined

/-!
# `ServiceTrace.Proofs.Module.Names` — from files to names, and from relative names to files

A module is named by the directories and the file that lead to it, and a relative import is read in the
package of the module that it stands in. Both are computed here for files at paths that are put together from
names.

* `ModuleName.ofPath_joined` — the name of the module in a file.
* `ModuleRef.packageParts_joined` — the package that its relative imports start from: the directory of the
  file. The one exception is `__init__.py` directly below the root. Its module cannot have the empty name, so it
  is called `__init__`, and counts as a package of this name.
* `ModuleName.absolute?_dots` — dots and a member behind them.
* **`ModuleName.absolute?_sibling_iff`** — a relative import of a file that lies beside the module, or beside
  one of the directories around it, is that of the module in this file. Under the root package it never is.
-/

namespace ServiceTrace

namespace ModuleName

/-- Whether a text can be one part of a dotted name. -/
structure IsPart (text : String) : Prop where
  nonempty : text ≠ ""
  noDot : '.' ∉ text.toList
  noSlash : '/' ∉ text.toList

instance (text : String) : Decidable (IsPart text) :=
  decidable_of_iff (text ≠ "" ∧ '.' ∉ text.toList ∧ '/' ∉ text.toList)
    ⟨fun ⟨hne, hdot, hslash⟩ => ⟨hne, hdot, hslash⟩, fun h => ⟨h.nonempty, h.noDot, h.noSlash⟩⟩

theorem IsPart.isName {text : String} (h : IsPart text) : Path.IsName text where
  nonempty := h.nonempty
  noSlash := h.noSlash
  notCurrent heq := h.noDot (heq ▸ by decide)
  notParent heq := h.noDot (heq ▸ by decide)

/-- The name of the source file of a module or of a package. -/
def sourceFile (stem : String) : String :=
  stem ++ "." ++ "py"

theorem toList_sourceFile (stem : String) : (sourceFile stem).toList = stem.toList ++ ".py".toList := by
  simp [sourceFile]

theorem IsPart.isName_sourceFile {stem : String} (h : IsPart stem) : Path.IsName (sourceFile stem) := by
  have hlong : 2 < (sourceFile stem).toList.length := by
    rw [toList_sourceFile, List.length_append]
    exact Nat.lt_add_left _ (by decide)
  refine ⟨?_, ?_, ?_, ?_⟩
  · exact fun heq => absurd hlong (heq ▸ by decide)
  · rw [toList_sourceFile]
    exact fun hmem => (List.mem_append.mp hmem).elim h.noSlash (by decide)
  · exact fun heq => absurd hlong (heq ▸ by decide)
  · exact fun heq => absurd hlong (heq ▸ by decide)

theorem splitExtension_sourceFile {stem : String} (h : stem ≠ "") :
    Path.splitExtension (sourceFile stem) = (stem, some "py") :=
  Path.splitExtension_append h (by decide)

theorem sourceFile_inj {stem stem' : String} : sourceFile stem = sourceFile stem' ↔ stem = stem' := by
  refine ⟨fun h => ?_, congrArg _⟩
  have hchars := congrArg String.toList h
  rw [toList_sourceFile, toList_sourceFile] at hchars
  exact String.toList_inj.mp (List.append_cancel_right hchars)

variable {dirs : List String} {file stem : String}

/-! ## Dotted names -/

/-- Names joined by dots. No names at all are the root package. -/
def dotted (names : List String) : String :=
  if names = [] then "__init__" else String.intercalate "." names

theorem parts_dotted {names : List String} (hne : names ≠ []) :
    parts (dotted names) = names.flatMap parts := by
  rw [dotted, if_neg hne, parts, Text.pieces_intercalate rfl]
  rfl

theorem parts_dotted_nil : parts (dotted []) = ["__init__"] := by
  decide

theorem flatMap_parts {names : List String} (h : ∀ name ∈ names, IsPart name) :
    names.flatMap parts = names :=
  Text.flatMap_pieces_of_forall fun name hname => ⟨(h name hname).nonempty, (h name hname).noDot⟩

theorem isPart_of_mem_parts {text part : String} (h : part ∈ parts text) (hslash : '/' ∉ text.toList) :
    IsPart part := by
  obtain ⟨hne, hdot, hsub⟩ := Text.mem_pieces h
  exact ⟨hne, hdot, fun hmem => hslash (hsub _ hmem)⟩

/-- Dotted names with the same parts are the same. -/
theorem intercalate_inj {names names' : List String} (h : ∀ name ∈ names, IsPart name)
    (h' : ∀ name ∈ names', IsPart name) :
    String.intercalate "." names = String.intercalate "." names' ↔ names = names' := by
  refine ⟨fun heq => ?_, congrArg _⟩
  have hparts : ∀ {names : List String}, (∀ name ∈ names, IsPart name) →
      parts (String.intercalate "." names) = names := fun h =>
    (Text.pieces_intercalate rfl _).trans (flatMap_parts h)
  rw [← hparts h, heq, hparts h']

/-! ## The module in a file -/

/-- The name of the module in a file is dotted from the directories and the stem, which counts for nothing in
    the file of a package. -/
theorem ofPath_joined (h : ∀ name ∈ dirs ++ [file], Path.IsName name) :
    ofPath (Path.joined (dirs ++ [file])) =
      dotted (if (Path.splitExtension file).1 = "__init__" then dirs
        else dirs ++ [(Path.splitExtension file).1]) := by
  have htexts : (Path.joined (dirs ++ [file])).components.map Path.Component.text = dirs ++ [file] := by
    rw [Path.components_joined h (by simp), List.map_map]
    exact List.map_id _
  have hstem : (Path.fileStem? ⟨file⟩).getD file = (Path.splitExtension file).1 := by
    rw [Path.fileStem?, (h file (by simp)).fileName?]
    rfl
  unfold ofPath
  simp only [htexts, List.getLast?_concat, List.dropLast_concat, hstem]
  rfl

/-- The way to a source file, by parts of dotted names. -/
theorem isName_way (hdirs : ∀ d ∈ dirs, IsPart d) (hstem : IsPart stem) :
    ∀ name ∈ dirs ++ [sourceFile stem], Path.IsName name :=
  List.forall_mem_append.mpr
    ⟨fun d hd => (hdirs d hd).isName, List.forall_mem_singleton.mpr hstem.isName_sourceFile⟩

theorem ofPath_sourceFile (hdirs : ∀ d ∈ dirs, IsPart d) (hstem : IsPart stem) :
    ofPath (Path.joined (dirs ++ [sourceFile stem])) =
      dotted (if stem = "__init__" then dirs else dirs ++ [stem]) := by
  rw [ofPath_joined (isName_way hdirs hstem), splitExtension_sourceFile hstem.nonempty]

/-- The parts of the name are those of the way to the file; only in a directory does the file of a package add
    none. -/
theorem parts_ofPath (hdirs : ∀ d ∈ dirs, IsPart d) (hstem : IsPart stem) :
    parts (ofPath (Path.joined (dirs ++ [sourceFile stem]))) =
      if stem = "__init__" ∧ dirs ≠ [] then dirs else dirs ++ [stem] := by
  have hall : ∀ name ∈ dirs ++ [stem], IsPart name :=
    List.forall_mem_append.mpr ⟨hdirs, List.forall_mem_singleton.mpr hstem⟩
  rw [ofPath_sourceFile hdirs hstem]
  by_cases hinit : stem = "__init__"
  · by_cases hroot : dirs = []
    · simp [hinit, hroot, parts_dotted_nil]
    · rw [if_pos hinit, if_pos ⟨hinit, hroot⟩, parts_dotted hroot, flatMap_parts hdirs]
  · rw [if_neg hinit, if_neg fun h => hinit h.1, parts_dotted (by simp), flatMap_parts hall]

/-- No part of the name of the module in a file has a slash in it. -/
theorem isPart_of_mem_parts_ofPath {names : List String} (h : ∀ name ∈ names, Path.IsName name)
    (hne : names ≠ []) : ∀ part ∈ parts (ofPath (Path.joined names)), IsPart part := by
  obtain ⟨dirs, file, rfl⟩ := names.eq_nil_or_concat'.resolve_left hne
  rw [ofPath_joined h]
  have hdirs : ∀ d ∈ dirs, '/' ∉ d.toList := fun d hd => (h d (List.mem_append_left _ hd)).noSlash
  have hstem : '/' ∉ (Path.splitExtension file).1.toList := fun hmem =>
    (h file (by simp)).noSlash ((Path.splitExtension_prefix file).subset hmem)
  have hdotted : ∀ ns : List String, (∀ n ∈ ns, '/' ∉ n.toList) → ∀ part ∈ parts (dotted ns), IsPart part := by
    intro ns hns part hpart
    by_cases hnil : ns = []
    · rw [hnil, parts_dotted_nil] at hpart
      exact List.mem_singleton.mp hpart ▸ by decide
    · rw [parts_dotted hnil] at hpart
      obtain ⟨n, hn, hpart⟩ := List.mem_flatMap.mp hpart
      exact isPart_of_mem_parts hpart (hns n hn)
  apply hdotted
  split
  · exact hdirs
  · exact List.forall_mem_append.mpr ⟨hdirs, List.forall_mem_singleton.mpr hstem⟩

/-! ## Relative names -/

/-- Whether a text ends in a blank. -/
def EndsBlank (text : String) : Prop :=
  ∃ c, text.toList.getLast? = some c ∧ Text.isBlank c = true

/-- What is dropped from the end of a text behind dots is dropped from the text alone. -/
theorem trimBlank_dots {n : Nat} (hn : 0 < n) (cs : List Char) :
    Text.trimBlank (List.replicate n '.' ++ cs) = List.replicate n '.' ++ cs.rdropWhile Text.isBlank := by
  obtain ⟨n, rfl⟩ := Nat.exists_eq_succ_of_ne_zero hn.ne'
  have hdots : (List.replicate (n + 1) '.').rdropWhile Text.isBlank = List.replicate (n + 1) '.' := by
    rw [List.replicate_succ', List.rdropWhile_concat_neg _ _ _ (by decide)]
  show ((List.replicate (n + 1) '.' ++ cs).dropWhile Text.isBlank).rdropWhile Text.isBlank = _
  rw [List.replicate_succ, List.cons_append, List.dropWhile_cons_of_neg (by decide), ← List.cons_append,
    ← List.replicate_succ]
  unfold List.rdropWhile at hdots ⊢
  rw [List.reverse_append, List.dropWhile_append]
  split
  · rename_i hempty
    rw [hdots, List.isEmpty_iff.mp hempty, List.reverse_nil, List.append_nil]
  · rw [List.reverse_append, List.reverse_reverse]

/-- A name without dots behind dots. The dots go up, and blanks at the end of the name count for nothing. -/
theorem absolute?_dots {package : List String} {n : Nat} (hn : 0 < n) (hup : n ≤ package.length + 1)
    {name : String} (hdot : '.' ∉ name.toList) :
    absolute? package (String.ofList (List.replicate n '.') ++ name) =
      some (String.intercalate "." (package.take (package.length + 1 - n) ++
        parts (String.ofList (name.toList.rdropWhile Text.isBlank)))) := by
  set rest := name.toList.rdropWhile Text.isBlank with hrest
  have hno : ∀ c ∈ rest, decide (c = '.') = false := fun c hc =>
    decide_eq_false fun heq => hdot (heq ▸ (List.rdropWhile_prefix _ _).subset hc)
  have hall : ∀ c ∈ List.replicate n '.', decide (c = '.') = true := fun c hc =>
    decide_eq_true (List.eq_of_mem_replicate hc)
  have htrim : Text.trimBlank (String.ofList (List.replicate n '.') ++ name).toList =
      List.replicate n '.' ++ rest := by
    rw [String.toList_append, String.toList_ofList, trimBlank_dots hn]
  have hdots : (List.replicate n '.' ++ rest).takeWhile (· = '.') = List.replicate n '.' := by
    rw [List.takeWhile_append_of_pos hall]
    cases hcs : rest with
    | nil => exact List.append_nil _
    | cons c cs =>
      rw [List.takeWhile_cons_of_neg (by simp [hno c (hcs ▸ List.mem_cons_self)]), List.append_nil]
  have hafter : (List.replicate n '.' ++ rest).dropWhile (· = '.') = rest := by
    rw [List.dropWhile_append_of_pos hall]
    cases hcs : rest with
    | nil => rfl
    | cons c cs => exact List.dropWhile_cons_of_neg (by simp [hno c (hcs ▸ List.mem_cons_self)])
  have hne : List.replicate n '.' ≠ [] := by
    simpa using hn.ne'
  have hkept : package.length - (n - 1) = package.length + 1 - n := by omega
  unfold absolute?
  simp only [htrim, hdots, hafter, if_neg hne, List.length_replicate, hkept]
  rw [if_neg (by omega)]

/-- Nothing is missing from a name without its last blanks when there are none. -/
theorem parts_trimmed_iff {name : String} (h : IsPart name) :
    parts (String.ofList (name.toList.rdropWhile Text.isBlank)) = [name] ↔ ¬ EndsBlank name := by
  set rest := name.toList.rdropWhile Text.isBlank with hrest
  have hself : rest = name.toList ↔ ¬ EndsBlank name := by
    have hlast : ∀ hne : name.toList ≠ [], name.toList.getLast? = some (name.toList.getLast hne) :=
      fun hne => List.getLast?_eq_some_getLast hne
    rw [hrest, List.rdropWhile_eq_self_iff]
    constructor
    · rintro hkept ⟨c, hc, hblank⟩
      have hne : name.toList ≠ [] := List.ne_nil_of_mem (List.mem_of_getLast? hc)
      rw [hlast hne] at hc
      exact hkept hne (Option.some.inj hc ▸ hblank)
    · exact fun hends hne hblank => hends ⟨_, hlast hne, hblank⟩
  have hno : '.' ∉ (String.ofList rest).toList := by
    rw [String.toList_ofList]
    exact fun hc => h.noDot ((List.rdropWhile_prefix _ _).subset hc)
  rw [← hself]
  by_cases hnil : rest = []
  · rw [hnil]
    exact iff_of_false (fun heq => by simp [parts, Text.pieces, Text.split, Text.splitAt] at heq)
      fun heq => h.nonempty (String.toList_eq_nil_iff.mp heq.symm)
  · have hne : String.ofList rest ≠ "" := by simpa using hnil
    rw [parts, Text.pieces_of_not_mem hno hne, List.singleton_inj, ← String.toList_inj,
      String.toList_ofList]

/-! ## Packages -/

theorem isPackage_sourceFile (hdirs : ∀ d ∈ dirs, IsPart d) (hstem : IsPart stem) (name : String)
    (owned : Bool) : ModuleRef.isPackage ⟨name, Path.joined (dirs ++ [sourceFile stem]), owned⟩ =
      decide (stem = "__init__") := by
  have hfile : sourceFile stem = sourceFile "__init__" ↔ stem = "__init__" := sourceFile_inj
  unfold ModuleRef.isPackage
  rw [Path.fileName?_joined (isName_way hdirs hstem)]
  exact decide_eq_decide.mpr (Option.some_inj.trans hfile)

/-- Relative imports in a file start from its directory, except in the file of the root package. -/
theorem packageParts_sourceFile (hdirs : ∀ d ∈ dirs, IsPart d) (hstem : IsPart stem) (owned : Bool) :
    ModuleRef.packageParts ⟨ofPath (Path.joined (dirs ++ [sourceFile stem])),
        Path.joined (dirs ++ [sourceFile stem]), owned⟩ =
      if dirs = [] ∧ stem = "__init__" then ["__init__"] else dirs := by
  unfold ModuleRef.packageParts
  rw [isPackage_sourceFile hdirs hstem, parts_ofPath hdirs hstem]
  by_cases hinit : stem = "__init__"
  · by_cases hroot : dirs = []
    · simp [hinit, hroot]
    · simp [hinit, hroot]
  · simp [hinit]

/-! ## Siblings -/

/-- **Relative imports reach the files beside a module.** In the module of the file `stem` below `dirs`, `n`
    dots and the stem of a file in the `n`-th directory above name the module in this file, unless the name ends
    in a blank. The root package is the exception, for in it no file beside it is reached. -/
theorem absolute?_sibling_iff {sibling : String} (hdirs : ∀ d ∈ dirs, IsPart d) (hstem : IsPart stem)
    (hsibling : IsPart sibling) (hinit : sibling ≠ "__init__") {n : Nat} (hpos : 0 < n)
    (hn : n ≤ dirs.length + 1) (owned : Bool) :
    absolute? (ModuleRef.packageParts ⟨ofPath (Path.joined (dirs ++ [sourceFile stem])),
        Path.joined (dirs ++ [sourceFile stem]), owned⟩)
        (String.ofList (List.replicate n '.') ++ sibling) =
      some (ofPath (Path.joined (dirs.take (dirs.length + 1 - n) ++ [sourceFile sibling]))) ↔
    ¬ (dirs = [] ∧ stem = "__init__") ∧ ¬ EndsBlank sibling := by
  set trimmed := parts (String.ofList (sibling.toList.rdropWhile Text.isBlank)) with htrimmed
  have htake : ∀ d ∈ dirs.take (dirs.length + 1 - n), IsPart d := fun d hd =>
    hdirs d (List.mem_of_mem_take hd)
  have htarget : ofPath (Path.joined (dirs.take (dirs.length + 1 - n) ++ [sourceFile sibling])) =
      String.intercalate "." (dirs.take (dirs.length + 1 - n) ++ [sibling]) := by
    rw [ofPath_sourceFile htake hsibling, if_neg hinit, dotted, if_neg (by simp)]
  have htargetParts : ∀ d ∈ dirs.take (dirs.length + 1 - n) ++ [sibling], IsPart d :=
    List.forall_mem_append.mpr ⟨htake, List.forall_mem_singleton.mpr hsibling⟩
  have hpart : ∀ part ∈ trimmed, IsPart part := fun part hmem =>
    isPart_of_mem_parts hmem fun hc => by
      rw [String.toList_ofList] at hc
      exact hsibling.noSlash ((List.rdropWhile_prefix _ _).subset hc)
  rw [packageParts_sourceFile hdirs hstem, htarget]
  by_cases hroot : dirs = [] ∧ stem = "__init__"
  · -- the name starts with `__init__`, which the sibling is not called
    obtain ⟨rfl, rfl⟩ := hroot
    obtain rfl : n = 1 := Nat.le_antisymm hn hpos
    have hnames : ∀ part ∈ ["__init__"] ++ trimmed, IsPart part :=
      List.forall_mem_append.mpr ⟨List.forall_mem_singleton.mpr hstem, hpart⟩
    refine iff_of_false (fun heq => ?_) fun h => h.1 ⟨rfl, rfl⟩
    rw [if_pos ⟨rfl, rfl⟩, absolute?_dots hpos (by decide) hsibling.noDot, Option.some_inj] at heq
    have hlists : ["__init__"] ++ trimmed = [sibling] := (intercalate_inj hnames htargetParts).mp heq
    exact hinit (List.cons_eq_cons.mp hlists).1.symm
  · rw [if_neg hroot, absolute?_dots hpos hn hsibling.noDot, Option.some_inj, ← htrimmed,
      intercalate_inj ?_ htargetParts, List.append_cancel_left_eq, parts_trimmed_iff hsibling]
    · exact (and_iff_right hroot).symm
    · exact List.forall_mem_append.mpr ⟨htake, hpart⟩

/-- In `shop/cart/api.py` the import of `..util` is that of `shop/util.py`. -/
theorem shop_absolute?_util :
    absolute? (ModuleRef.packageParts ⟨ofPath ⟨"shop/cart/api.py"⟩, ⟨"shop/cart/api.py"⟩, true⟩) "..util" =
      some (ofPath ⟨"shop/util.py"⟩) := by
  have hends : ¬ EndsBlank "util" := by
    rintro ⟨c, hc, hblank⟩
    obtain rfl : 'l' = c := Option.some.inj hc
    exact absurd hblank (by decide)
  exact (absolute?_sibling_iff (show ∀ d ∈ ["shop", "cart"], IsPart d by decide)
    (show IsPart "api" by decide) (show IsPart "util" by decide) (by decide) (show 0 < 2 by decide)
    (by decide) true).mpr ⟨by decide, hends⟩

/-- In the root package the import of `.cart` is not that of the file beside it. -/
theorem rootPackage_absolute?_cart :
    absolute? (ModuleRef.packageParts ⟨ofPath ⟨"__init__.py"⟩, ⟨"__init__.py"⟩, true⟩) ".cart" =
        some "__init__.cart" ∧
      ofPath ⟨"cart.py"⟩ = "cart" := by
  decide

end ModuleName

end ServiceTrace
