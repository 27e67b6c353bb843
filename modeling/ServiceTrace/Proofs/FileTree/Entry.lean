import ServiceTrace.Analysis
import ServiceTrace.Proofs.FileTree.Lookup
import ServiceTrace.Proofs.Trace.Closure

/-!
# `ServiceTrace.Proofs.FileTree.Entry` — which file a run analyses

A run is asked for a function in a file. It makes a module name of the file and looks this name up again, so
it analyses the file that the lookup finds. That is the given one exactly when the names on the way to it
survive being a dotted name and nothing is found before it.

* `FileTree.Regained` — when the lookup below the root leads back to the file.
* `Tracer.trace?_entryUnit` — the definition that the entry unit is made from, and its file.
* `FileTree.resolves_entryModule` — the file that the module name of an entry file leads to.
* **`FileTree.analyze_entryFile`** — a run analyses the given file when it is regained, and only then, unless
  some search path leads below the root.
-/

namespace ServiceTrace

open ModuleName (IsPart sourceFile packageFile parts)
open ServiceTrace.Path (IsName joined)

/-- A run of two steps succeeds when the first one does, and the second one with its result. -/
theorem exists_of_bind_eq_ok {ε α β : Type} {x : Except ε α} {f : α → Except ε β} {b : β}
    (h : x >>= f = .ok b) : ∃ a, x = .ok a ∧ f a = .ok b := by
  cases x with
  | error e => exact absurd h nofun
  | ok a => exact ⟨a, rfl, h⟩

/-- A run of two steps fails at the first one or at the second one. -/
theorem of_bind_eq_error {ε α β : Type} {x : Except ε α} {f : α → Except ε β} {e : ε}
    (h : x >>= f = .error e) : x = .error e ∨ ∃ a, x = .ok a ∧ f a = .error e := by
  cases x with
  | error e' => exact .inl (congrArg _ (Except.error.inj h))
  | ok a => exact .inr ⟨a, rfl, h⟩

/-- The entry unit of a trace is made from the definition that the entry module has for the entry function,
    and is in the file that the module resolves to. -/
theorem Tracer.trace?_entryUnit {tracer : Tracer} {fuel : Nat} {module function : String} {t : Trace}
    (h : tracer.trace? fuel module function = some (.ok t)) :
    ∃ u ref body d, t.units[t.entry]? = some u ∧ tracer.resolve module = some ref ∧ u.file = ref.path ∧
      tracer.parse module ref.path = .ok body ∧ Stmt.functionIn? body function = some d ∧
      u.name = function ∧ u.line = d.line := by
  obtain ⟨s, hp, hunits, -, -⟩ := Exploration.exists_progress h
  obtain ⟨u, hu, hkey⟩ := hp.entry
  obtain ⟨src, d, hsrc, hd, heq⟩ := hp.valid.units t.entry u hu
  obtain ⟨rfl, rfl⟩ : u.module = module ∧ u.name = function := Prod.mk.inj hkey
  have hfile : u.file = src.ref.path := by
    rw [heq]
    rfl
  have hline : u.line = d.line := by
    rw [heq]
    rfl
  unfold source? at hsrc
  split at hsrc
  · exact absurd hsrc nofun
  · rename_i ref hresolve
    obtain ⟨-, hsrc⟩ := Option.ite_none_right_eq_some.mp hsrc
    split at hsrc
    · exact absurd hsrc nofun
    · rename_i hparse
      obtain rfl := Option.some.inj hsrc
      exact ⟨u, ref, _, d, hunits ▸ hu, hresolve, hfile, hparse, hd, rfl, hline⟩

namespace FileTree

variable {tree : FileTree} {root : Location} {dirs names : List String} {stem : String}

/-! ## Files that are found again -/

/-- Below a root, the module in the file `stem` below `dirs` is found in this file again: the file can be
    opened, the names on the way to it are parts of dotted names, and the directory of a package has no module
    file beside it. -/
structure Regains (tree : FileTree) (root : Location) (dirs : List String) (stem : String) : Prop where
  parts : ∀ part ∈ dirs ++ [stem], IsPart part
  opens : tree.isFile (pathOf (root ++ (dirs ++ [sourceFile stem]))) = true
  alone : stem = "__init__" → ∀ above last, dirs = above ++ [last] →
    ¬ tree.isFile (pathOf (root ++ (above ++ [sourceFile last]))) = true

/-- A file is found again when it is a source file of this kind. -/
def Regained (tree : FileTree) (root : Location) (names : List String) : Prop :=
  ∃ dirs stem, names = dirs ++ [sourceFile stem] ∧ tree.Regains root dirs stem

/-- What is regained is found below the root. -/
theorem Regains.moduleFile? (h : tree.Regains root dirs stem) (hroot : ∀ n ∈ root, IsName n) :
    tree.moduleFile? (pathOf root) (ModuleName.ofPath (joined (dirs ++ [sourceFile stem]))) =
      some (pathOf (root ++ (dirs ++ [sourceFile stem]))) := by
  obtain ⟨hdirs, hstem⟩ := List.forall_mem_append.mp h.parts
  rw [List.forall_mem_singleton] at hstem
  have hparts := ModuleName.isPart_of_mem_parts_ofPath (ModuleName.isName_way hdirs hstem) (by simp)
  have hopens := h.opens
  have hname := ModuleName.parts_ofPath hdirs hstem
  by_cases hpackage : stem = "__init__" ∧ dirs ≠ []
  · rw [if_pos hpackage] at hname
    obtain ⟨rfl, hne⟩ := hpackage
    obtain ⟨above, last, rfl⟩ := dirs.eq_nil_or_concat'.resolve_left hne
    exact moduleFile?_package hparts hroot hname (h.alone rfl above last rfl) hopens
  · rw [if_neg hpackage] at hname
    exact moduleFile?_module hparts hroot hname hopens

/-- The end of the names that lead to a file of a module leads to a source file, by parts of dotted names. -/
theorem ModuleNames.of_suffix {name : String} {found : List String} (h : ModuleNames name found)
    (hparts : ∀ part ∈ parts name, IsPart part) (hne : names ≠ []) (hsuffix : names <:+ found) :
    ∃ dirs stem, names = dirs ++ [sourceFile stem] ∧ ∀ part ∈ dirs ++ [stem], IsPart part := by
  obtain ⟨dirs, file, rfl⟩ := names.eq_nil_or_concat'.resolve_left hne
  obtain ⟨front, hfront⟩ := hsuffix
  rw [← List.append_assoc] at hfront
  cases h with
  | module above last hname =>
    obtain ⟨rfl, hfile⟩ := List.append_inj' hfront rfl
    obtain rfl := List.singleton_inj.mp hfile
    refine ⟨dirs, last, rfl, fun part hpart => hparts part ?_⟩
    rw [hname, List.append_assoc]
    exact List.mem_append_right _ hpart
  | package above last hname =>
    obtain ⟨hdirs, hfile⟩ := List.append_inj' hfront rfl
    obtain rfl := List.singleton_inj.mp hfile
    rw [hname, ← hdirs] at hparts
    exact ⟨dirs, "__init__", rfl, List.forall_mem_append.mpr
      ⟨(List.forall_mem_append.mp hparts).2, List.forall_mem_singleton.mpr (by decide)⟩⟩

/-! ## The file of the entry unit -/

/-- A search path that does not lead below a location. -/
def Outside (tree : FileTree) (root : Location) (p : Path) : Prop :=
  p.text ≠ "" ∧ ∀ location, tree.locate? p = some location → root <+: location → location = root

/-- What leads to one place from a root and from another start that is not below it leads there from the root
    by the end of the way from the other start. -/
theorem suffix_of_append_eq {start found : List String} (h : start ++ found = root ++ names)
    (hside : root <+: start → start = root) : names <:+ found := by
  rcases List.append_eq_append_iff.mp h with ⟨more, -, hmore⟩ | ⟨more, hbelow, hmore⟩
  · exact ⟨more, hmore.symm⟩
  · have hsame : root ++ more = root := hbelow ▸ hside ⟨more, hbelow.symm⟩
    rw [hmore, List.append_right_eq_self.mp hsame]
    exact List.suffix_refl _

section Resolved

variable {rootPath : Path} {search : List Path} {external : List String} {ref : ModuleRef}
  (hroot : tree.locate? rootPath = some root) (hnames : ∀ n ∈ root ++ names, IsName n)
  (hresolve : (ModuleSearch.within tree rootPath search external).resolve
    (ModuleName.ofPath (joined names)) = some ref)
include hroot hnames hresolve

/-- A regained file is the one that the search finds. -/
theorem Regained.path_eq (h : tree.Regained root names) : ref.path = pathOf (root ++ names) := by
  obtain ⟨dirs, stem, rfl, h⟩ := h
  have hfound := h.moduleFile? (List.forall_mem_append.mp hnames).1
  rw [← canonical_of_locate? hroot] at hfound
  rw [path_of_root hfound hresolve, canonical_pathOf hnames]

/-- When the search finds the file of a package, there is no module file beside its directory. -/
theorem alone_of_path_eq (hpath : ref.path = pathOf (root ++ names)) {above : List String} {last : String}
    (hdirs : ∀ d ∈ above ++ [last], IsPart d) (hpackage : names = above ++ [last] ++ [packageFile]) :
    ¬ tree.isFile (pathOf (root ++ (above ++ [sourceFile last]))) = true := by
  subst hpackage
  intro hother
  have hrootNames := (List.forall_mem_append.mp hnames).1
  have hname := ModuleName.parts_ofPath hdirs (show IsPart "__init__" by decide)
  rw [if_pos ⟨rfl, by simp⟩] at hname
  have hparts : ∀ part ∈ parts (ModuleName.ofPath (joined (above ++ [last] ++ [sourceFile "__init__"]))),
      IsPart part := by rwa [hname]
  -- the module file would have been found before the file of the package
  have hfirst := moduleFile?_module hparts hrootNames hname hother
  rw [← canonical_of_locate? hroot] at hfirst
  have hotherNames := isName_below hparts hrootNames (.module above last hname)
  rw [path_of_root hfirst hresolve, canonical_pathOf hotherNames, pathOf_inj hotherNames hnames,
    List.append_cancel_left_eq] at hpath
  simpa using congrArg List.length hpath

/-- A file that the search finds is regained, when it can only be found from the root or from above. -/
theorem regained_of_path_eq (hworking : ∀ name ∈ tree.working, IsName name) (hne : names ≠ [])
    (houtside : ∀ p ∈ search, tree.Outside root p) (hpath : ref.path = pathOf (root ++ names)) :
    tree.Regained root names := by
  have hparts := ModuleName.isPart_of_mem_parts_ofPath (List.forall_mem_append.mp hnames).2 hne
  have hside : ∀ base ∈ rootPath :: search, tree.Outside root base := by
    rw [List.forall_mem_cons]
    refine ⟨⟨(locate?_eq_some_iff.mp hroot).1, ?_⟩, houtside⟩
    intro location hlocate _
    exact Option.some.inj (hlocate.symm.trans hroot)
  obtain ⟨base, hbase, start, found, hlocate, hmodule, hfound, hopens⟩ :=
    exists_location_of_resolve hworking hparts (fun base hbase => (hside base hbase).1) hresolve
  have hfoundNames := isName_below hparts (isName_of_locate? hworking hlocate) hmodule
  have hsame : start ++ found = root ++ names :=
    (pathOf_inj hfoundNames hnames).mp (hfound.symm.trans hpath)
  have hsuffix := suffix_of_append_eq hsame ((hside base hbase).2 start hlocate)
  obtain ⟨dirs, stem, rfl, hway⟩ := hmodule.of_suffix hparts hne hsuffix
  refine ⟨dirs, stem, rfl, hway, hpath ▸ hopens, ?_⟩
  rintro rfl above last rfl
  exact alone_of_path_eq hroot hnames hresolve hpath (List.forall_mem_append.mp hway).1 rfl

end Resolved

theorem text_defaultRoot_ne (tree : FileTree) (entry : Path) : (tree.defaultRoot entry).text ≠ "" := by
  unfold defaultRoot
  split
  · split
    · decide
    · assumption
  · decide

/-- What a run traces with. -/
def tracerFor (tree : FileTree) (root : Path) (catalog : Catalog) (opts : AnalysisOptions) : Tracer where
  resolve := (ModuleSearch.within tree root opts.searchPaths opts.settings.externalDirs).resolve
  parse := tree.parseModule opts.settings.maxFileSize
  clients := .ofNames catalog opts.settings.httpClients

/-- A run that succeeds has traced the function in the module that the entry file is named as. -/
theorem of_analyze {entry : Path} {function : String} {catalog : Catalog} {opts : AnalysisOptions}
    {a : Analysis} (h : tree.analyze entry function catalog opts = .ok a) :
    tree.entryModule (opts.root.getD (tree.defaultRoot entry)) entry = .ok a.entryModule ∧
      (tree.tracerFor (opts.root.getD (tree.defaultRoot entry)) catalog opts).trace? tree.traceFuel
        a.entryModule function = some (.ok a.trace) := by
  obtain ⟨name, hname, h⟩ := exists_of_bind_eq_ok h
  obtain ⟨t, htrace, h⟩ := exists_of_bind_eq_ok h
  obtain ⟨graph, -, h⟩ := exists_of_bind_eq_ok h
  obtain rfl := Except.ok.inj h
  refine ⟨hname, ?_⟩
  change ((tree.tracerFor _ catalog opts).trace? tree.traceFuel name function).getD _ = _ at htrace
  cases htraced : (tree.tracerFor (opts.root.getD (tree.defaultRoot entry)) catalog opts).trace?
      tree.traceFuel name function with
  | none =>
    rw [htraced, Option.getD_none] at htrace
    exact absurd htrace nofun
  | some result =>
    rw [htraced, Option.getD_some] at htrace
    rw [htrace]

/-- The module name of an entry file leads back to the file when that is regained below the root, and only
    then, unless some search path leads below the root. -/
theorem resolves_entryModule {entry rootPath : Path} {search : List Path} {external : List String}
    {module : String} {ref : ModuleRef} (hworking : ∀ name ∈ tree.working, IsName name)
    (hentry : tree.isFile entry = true) (htext : rootPath.text ≠ "")
    (hmodule : tree.entryModule rootPath entry = .ok module)
    (hresolve : (ModuleSearch.within tree rootPath search external).resolve module = some ref) :
    ∃ root names, tree.locate? rootPath = some root ∧ tree.locate? entry = some (root ++ names) ∧
      (tree.Regained root names → ref.path = tree.canonical entry) ∧
      ((∀ p ∈ search, tree.Outside root p) → ref.path = tree.canonical entry → tree.Regained root names) := by
  obtain ⟨E, hopen, hfile⟩ := isFile_iff.mp hentry
  have hlocate := (openable?_eq_some_iff.mp hopen).2
  rcases of_entryModule hworking hlocate hfile htext hmodule with
    rfl | ⟨root, names, hlocateRoot, hne, rfl, rfl⟩
  · -- the entry file itself as the root has a name without parts
    obtain ⟨base, -, file, hfound, -⟩ := of_resolve hresolve
    rw [moduleFile?_of_parts_nil (by decide)] at hfound
    exact absurd hfound nofun
  · have hnames := isName_of_locate? hworking hlocate
    rw [canonical_of_locate? hlocate]
    refine ⟨root, names, hlocateRoot, hlocate, ?_, ?_⟩
    · intro hregained
      exact hregained.path_eq hlocateRoot hnames hresolve
    · intro houtside hsame
      exact regained_of_path_eq hlocateRoot hnames hresolve hworking hne houtside hsame

theorem text_root_ne {root : Option Path} (h : root ≠ some ⟨""⟩) (tree : FileTree) (entry : Path) :
    (root.getD (tree.defaultRoot entry)).text ≠ "" := by
  cases root with
  | none => exact text_defaultRoot_ne tree entry
  | some path =>
    obtain ⟨text⟩ := path
    rintro rfl
    exact h rfl

/-- **A run analyses the given file when its name leads back to it.** The file lies below the root. When it is
    regained there, the entry unit is in this file; and when it is not, the entry unit is in another file,
    unless some search path leads below the root. -/
theorem analyze_entryFile {entry : Path} {function : String} {catalog : Catalog} {opts : AnalysisOptions}
    {a : Analysis} (hworking : ∀ name ∈ tree.working, IsName name) (hentry : tree.isFile entry = true)
    (hroot : opts.root ≠ some ⟨""⟩) (h : tree.analyze entry function catalog opts = .ok a) :
    ∃ root names u, tree.locate? (opts.root.getD (tree.defaultRoot entry)) = some root ∧
      tree.locate? entry = some (root ++ names) ∧ a.trace.units[a.trace.entry]? = some u ∧
      (tree.Regained root names → u.file = tree.canonical entry) ∧
      ((∀ p ∈ opts.searchPaths, tree.Outside root p) → u.file = tree.canonical entry →
        tree.Regained root names) := by
  obtain ⟨hmodule, htrace⟩ := of_analyze h
  obtain ⟨u, ref, -, -, hu, hresolve, hpath, -⟩ := Tracer.trace?_entryUnit htrace
  obtain ⟨root, names, hlocateRoot, hlocate, hregained, honly⟩ :=
    resolves_entryModule hworking hentry (text_root_ne hroot tree entry) hmodule hresolve
  rw [← hpath] at hregained honly
  exact ⟨root, names, u, hlocateRoot, hlocate, hu, hregained, honly⟩

/-- A source file with one function. -/
def mainFile : SourceFile where
  content := .text "def f(): pass\n"
  tree := some ⟨⟨"module", true, none, 0, 14⟩, [
    ⟨⟨"function_definition", true, none, 0, 13⟩, [
      ⟨⟨"identifier", true, some "name", 4, 5⟩, []⟩,
      ⟨⟨"parameters", true, some "parameters", 5, 7⟩, []⟩,
      ⟨⟨"block", true, some "body", 9, 13⟩, [⟨⟨"pass_statement", true, none, 9, 13⟩, []⟩]⟩]⟩]⟩

/-- A shop with a package `shop` and a module of the same name beside it. -/
def shopTree : FileTree where
  files := [(["srv", "shop.py"], mainFile), (["srv", "shop", "__init__.py"], mainFile),
    (["srv", "shop", "cart.py"], mainFile)]
  directories := []
  working := ["srv"]

def shopOptions : AnalysisOptions where
  root := some ⟨"."⟩
  searchPaths := []
  prune := false
  external := false
  settings := .default

/-- The cart of the shop is analysed where it is. -/
theorem shop_analyze_cart : shopTree.isFile ⟨"shop/cart.py"⟩ = true ∧
    ∃ a, shopTree.analyze ⟨"shop/cart.py"⟩ "f" ⟨[]⟩ shopOptions = .ok a ∧
      ∃ u, a.trace.units[a.trace.entry]? = some u ∧ u.file = ⟨"/srv/shop/cart.py"⟩ := by
  have hfile : shopTree.isFile ⟨"shop/cart.py"⟩ = true := by decide +kernel
  have hworking : ∀ name ∈ shopTree.working, IsName name := fun name hname =>
    List.mem_singleton.mp hname ▸ ⟨by decide, by decide, by decide, by decide⟩
  have hat : shopTree.locate? (shopOptions.root.getD (shopTree.defaultRoot ⟨"shop/cart.py"⟩)) =
      some ["srv"] := by decide +kernel
  have hentry : shopTree.locate? ⟨"shop/cart.py"⟩ = some (["srv"] ++ ["shop", "cart.py"]) := by
    decide +kernel
  obtain ⟨a, h⟩ : ∃ a, shopTree.analyze ⟨"shop/cart.py"⟩ "f" ⟨[]⟩ shopOptions = .ok a := ⟨_, rfl⟩
  obtain ⟨root, names, u, hroot, hnames, hu, hregained, -⟩ := analyze_entryFile hworking hfile (by decide) h
  obtain rfl := Option.some.inj (hat.symm.trans hroot)
  obtain rfl := List.append_cancel_left (Option.some.inj (hentry.symm.trans hnames))
  have hregains : shopTree.Regains ["srv"] ["shop"] "cart" :=
    ⟨by decide, by decide +kernel, fun hinit => absurd hinit (by decide)⟩
  have hcanonical : shopTree.canonical ⟨"shop/cart.py"⟩ = ⟨"/srv/shop/cart.py"⟩ := by decide +kernel
  exact ⟨hfile, a, h, u, hu, (hregained ⟨["shop"], "cart", by decide, hregains⟩).trans hcanonical⟩

/-- The package is not: the module beside it is analysed in its place. -/
theorem shop_analyze_package : shopTree.isFile ⟨"shop/__init__.py"⟩ = true ∧
    ∃ a, shopTree.analyze ⟨"shop/__init__.py"⟩ "f" ⟨[]⟩ shopOptions = .ok a ∧
      ∃ u, a.trace.units[a.trace.entry]? = some u ∧ u.file = ⟨"/srv/shop.py"⟩ ∧
        u.file ≠ shopTree.canonical ⟨"shop/__init__.py"⟩ := by
  refine ⟨by decide +kernel, _, rfl, _, rfl, ?_, ?_⟩ <;> decide +kernel

end FileTree

end ServiceTrace
