/-!
# `ServiceTrace.NameSet` — sets of names in order

The names that a module declares, that are referenced through an import, or that a trace follows are
sets. They are shown sorted by code points, so a set is kept as the strictly sorted list of its
members; being sorted is part of the type.

## Contents
- **`NameSet`**, `empty`, `insert`, `ofList`, `contains`.
- **`mem_insert`** — what `insert` adds; `mem_ofList` — what `ofList` holds.
-/

namespace ServiceTrace

/-- A set of names, as the strictly sorted list of its members. -/
structure NameSet where
  names : List String
  sorted : names.Pairwise (· < ·)
deriving DecidableEq

namespace NameSet

/-- The set without members. -/
def empty : NameSet :=
  ⟨[], .nil⟩

/-- A sorted list with one more member; a member that is there stays single. -/
def insertSorted (name : String) : List String → List String
  | [] => [name]
  | n :: ns =>
    if name = n then n :: ns
    else if name < n then name :: n :: ns
    else n :: insertSorted name ns

theorem mem_insertSorted {name x : String} {ns : List String} :
    x ∈ insertSorted name ns ↔ x = name ∨ x ∈ ns := by
  induction ns with
  | nil => simp [insertSorted]
  | cons n ns ih =>
    by_cases hn : name = n
    · simp [insertSorted, hn]
    · by_cases hlt : name < n
      · simp [insertSorted, hn, hlt]
      · simp only [insertSorted, hn, hlt, if_false, List.mem_cons, ih]
        exact or_left_comm

theorem sorted_insertSorted {name : String} {ns : List String} (h : ns.Pairwise (· < ·)) :
    (insertSorted name ns).Pairwise (· < ·) := by
  induction ns with
  | nil => simp [insertSorted]
  | cons n ns ih =>
    obtain ⟨hhead, htail⟩ := List.pairwise_cons.mp h
    by_cases hn : name = n
    · simpa [insertSorted, hn] using h
    · by_cases hlt : name < n
      · simp only [insertSorted, hn, hlt, if_false, if_true]
        refine List.pairwise_cons.mpr ⟨fun x hx => ?_, h⟩
        rcases List.mem_cons.mp hx with rfl | hx
        · exact hlt
        · exact String.lt_trans hlt (hhead x hx)
      · simp only [insertSorted, hn, hlt, if_false]
        refine List.pairwise_cons.mpr ⟨fun x hx => ?_, ih htail⟩
        rcases mem_insertSorted.mp hx with rfl | hx
        · exact Std.lt_of_le_of_ne hlt (Ne.symm hn)
        · exact hhead x hx

/-- The set with one more member. -/
def insert (s : NameSet) (name : String) : NameSet :=
  ⟨insertSorted name s.names, sorted_insertSorted s.sorted⟩

/-- The set of the names in a list. -/
def ofList (names : List String) : NameSet :=
  names.foldl insert empty

instance : Membership String NameSet :=
  ⟨fun s name => name ∈ s.names⟩

instance (name : String) (s : NameSet) : Decidable (name ∈ s) :=
  inferInstanceAs (Decidable (name ∈ s.names))

@[simp] theorem mem_insert {s : NameSet} {name x : String} :
    x ∈ s.insert name ↔ x = name ∨ x ∈ s :=
  mem_insertSorted

@[simp] theorem not_mem_empty {x : String} : ¬ x ∈ empty :=
  List.not_mem_nil

theorem mem_foldl_insert {names : List String} {s : NameSet} {x : String} :
    x ∈ names.foldl insert s ↔ x ∈ names ∨ x ∈ s := by
  induction names generalizing s with
  | nil => simp
  | cons n ns ih =>
    simp only [List.foldl_cons, ih, mem_insert, List.mem_cons]
    exact or_left_comm.trans or_assoc.symm

@[simp] theorem mem_ofList {names : List String} {x : String} : x ∈ ofList names ↔ x ∈ names := by
  simp [ofList, mem_foldl_insert]

end NameSet

end ServiceTrace
