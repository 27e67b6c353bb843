import ServiceTrace.Proofs.Graph.WellFormed
import ServiceTrace.Proofs.Json.Numeral
import ServiceTrace.Proofs.Text.Split

/-!
# `ServiceTrace.Proofs.Graph.Written` — the written form of a graph loses nothing

In written form a node goes by its qualified name, and by its name and its number when the name is taken. A
number is put behind a `#` without a look at the names that are still to come, so a name that ends in a `#`
and a number could be taken twice. It is enough that names are *plain* (`IsPlainName`): no `#` stands behind
their last dot. Then a key with a number is no qualified name, and two of them are the same only for the same
number. Identifiers are plain, and so is the text of a call chain that ends in one, whatever stands in front
(`isPlainName_render`).

With plain names no key is given twice (`CallGraph.nodup_keysFor`), so each node is written under a key of
its own, and an edge between keys says which nodes it joins: `CallGraph.export_faithful`.
-/

namespace ServiceTrace

/-! ## Plain names -/

/-- A name whose last component holds no `#`. -/
def IsPlainName (name : String) : Prop :=
  ∀ part, (Text.split '.' name).getLast? = some part → '#' ∉ part.toList

/-- Names without `#` are plain, such as identifiers. -/
theorem isPlainName_of_not_mem {name : String} (h : '#' ∉ name.toList) : IsPlainName name := by
  intro part hpart hmark
  obtain ⟨cs, hcs, rfl⟩ := List.mem_map.mp (List.mem_of_getLast? hpart)
  rw [String.toList_ofList] at hmark
  exact h ((Text.mem_splitAt hcs).2 '#' hmark)

/-- What stands in front of a component does not matter. -/
theorem isPlainName_append_dot {before name : String} :
    IsPlainName (before ++ "." ++ name) ↔ IsPlainName name := by
  unfold IsPlainName
  rw [Text.getLast?_split_append rfl]

/-- The text of a call chain is plain when its last attribute is. -/
theorem isPlainName_render {receiver : Expr} {attr : String} (h : IsPlainName attr) :
    IsPlainName (Expr.attribute receiver attr).render := by
  rw [Expr.render]
  exact isPlainName_append_dot.mpr h

theorem not_mem_toString {c : Char} (hc : c.isDigit = false) (n : Nat) : c ∉ (toString n).toList := by
  intro hmem
  rw [Nat.toString_eq_repr, Nat.toList_repr] at hmem
  have hdigit := Nat.isDigit_of_mem_toDigits (by decide) (by decide) hmem
  rw [hc] at hdigit
  exact Bool.false_ne_true hdigit

/-- A name with a number behind it is not plain. -/
theorem not_isPlainName_numbered (name : String) (n : Nat) :
    ¬ IsPlainName (name ++ "#" ++ toString n) := by
  have hdot : '.' ∉ (toString n).toList := not_mem_toString rfl n
  -- the last component of the name ends in the number
  have hlast : ∀ last : String, '.' ∉ last.toList → ¬ IsPlainName (last ++ "#" ++ toString n) := by
    intro last hno hplain
    have hwhole : '.' ∉ (last ++ "#" ++ toString n).toList := by
      rw [String.toList_append, String.toList_append, List.append_assoc]
      intro hmem
      rcases List.mem_append.mp hmem with hmem | hmem
      · exact hno hmem
      · exact hdot ((List.mem_cons.mp hmem).resolve_left (by decide))
    apply hplain (last ++ "#" ++ toString n)
    · rw [Text.split_of_not_mem hwhole]
      rfl
    · simp
  cases hcut : Text.splitLast? '.' name.toList with
  | none => exact hlast name (Text.splitLast?_eq_none_iff.mp hcut)
  | some parts =>
    obtain ⟨before, last⟩ := parts
    have hname : name ++ "#" ++ toString n =
        String.ofList before ++ "." ++ (String.ofList last ++ "#" ++ toString n) := by
      rw [← String.toList_inj]
      simp [Text.of_splitLast? hcut]
    rw [hname, isPlainName_append_dot]
    apply hlast
    rw [String.toList_ofList]
    exact Text.not_mem_of_splitLast? hcut

/-- The number behind a name can be read off. -/
theorem numbered_inj {name name' : String} {m n : Nat}
    (h : name ++ "#" ++ toString m = name' ++ "#" ++ toString n) : m = n := by
  have hread : ∀ (name : String) (n : Nat),
      Text.splitLast? '#' (name ++ "#" ++ toString n).toList = some (name.toList, (toString n).toList) := by
    intro name n
    have hlist : (name ++ "#" ++ toString n).toList = name.toList ++ '#' :: (toString n).toList := by simp
    rw [hlist, Text.splitLast?_append_cons (not_mem_toString rfl n)]
  have hboth := hread name m
  rw [h, hread name' n, Option.some.injEq, Prod.mk.injEq] at hboth
  have hdigits := congrArg Text.readDigits? hboth.2
  rw [Text.readDigits?_toString, Text.readDigits?_toString] at hdigits
  exact (Option.some.inj hdigits).symm

/-! ## Keys -/

namespace CallGraph

/-- The key of a node whose name is not taken. -/
def qualifiedName (n : GraphNode) : String :=
  n.module ++ "." ++ n.function

/-- The key of a node whose name is taken. -/
def numberedName (n : GraphNode) : String :=
  qualifiedName n ++ "#" ++ toString n.id

theorem keysFor_cons (taken : List String) (n : GraphNode) (ns : List GraphNode) :
    keysFor taken (n :: ns) =
      let key := if qualifiedName n ∈ taken then numberedName n else qualifiedName n
      (n.id, key) :: keysFor (key :: taken) ns :=
  rfl

theorem map_fst_keysFor (taken : List String) (nodes : List GraphNode) :
    (keysFor taken nodes).map Prod.fst = nodes.map (·.id) := by
  induction nodes generalizing taken with
  | nil => rfl
  | cons n ns ih =>
    rw [keysFor_cons, List.map_cons, ih]
    rfl

/-- A qualified name is not the name with number of any node. -/
theorem qualifiedName_ne_numberedName {m n : GraphNode} (h : IsPlainName m.function) :
    qualifiedName m ≠ numberedName n := by
  intro heq
  apply not_isPlainName_numbered (qualifiedName n) n.id
  show IsPlainName (numberedName n)
  rw [← heq]
  exact isPlainName_append_dot.mpr h

/-- **No key is given twice**, and none that was taken before: it is enough that none of these is the name
    with number of a node to come. -/
theorem nodup_keysFor {nodes : List GraphNode} (hids : (nodes.map (·.id)).Nodup)
    (hnames : ∀ n ∈ nodes, IsPlainName n.function) {taken : List String}
    (htaken : ∀ n ∈ nodes, numberedName n ∉ taken) :
    ((keysFor taken nodes).map Prod.snd).Nodup ∧ ∀ key ∈ (keysFor taken nodes).map Prod.snd, key ∉ taken := by
  induction nodes generalizing taken with
  | nil => exact ⟨List.nodup_nil, by simp [keysFor]⟩
  | cons n ns ih =>
    obtain ⟨hid, hids⟩ := List.nodup_cons.mp hids
    have hplain := hnames n List.mem_cons_self
    have hfree := htaken n List.mem_cons_self
    rw [keysFor_cons]
    generalize hkey : (if qualifiedName n ∈ taken then numberedName n else qualifiedName n) = key
    have hnew : key ∉ taken := by
      rw [← hkey]
      split
      · exact hfree
      · assumption
    have hlater : ∀ m ∈ ns, numberedName m ∉ key :: taken := by
      intro m hm hmem
      rcases List.mem_cons.mp hmem with heq | hmem
      · rw [← hkey] at heq
        split at heq
        · have hsame : m.id = n.id := numbered_inj heq
          exact hid (List.mem_map.mpr ⟨m, hm, hsame⟩)
        · exact qualifiedName_ne_numberedName hplain heq.symm
      · exact htaken m (List.mem_cons_of_mem n hm) hmem
    obtain ⟨hnodup, hrest⟩ := ih hids (fun m hm => hnames m (List.mem_cons_of_mem n hm)) hlater
    refine ⟨?_, ?_⟩
    · apply List.nodup_cons.mpr
      refine ⟨?_, hnodup⟩
      intro hmem
      exact hrest key hmem List.mem_cons_self
    · intro k hk
      rcases List.mem_cons.mp hk with rfl | hk
      · exact hnew
      · intro hmem
        exact hrest k hk (List.mem_cons_of_mem key hmem)

end CallGraph

/-! ## Writing nodes -/

theorem insertKeyed_perm {key : String} (node : GraphNode) {entries : List (String × GraphNode)}
    (h : key ∉ entries.map Prod.fst) : (insertKeyed key node entries).Perm ((key, node) :: entries) := by
  induction entries with
  | nil => exact List.Perm.refl _
  | cons entry entries ih =>
    obtain ⟨k, n⟩ := entry
    obtain ⟨hne, hrest⟩ := not_or.mp (mt List.mem_cons.mpr h)
    rw [insertKeyed, if_neg hne]
    split
    · exact List.Perm.refl _
    · exact ((ih hrest).cons (k, n)).trans (List.Perm.swap (key, node) (k, n) entries)

/-- Nodes with keys of their own are all written, each under its key. -/
theorem foldl_insertKeyed_perm {key : GraphNode → String} {nodes : List GraphNode}
    (h : (nodes.map key).Nodup) {entries : List (String × GraphNode)}
    (hnew : ∀ n ∈ nodes, key n ∉ entries.map Prod.fst) :
    (nodes.foldl (fun entries n => insertKeyed (key n) n entries) entries).Perm
      (entries ++ nodes.map fun n => (key n, n)) := by
  induction nodes generalizing entries with
  | nil => simp
  | cons n ns ih =>
    obtain ⟨hkey, hns⟩ := List.nodup_cons.mp h
    have hperm := insertKeyed_perm n (hnew n List.mem_cons_self)
    have hrest : ∀ m ∈ ns, key m ∉ (insertKeyed (key n) n entries).map Prod.fst := by
      intro m hm hmem
      rcases List.mem_cons.mp ((hperm.map Prod.fst).mem_iff.mp hmem) with heq | hmem
      · exact hkey (List.mem_map.mpr ⟨m, hm, heq⟩)
      · exact hnew m (List.mem_cons_of_mem n hm) hmem
    rw [List.foldl_cons]
    apply (ih hns hrest).trans
    apply (hperm.append_right _).trans
    exact List.perm_middle.symm

/-! ## Reading a written graph -/

/-- The number of the node that a written graph has under a key. -/
def GraphExport.number? (written : GraphExport) (key : String) : Option Nat :=
  (written.nodes.find? (·.1 = key)).map (·.2.id)

namespace CallGraph

/-- A graph that is stored by numbers: each number has one node, in their order, and the edges only mention
    numbers of nodes. -/
structure Stored (g : CallGraph) : Prop where
  sorted : (g.nodes.map (·.id)).Pairwise (· < ·)
  edges : ∀ e ∈ g.edges, g.HasNode e.start ∧ g.HasNode e.stop
  dotted : ∀ p ∈ g.dotted, g.HasNode p.1 ∧ g.HasNode p.2

/-- What the written form of a graph keeps of it. -/
structure WrittenFaithfully (g : CallGraph) : Prop where
  /-- Every node has a key. -/
  numbered : g.nodeKeys.map Prod.fst = g.nodes.map (·.id)
  /-- No two nodes have the same one. -/
  distinct : (g.nodeKeys.map Prod.snd).Nodup
  /-- The nodes are written once each, as they are, under their keys. -/
  nodes : g.export.nodes.Perm ((g.nodeKeys.map Prod.snd).zip g.nodes)
  /-- The keys of an edge are those of written nodes, which tell its ends; the edges keep their order. -/
  edges : g.export.edges.map (fun (start, stop, lines) =>
      (g.export.number? start, g.export.number? stop, lines)) =
    g.edges.map fun e => (some e.start, some e.stop, e.lines)
  /-- And so do the dotted edges. -/
  dotted : g.export.dotted.map (fun (start, stop) => (g.export.number? start, g.export.number? stop)) =
    g.dotted.map fun p => (some p.1, some p.2)

variable {g : CallGraph}

/-- With a node for each number, the keys are those that the numbers are written with. -/
theorem nodeKeys_eq (h : (g.nodes.map (·.id)).Nodup) :
    g.nodeKeys.map Prod.snd = g.nodes.map fun n => keyOf g.nodeKeys n.id := by
  have hfst : g.nodeKeys.map Prod.fst = g.nodes.map (·.id) := map_fst_keysFor [] g.nodes
  have hkey : ∀ p ∈ g.nodeKeys, keyOf g.nodeKeys p.1 = p.2 := by
    intro p hp
    have hnodup : (g.nodeKeys.map Prod.fst).Nodup := by rwa [hfst]
    rw [keyOf, find?_key_of_mem hnodup hp]
    rfl
  have hkeys : g.nodes.map (fun n => keyOf g.nodeKeys n.id) =
      (g.nodeKeys.map Prod.fst).map (keyOf g.nodeKeys) := by
    rw [hfst, List.map_map]
    rfl
  rw [hkeys, List.map_map]
  exact (List.map_congr_left hkey).symm

/-- **The written form of a graph loses nothing**, when the graph is stored by numbers and its names are
    plain. -/
theorem export_faithful (h : g.Stored) (hnames : ∀ n ∈ g.nodes, IsPlainName n.function) :
    g.WrittenFaithfully := by
  have hids : (g.nodes.map (·.id)).Nodup := h.sorted.imp Nat.ne_of_lt
  have hdistinct : (g.nodeKeys.map Prod.snd).Nodup :=
    (nodup_keysFor hids hnames fun n _ => List.not_mem_nil).1
  have hkeys := nodeKeys_eq hids
  have hnodes : g.export.nodes.Perm (g.nodes.map fun n => (keyOf g.nodeKeys n.id, n)) :=
    foldl_insertKeyed_perm (hkeys ▸ hdistinct) fun _ _ => List.not_mem_nil
  have hnumber : ∀ i, g.HasNode i → g.export.number? (keyOf g.nodeKeys i) = some i := by
    rintro i ⟨n, hn⟩
    have hi : n.id = i := by simpa using List.find?_some hn
    have hmem : (keyOf g.nodeKeys i, n) ∈ g.export.nodes := by
      rw [hnodes.mem_iff, ← hi]
      exact List.mem_map_of_mem (List.mem_of_find?_eq_some hn)
    have hkeyed : (g.export.nodes.map Prod.fst).Nodup := by
      rw [(hnodes.map Prod.fst).nodup_iff, List.map_map]
      exact hkeys ▸ hdistinct
    rw [GraphExport.number?, find?_key_of_mem hkeyed hmem, Option.map_some, hi]
  constructor
  · exact map_fst_keysFor [] g.nodes
  · exact hdistinct
  · have hzip := List.zip_map' (f := fun n => keyOf g.nodeKeys n.id) (g := id) (l := g.nodes)
    rw [List.map_id] at hzip
    rw [hkeys, hzip]
    exact hnodes
  · show (g.edges.map fun e => _).map _ = _
    rw [List.map_map]
    apply List.map_congr_left
    intro e he
    obtain ⟨hstart, hstop⟩ := h.edges e he
    simp only [Function.comp_apply, hnumber _ hstart, hnumber _ hstop]
  · show (g.dotted.map fun p => _).map _ = _
    rw [List.map_map]
    apply List.map_congr_left
    intro p hp
    obtain ⟨hstart, hstop⟩ := h.dotted p hp
    simp only [Function.comp_apply, hnumber _ hstart, hnumber _ hstop]

/-- A map with two nodes of one qualified name, whose dots are in different places, and two routing calls
    through one chain. -/
def marketMap : CallGraph where
  nodes := [
    ⟨0, "shop", "shop.py", "main", false, false, none, some 3, none⟩,
    ⟨1, "shop.cart", "shop/cart.py", "total", false, false, none, some 1, none⟩,
    ⟨2, "shop", "unknown", "cart.total", true, false, some ⟨"/total/", ["GET"], "c"⟩, none, none⟩,
    ⟨3, "unknown", "unknown", (Expr.attribute (.attribute (.str "#3") "session") "get").render, true, true,
      some ⟨"/price/", ["GET"], "c"⟩, none, none⟩,
    ⟨4, "unknown", "unknown", (Expr.attribute (.attribute (.str "#3") "session") "get").render, true, true,
      some ⟨"/stock/", ["GET"], "c"⟩, none, none⟩]
  edges := [⟨0, 1, [4, 9]⟩, ⟨0, 2, [5]⟩, ⟨1, 3, [2]⟩, ⟨1, 4, [3]⟩, ⟨0, 0, [6]⟩]
  dotted := [(3, 4), (4, 2)]

/-- The map is written faithfully, with the numbers of two nodes behind their names. -/
theorem marketMap_faithful : marketMap.Stored ∧ (∀ n ∈ marketMap.nodes, IsPlainName n.function) ∧
    marketMap.WrittenFaithfully ∧ marketMap.nodeKeys = [(0, "shop.main"), (1, "shop.cart.total"),
      (2, "shop.cart.total#2"), (3, "unknown.\"#3\".session.get"),
      (4, "unknown.\"#3\".session.get#4")] := by
  have hnode : ∀ i ∈ List.range 5, marketMap.HasNode i := by
    intro i hi
    have hall : ∀ i ∈ List.range 5, (marketMap.node? i).isSome = true := by decide
    exact Option.isSome_iff_exists.mp (hall i hi)
  have hstored : marketMap.Stored := by
    refine ⟨by decide, ?_, ?_⟩
    · intro e he
      have hends : ∀ e ∈ marketMap.edges, e.start ∈ List.range 5 ∧ e.stop ∈ List.range 5 := by decide
      exact ⟨hnode _ (hends e he).1, hnode _ (hends e he).2⟩
    · intro p hp
      have hends : ∀ p ∈ marketMap.dotted, p.1 ∈ List.range 5 ∧ p.2 ∈ List.range 5 := by decide
      exact ⟨hnode _ (hends p hp).1, hnode _ (hends p hp).2⟩
  have hget : IsPlainName "get" := isPlainName_of_not_mem (by decide)
  have hnames : ∀ n ∈ marketMap.nodes, IsPlainName n.function := by
    simp only [marketMap, List.forall_mem_cons]
    refine ⟨?_, ?_, ?_, isPlainName_render hget, isPlainName_render hget, nofun⟩
    all_goals exact isPlainName_of_not_mem (by decide)
  exact ⟨hstored, hnames, export_faithful hstored hnames, by decide +kernel⟩

end CallGraph

/-- A graph that is drawn from a trace is stored by numbers. -/
theorem Tracer.graph_stored {tracer : Tracer} {fuel : Nat} {module function : String} {t : Trace}
    (h : tracer.trace? fuel module function = some (.ok t)) {opts : GraphOptions} {g : CallGraph}
    (hg : t.graph opts = .ok g) : g.Stored := by
  have hdrawn := Draft.Drawn.drawn opts (tracer.trace?_coherent h)
  obtain rfl := Trace.eq_drawn hg
  have hjoined : ∀ e ∈ (t.drawn opts).edges, Joined (t.drawn opts).edges e.start e.stop :=
    fun e he => List.mem_map_of_mem (f := CallEdge.ends) he
  refine ⟨hdrawn.tables.sorted, ?_, ?_⟩
  · intro e he
    exact ⟨Draft.hasNode_iff.mp (hdrawn.starts _ _ (hjoined e he)).2,
      Draft.hasNode_iff.mp (hdrawn.stops _ _ (hjoined e he))⟩
  · intro p hp
    obtain ⟨hstart, hstop⟩ := hdrawn.dotted p hp
    exact ⟨Draft.hasNode_iff.mp hstart.hasNode, Draft.hasNode_iff.mp hstop.hasNode⟩

end ServiceTrace
