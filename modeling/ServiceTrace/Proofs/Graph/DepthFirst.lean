import Mathlib.Data.List.Perm.Subperm
import ServiceTrace.Proofs.Graph.Coherence

/-!
# `ServiceTrace.Proofs.Graph.DepthFirst` — the walk enters every body once, depth first

`Trace.sites` keeps an agenda and a budget of bodies. What it computes is the plain recursive walk, stated
here as a relation: `Trace.DepthFirst` meets the sites of a body from first to last, and before it goes
on behind a site that leads to a body which has not been entered, it meets that body.

* `Coherent.sites_depthFirst`, `Coherent.eq_sites` — the sites are met depth first, and there is no other
  depth-first order;
* `Coherent.sites_filter` — every unit is entered, once: among the sites met, those of a unit are exactly
  the sites of its body, in order;
* `Coherent.sites_led` — a site is met only after its unit has been led to;
* `Coherent.sites_perm` — the sites that are met are those of all units.

The inductions are on derivations of the relation; entering a body is the only case with two premises,
one for the body and one for the rest of the calling body.
-/

namespace ServiceTrace

namespace Trace

/-- From the bodies in `entered` and the sites in `agenda` on, a depth-first walk meets the sites in `met`
    and has entered the bodies in `entered'` afterwards. -/
inductive DepthFirst (t : Trace) :
    List Nat → List CallSite → List Nat → List CallSite → Prop where
  | done {entered} : DepthFirst t entered [] entered []
  /-- A site that leads to no body, or to one that has been entered, is passed. -/
  | pass {entered entered' site rest met}
      (hpass : ∀ id, t.callee? site = some id → id ∈ entered)
      (hrest : DepthFirst t entered rest entered' met) :
      DepthFirst t entered (site :: rest) entered' (site :: met)
  /-- A site that leads to a new body is followed by that body, and then by what comes after it. -/
  | enter {entered inner entered' site id rest body met}
      (hcallee : t.callee? site = some id) (hnew : id ∉ entered)
      (hbody : DepthFirst t (id :: entered) (t.sitesAt id) inner body)
      (hrest : DepthFirst t inner rest entered' met) :
      DepthFirst t entered (site :: rest) entered' (site :: (body ++ met))

/-- The order in which a depth-first walk from the entry meets call sites. -/
def DepthFirstOrder (t : Trace) (order : List CallSite) : Prop :=
  ∃ entered, t.DepthFirst [t.entry] (t.sitesAt t.entry) entered order

variable {t : Trace}

/-! ## The agenda follows the relation -/

theorem walk_nil (bodies : Nat) (entered : List Nat) : t.walk bodies entered [] = [] := by
  cases bodies <;> rfl

theorem filter_callee?_eq_none {entered : List Nat} {site : CallSite}
    (h : ∀ id, t.callee? site = some id → id ∈ entered) :
    (t.callee? site).filter (· ∉ entered) = none := by
  cases hc : t.callee? site with
  | none => rfl
  | some id => simp [h id hc]

/-- A site that enters no body is met before what the rest of the agenda meets. -/
theorem walk_pass {entered : List Nat} {site : CallSite}
    (h : ∀ id, t.callee? site = some id → id ∈ entered) (bodies : Nat) (rest : List CallSite) :
    t.walk bodies entered (site :: rest) = site :: t.walk bodies entered rest := by
  cases bodies with
  | zero => rfl
  | succ bodies =>
    unfold walk
    rw [splitAtEntry, filter_callee?_eq_none h]
    cases t.splitAtEntry entered rest with
    | none => rfl
    | some cut => rfl

/-- A site that enters a body is met before the sites of that body. -/
theorem walk_enter {entered : List Nat} {site : CallSite} {id : Nat}
    (hcallee : t.callee? site = some id) (hnew : id ∉ entered) (bodies : Nat)
    (rest : List CallSite) :
    t.walk (bodies + 1) entered (site :: rest) =
      site :: t.walk bodies (id :: entered) (t.sitesAt id ++ rest) := by
  have hfilter : (t.callee? site).filter (· ∉ entered) = some id := by simp [hcallee, hnew]
  have hsplit : t.splitAtEntry entered (site :: rest) = some ([site], id, rest) := by
    rw [splitAtEntry, hfilter]
  rw [walk, hsplit]
  rfl

/-- With a budget for the bodies that are entered on the way, the agenda meets what the relation says and
    goes on from there. -/
theorem DepthFirst.walk_append {entered agenda entered' met}
    (h : t.DepthFirst entered agenda entered' met) :
    ∃ k, entered'.length = k + entered.length ∧ ∀ bodies rest,
      t.walk (bodies + k) entered (agenda ++ rest) = met ++ t.walk bodies entered' rest := by
  induction h with
  | done => exact ⟨0, (Nat.zero_add _).symm, fun _ _ => rfl⟩
  | @pass entered entered' site rest met hpass _ ih =>
    obtain ⟨k, hk, hwalk⟩ := ih
    refine ⟨k, hk, fun bodies tail => ?_⟩
    rw [List.cons_append, walk_pass hpass, hwalk, List.cons_append]
  | @enter entered inner entered' site id rest body met hcallee hnew _ _ ihbody ihrest =>
    obtain ⟨k, hk, hbody⟩ := ihbody
    obtain ⟨l, hl, hrest⟩ := ihrest
    refine ⟨l + k + 1, by simp only [List.length_cons] at hk; omega, fun bodies tail => ?_⟩
    rw [show bodies + (l + k + 1) = bodies + l + k + 1 by omega, List.cons_append,
      walk_enter hcallee hnew, hbody, hrest, List.cons_append, List.append_assoc]

/-! ## Bodies are entered once -/

/-- A list of different positions of the trace. -/
def Positions (t : Trace) (entered : List Nat) : Prop :=
  entered.Nodup ∧ ∀ i ∈ entered, i < t.units.length

theorem Positions.length_le {entered : List Nat} (h : t.Positions entered) :
    entered.length ≤ t.units.length := by
  have hsub : entered ⊆ List.range t.units.length :=
    fun i hi => List.mem_range.mpr (h.2 i hi)
  have hle := (List.subperm_of_subset h.1 hsub).length_le
  rwa [List.length_range] at hle

theorem Positions.cons {entered : List Nat} (h : t.Positions entered) {i : Nat} (hi : i ∉ entered)
    (hlt : i < t.units.length) : t.Positions (i :: entered) :=
  ⟨List.nodup_cons.mpr ⟨hi, h.1⟩, fun j hj => (List.mem_cons.mp hj).elim (· ▸ hlt) (h.2 j)⟩

theorem DepthFirst.subset {entered agenda entered' met}
    (h : t.DepthFirst entered agenda entered' met) : entered ⊆ entered' := by
  induction h with
  | done => exact fun _ hi => hi
  | pass _ _ ih => exact ih
  | enter _ _ _ _ ihbody ihrest =>
    exact fun i hi => ihrest (ihbody (List.mem_cons_of_mem _ hi))

theorem DepthFirst.positions (ht : t.Coherent) {entered agenda entered' met}
    (h : t.DepthFirst entered agenda entered' met) (hp : t.Positions entered) :
    t.Positions entered' := by
  induction h with
  | done => exact hp
  | pass _ _ ih => exact ih hp
  | enter hcallee hnew _ _ ihbody ihrest => exact ihrest (ihbody (hp.cons hnew (ht.callee?_lt hcallee)))

/-- There is a depth-first walk from everywhere. -/
theorem Coherent.exists_depthFirst (ht : t.Coherent) (agenda : List CallSite) {entered : List Nat}
    (hp : t.Positions entered) : ∃ entered' met, t.DepthFirst entered agenda entered' met := by
  -- the number of bodies left goes down with every body entered, the agenda with every site passed
  induction hk : t.units.length - entered.length using Nat.strong_induction_on
    generalizing entered agenda with
  | _ k ihk =>
    induction agenda with
    | nil => exact ⟨entered, [], .done⟩
    | cons site rest ih =>
      by_cases hpass : ∀ id, t.callee? site = some id → id ∈ entered
      · obtain ⟨entered', met, hrest⟩ := ih
        exact ⟨entered', site :: met, .pass hpass hrest⟩
      · obtain ⟨id, hcallee, hnew⟩ : ∃ id, t.callee? site = some id ∧ id ∉ entered := by
          simpa using hpass
        have hcons := hp.cons hnew (ht.callee?_lt hcallee)
        have hle := hcons.length_le
        rw [List.length_cons] at hle
        obtain ⟨inner, body, hbody⟩ :=
          ihk _ (by rw [List.length_cons]; omega) (t.sitesAt id) hcons rfl
        obtain ⟨j, hj, -⟩ := hbody.walk_append
        rw [List.length_cons] at hj
        obtain ⟨entered', met, hrest⟩ := ihk _ (by omega) rest (hbody.positions ht hcons) rfl
        exact ⟨entered', site :: (body ++ met), .enter hcallee hnew hbody hrest⟩

theorem Coherent.positions_entry (ht : t.Coherent) : t.Positions [t.entry] :=
  ⟨List.nodup_singleton _, fun _ hi => List.mem_singleton.mp hi ▸ ht.entry_lt⟩

/-- Any depth-first order is the order of the sites: the number of units is budget enough. -/
theorem Coherent.eq_sites (ht : t.Coherent) {order : List CallSite} (h : t.DepthFirstOrder order) :
    order = t.sites := by
  obtain ⟨entered, h⟩ := h
  obtain ⟨k, hk, hwalk⟩ := h.walk_append
  have hle := (h.positions ht ht.positions_entry).length_le
  rw [List.length_singleton] at hk
  have hall := hwalk (t.units.length - k) []
  rw [show t.units.length - k + k = t.units.length by omega, List.append_nil, walk_nil,
    List.append_nil] at hall
  exact hall.symm

/-- The sites of a trace are met depth first. -/
theorem Coherent.sites_depthFirst (ht : t.Coherent) : t.DepthFirstOrder t.sites := by
  obtain ⟨entered, met, h⟩ := ht.exists_depthFirst (t.sitesAt t.entry) ht.positions_entry
  exact ht.eq_sites ⟨entered, h⟩ ▸ ⟨entered, h⟩

/-! ## What is met -/

/-- The sites at a position belong to one unit. -/
theorem Coherent.filter_sitesAt (ht : t.Coherent) (i j : Nat) :
    (t.sitesAt i).filter (·.unit.id = j) = if i = j then t.sitesAt i else [] := by
  by_cases hij : i = j
  · rw [if_pos hij]
    exact List.filter_eq_self.mpr fun site hs => by simp [(ht.unit_of_mem_sitesAt hs).2, hij]
  · rw [if_neg hij]
    exact List.filter_eq_nil_iff.mpr fun site hs => by simp [(ht.unit_of_mem_sitesAt hs).2, hij]

/-- The sites of a unit that a walk meets: those on the agenda, when its body has been entered before, and
    those of its body, when it is entered on the way. -/
theorem DepthFirst.filter_met (ht : t.Coherent) {entered agenda entered' met}
    (h : t.DepthFirst entered agenda entered' met)
    (hagenda : ∀ site ∈ agenda, site.unit.id ∈ entered) (i : Nat) :
    met.filter (·.unit.id = i) =
      if i ∈ entered then agenda.filter (·.unit.id = i)
      else if i ∈ entered' then t.sitesAt i else [] := by
  induction h with
  | @done entered => by_cases hi : i ∈ entered <;> simp [hi]
  | @pass entered entered' site rest met _ _ ih =>
    have ih := ih fun s hs => hagenda s (List.mem_cons_of_mem _ hs)
    have hsite := hagenda site List.mem_cons_self
    rw [List.filter_cons, List.filter_cons, ih]
    by_cases hi : site.unit.id = i
    · subst hi
      simp [hsite]
    · simp [hi]
  | @enter entered inner entered' site id rest body met hcallee hnew hbody hrest ihbody ihrest =>
    have hinner : ∀ j ∈ entered, j ∈ inner :=
      fun j hj => hbody.subset (List.mem_cons_of_mem _ hj)
    have ihbody := ihbody fun s hs => by
      rw [(ht.unit_of_mem_sitesAt hs).2]
      exact List.mem_cons_self
    have ihrest := ihrest fun s hs => hinner _ (hagenda s (List.mem_cons_of_mem _ hs))
    have hsite := hagenda site List.mem_cons_self
    -- the rest of the agenda belongs to bodies that were entered before
    have hrest_nil : i ∉ entered → rest.filter (·.unit.id = i) = [] := by
      intro hi
      refine List.filter_eq_nil_iff.mpr fun s hs => ?_
      have hs' := hagenda s (List.mem_cons_of_mem _ hs)
      simp only [decide_eq_true_eq]
      exact fun he => hi (he ▸ hs')
    rw [List.filter_cons, List.filter_cons, List.filter_append, ihbody, ihrest, ht.filter_sitesAt]
    by_cases hi : i ∈ entered
    · have hne : id ≠ i := fun he => hnew (he ▸ hi)
      simp [hi, hinner i hi, hne]
    · have hne : site.unit.id ≠ i := fun he => hi (he ▸ hsite)
      by_cases hid : id = i
      · subst hid
        have hin : id ∈ inner := hbody.subset List.mem_cons_self
        simp [hi, hne, hin, hrest.subset hin, hrest_nil hi]
      · have hid' : i ≠ id := Ne.symm hid
        by_cases hin : i ∈ inner
        · simp [hi, hne, hid', hin, hrest.subset hin, hrest_nil hi]
        · simp [hi, hne, hid', hin]

/-- A body that a site leads to has been entered in the end. -/
theorem DepthFirst.callee_entered {entered agenda entered' met}
    (h : t.DepthFirst entered agenda entered' met) :
    ∀ site ∈ met, ∀ id, t.callee? site = some id → id ∈ entered' := by
  induction h with
  | done => exact fun _ hs => absurd hs List.not_mem_nil
  | pass hpass hrest ih =>
    intro s hs id hid
    rcases List.mem_cons.mp hs with rfl | hs
    · exact hrest.subset (hpass id hid)
    · exact ih s hs id hid
  | @enter entered inner entered' site id rest body met hcallee _ hbody hrest ihbody ihrest =>
    intro s hs j hj
    rcases List.mem_cons.mp hs with rfl | hs
    · obtain rfl : id = j := Option.some.inj (hcallee.symm.trans hj)
      exact hrest.subset (hbody.subset List.mem_cons_self)
    · rcases List.mem_append.mp hs with hs | hs
      · exact hrest.subset (ihbody s hs j hj)
      · exact ihrest s hs j hj

/-- A body has been entered before, or a site that is met leads to it. -/
theorem DepthFirst.mem_entered {entered agenda entered' met}
    (h : t.DepthFirst entered agenda entered' met) :
    ∀ i ∈ entered', i ∈ entered ∨ ∃ site ∈ met, t.callee? site = some i := by
  induction h with
  | done => exact fun i hi => Or.inl hi
  | pass _ _ ih =>
    intro i hi
    rcases ih i hi with hi | ⟨s, hs, hc⟩
    · exact Or.inl hi
    · exact Or.inr ⟨s, List.mem_cons_of_mem _ hs, hc⟩
  | @enter entered inner entered' site id rest body met hcallee _ _ _ ihbody ihrest =>
    intro i hi
    rcases ihrest i hi with hi | ⟨s, hs, hc⟩
    · rcases ihbody i hi with hi | ⟨s, hs, hc⟩
      · rcases List.mem_cons.mp hi with rfl | hi
        · exact Or.inr ⟨site, List.mem_cons_self, hcallee⟩
        · exact Or.inl hi
      · exact Or.inr ⟨s, List.mem_cons_of_mem _ (List.mem_append_left _ hs), hc⟩
    · exact Or.inr ⟨s, List.mem_cons_of_mem _ (List.mem_append_right _ hs), hc⟩

/-- Sites in an order in which the unit of each is known: from the start, or by a site before it that
    leads there. -/
def LedFrom (t : Trace) : List Nat → List CallSite → Prop
  | _, [] => True
  | known, site :: rest => site.unit.id ∈ known ∧ t.LedFrom ((t.callee? site).toList ++ known) rest

theorem LedFrom.mono {known known' : List Nat} {sites : List CallSite} (h : t.LedFrom known sites)
    (hsub : known ⊆ known') : t.LedFrom known' sites := by
  induction sites generalizing known known' with
  | nil => trivial
  | cons site rest ih =>
    refine ⟨hsub h.1, ih h.2 fun i hi => ?_⟩
    rcases List.mem_append.mp hi with hi | hi
    · exact List.mem_append_left _ hi
    · exact List.mem_append_right _ (hsub hi)

/-- Sites behind others may count on what these lead to. -/
theorem LedFrom.append {known known' : List Nat} {before after : List CallSite}
    (hbefore : t.LedFrom known before) (hafter : t.LedFrom known' after)
    (hknown : ∀ i ∈ known', i ∈ known ∨ ∃ s ∈ before, t.callee? s = some i) :
    t.LedFrom known (before ++ after) := by
  induction before generalizing known with
  | nil =>
    refine hafter.mono fun i hi => (hknown i hi).resolve_right ?_
    rintro ⟨s, hs, -⟩
    exact List.not_mem_nil hs
  | cons site rest ih =>
    refine ⟨hbefore.1, ih hbefore.2 fun i hi => ?_⟩
    rcases hknown i hi with hi | ⟨s, hs, hc⟩
    · exact Or.inl (List.mem_append_right _ hi)
    · rcases List.mem_cons.mp hs with rfl | hs
      · exact Or.inl (List.mem_append_left _ (Option.mem_toList.mpr hc))
      · exact Or.inr ⟨s, hs, hc⟩

theorem LedFrom.led {known : List Nat} {before after : List CallSite} {site : CallSite}
    (h : t.LedFrom known (before ++ site :: after)) :
    site.unit.id ∈ known ∨ ∃ s ∈ before, t.callee? s = some site.unit.id := by
  induction before generalizing known with
  | nil => exact Or.inl h.1
  | cons first rest ih =>
    rcases ih h.2 with hi | ⟨s, hs, hc⟩
    · rcases List.mem_append.mp hi with hi | hi
      · exact Or.inr ⟨first, List.mem_cons_self, Option.mem_toList.mp hi⟩
      · exact Or.inl hi
    · exact Or.inr ⟨s, List.mem_cons_of_mem _ hs, hc⟩

/-- A walk meets a site only when its body has been entered before, or after a site that leads there. -/
theorem DepthFirst.ledFrom (ht : t.Coherent) {entered agenda entered' met}
    (h : t.DepthFirst entered agenda entered' met)
    (hagenda : ∀ site ∈ agenda, site.unit.id ∈ entered) : t.LedFrom entered met := by
  induction h with
  | done => trivial
  | @pass entered entered' site rest met _ _ ih =>
    have ih := ih fun s hs => hagenda s (List.mem_cons_of_mem _ hs)
    exact ⟨hagenda site List.mem_cons_self, ih.mono (List.subset_append_right _ _)⟩
  | @enter entered inner entered' site id rest body met hcallee _ hbody _ ihbody ihrest =>
    have ihbody := ihbody fun s hs => by
      rw [(ht.unit_of_mem_sitesAt hs).2]
      exact List.mem_cons_self
    have ihrest := ihrest fun s hs =>
      hbody.subset (List.mem_cons_of_mem _ (hagenda s (List.mem_cons_of_mem _ hs)))
    refine ⟨hagenda site List.mem_cons_self, ?_⟩
    rw [hcallee]
    exact ihbody.append ihrest hbody.mem_entered

/-! ## The sites of a trace -/

theorem Coherent.sitesAt_entry_subset (ht : t.Coherent) :
    ∀ site ∈ t.sitesAt t.entry, site.unit.id ∈ [t.entry] :=
  fun _ hs => List.mem_singleton.mpr (ht.unit_of_mem_sitesAt hs).2

/-- **Every unit is entered once**: the sites of a unit are met as often and in the order that its body
    has them. -/
theorem Coherent.sites_filter (ht : t.Coherent) {i : Nat} (hi : i < t.units.length) :
    t.sites.filter (·.unit.id = i) = t.sitesAt i := by
  obtain ⟨entered, h⟩ := ht.sites_depthFirst
  have hmet := h.filter_met ht ht.sitesAt_entry_subset
  have hentered : ∀ j ∈ entered, t.sites.filter (·.unit.id = j) = t.sitesAt j := by
    intro j hj
    rw [hmet j]
    by_cases he : j = t.entry
    · subst he
      simp [ht.filter_sitesAt]
    · simp [he, hj]
  -- what is entered is closed under calls, so everything that is reached is entered
  refine hentered i ?_
  have hreach := ht.reached i hi
  clear hi
  induction hreach with
  | refl => exact h.subset (List.mem_singleton_self _)
  | @tail j k _ hcall ih =>
    obtain ⟨site, hsite, hcallee⟩ := hcall
    refine h.callee_entered site ?_ k hcallee
    rw [← hentered j ih] at hsite
    exact (List.mem_filter.mp hsite).1

/-- A site is met only after the entry or a site that leads to its unit. -/
theorem Coherent.sites_led (ht : t.Coherent) {pre post : List CallSite} {site : CallSite}
    (h : t.sites = pre ++ site :: post) :
    site.unit.id = t.entry ∨ ∃ s ∈ pre, t.callee? s = some site.unit.id := by
  obtain ⟨entered, hdf⟩ := ht.sites_depthFirst
  have hled := hdf.ledFrom ht ht.sitesAt_entry_subset
  rw [h] at hled
  exact hled.led.imp_left List.mem_singleton.mp

/-- The sites of a trace are those of its units. -/
theorem Coherent.mem_sites (ht : t.Coherent) {site : CallSite} :
    site ∈ t.sites ↔ ∃ i, site ∈ t.sitesAt i := by
  constructor
  · intro hs
    obtain ⟨pre, post, h⟩ := List.append_of_mem hs
    have hlt : site.unit.id < t.units.length := by
      rcases ht.sites_led h with he | ⟨s, -, hc⟩
      · exact he ▸ ht.entry_lt
      · exact ht.callee?_lt hc
    refine ⟨site.unit.id, ?_⟩
    rw [← ht.sites_filter hlt]
    exact List.mem_filter.mpr ⟨hs, decide_eq_true rfl⟩
  · rintro ⟨i, hs⟩
    obtain ⟨hu, -⟩ := ht.unit_of_mem_sitesAt hs
    rw [← ht.sites_filter (List.getElem?_eq_some_iff.mp hu).1] at hs
    exact (List.mem_filter.mp hs).1

theorem Coherent.unit_lt_of_mem_sites (ht : t.Coherent) {site : CallSite} (hs : site ∈ t.sites) :
    site.unit.id < t.units.length := by
  obtain ⟨i, hi⟩ := ht.mem_sites.mp hs
  obtain ⟨hu, rfl⟩ := ht.unit_of_mem_sitesAt hi
  exact (List.getElem?_eq_some_iff.mp hu).1

/-- A list whose elements have numbers below `n` is a shuffle of those of number `0`, then those of
    number `1`, and so on. -/
theorem perm_flatMap_filter {α : Type} (number : α → Nat) (n : Nat) (l : List α)
    (h : ∀ a ∈ l, number a < n) :
    l.Perm ((List.range n).flatMap fun i => l.filter (number · = i)) := by
  induction n generalizing l with
  | zero =>
    have hnil : l = [] := List.eq_nil_iff_forall_not_mem.mpr fun a ha => Nat.not_lt_zero _ (h a ha)
    rw [hnil]
    exact .nil
  | succ n ih =>
    -- those of the last number are split off, and come behind
    have hbelow : ∀ a ∈ l.filter (number · ≠ n), number a < n := by
      intro a ha
      obtain ⟨ha, hne⟩ := List.mem_filter.mp ha
      have hlt := h a ha
      have hne : number a ≠ n := of_decide_eq_true hne
      omega
    have hfilter : ∀ i ∈ List.range n,
        (l.filter (number · ≠ n)).filter (number · = i) = l.filter (number · = i) := by
      intro i hi
      have hlt := List.mem_range.mp hi
      rw [List.filter_filter]
      refine List.filter_congr fun a _ => ?_
      by_cases ha : number a = i
      · have hne : i ≠ n := by omega
        simp [ha, hne]
      · simp [ha]
    have hrest := ih _ hbelow
    have hsplit : (l.filter (number · = n) ++ l.filter (number · ≠ n)).Perm l := by
      have hperm := List.filter_append_perm (fun a => decide (number a = n)) l
      simpa using hperm
    rw [List.range_succ, List.flatMap_append, List.flatMap_singleton]
    rw [List.flatMap_congr hfilter] at hrest
    exact hsplit.symm.trans (List.perm_append_comm.trans (hrest.append_right _))

/-- **The sites that are met are those of all units**, each as often as the bodies have it. -/
theorem Coherent.sites_perm (ht : t.Coherent) :
    t.sites.Perm (t.units.flatMap (sitesOf t.modules)) := by
  have hbodies : t.units.flatMap (sitesOf t.modules) =
      (List.range t.units.length).flatMap t.sitesAt := by
    have hmap : t.units.map (sitesOf t.modules) = (List.range t.units.length).map t.sitesAt := by
      refine List.ext_getElem (by simp) fun i hi _ => ?_
      rw [List.getElem_map, List.getElem_map, List.getElem_range, sitesAt,
        List.getElem?_eq_getElem (by simpa using hi)]
    rw [List.flatMap_def, List.flatMap_def, hmap]
  have hperm := perm_flatMap_filter (fun site : CallSite => site.unit.id) t.units.length t.sites
    fun _ hs => ht.unit_lt_of_mem_sites hs
  rw [hbodies, ← List.flatMap_congr fun i hi => ht.sites_filter (List.mem_range.mp hi)]
  exact hperm

end Trace

end ServiceTrace
