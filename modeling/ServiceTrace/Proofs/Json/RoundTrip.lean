import ServiceTrace.Proofs.Json.Scanner

/-!
# `ServiceTrace.Proofs.Json.RoundTrip` — reading what was written

The tokens of a value are assembled into the value again, in front of whatever containers are open, as long
as those that are open at once stay below the limit of the reader (`assembles_tokens`). With the tokens that
the two written forms spell this makes reading undo writing (`read?_compact`, `read?_pretty`).
-/

namespace ServiceTrace.Json

/-- The assembler gets from one state to another over the given tokens. -/
def Assembles (limit : Nat) (state : Expect × List Frame) (tokens : List Token)
    (state' : Expect × List Frame) : Prop :=
  tokens.foldlM (assembleStep limit) state = some state'

variable {limit : Nat} {state state' state'' : Expect × List Frame} {ts ts' : List Token}
  {frames : List Frame} {value : Json}

theorem Assembles.nil : Assembles limit state [] state :=
  rfl

theorem Assembles.step {t : Token} (hstep : assembleStep limit state t = some state')
    (h : Assembles limit state' ts state'') : Assembles limit state (t :: ts) state'' := by
  unfold Assembles
  rw [List.foldlM_cons, hstep]
  exact h

theorem Assembles.append (h : Assembles limit state ts state') (h' : Assembles limit state' ts' state'') :
    Assembles limit state (ts ++ ts') state'' := by
  unfold Assembles
  rw [List.foldlM_append, h]
  exact h'

/-! ## Containers -/

/-- In front of the first item there is either the end of the array or a value. -/
theorem Assembles.firstItem (h : Assembles limit (.value, .items [] :: frames) (tokens value) state') :
    Assembles limit (.firstItem, frames) (tokens value) state' := by
  cases value <;> exact h

/-- The items behind the first one, and the end of the array. -/
theorem assembles_items {items : List Json}
    (h : ∀ item ∈ items, ∀ done, Assembles limit (.value, .items done :: frames) (tokens item)
      (.afterValue item, .items done :: frames)) (value : Json) (done : List Json) :
    Assembles limit (.afterValue value, .items done :: frames)
      ((items.flatMap fun item => .comma :: tokens item) ++ [.closeArray])
      (.afterValue (.arr (done.reverse ++ value :: items)), frames) := by
  induction items generalizing value done with
  | nil =>
    refine Assembles.step ?_ .nil
    show some (Expect.afterValue (.arr (value :: done).reverse), frames) = _
    rw [List.reverse_cons]
  | cons item items ih =>
    have hitem := h item List.mem_cons_self (value :: done)
    have hitems := ih (fun i hi => h i (List.mem_cons_of_mem _ hi)) item (value :: done)
    rw [List.reverse_cons, List.append_assoc] at hitems
    rw [List.flatMap_cons, List.append_assoc]
    exact Assembles.step rfl (hitem.append hitems)

/-- A member begins with its key and a colon, whether or not it is the first one. -/
theorem Assembles.member {member : String × Json} {done : List (String × Json)} {expect : Expect}
    (h : Assembles limit (.value, .members done member.1 :: frames) (tokens member.2) state')
    (hexpect : expect = .firstKey done ∨ expect = .key done) :
    Assembles limit (expect, frames) (tokensOfMember member) state' := by
  obtain ⟨key, value⟩ := member
  rw [tokensOfMember]
  rcases hexpect with rfl | rfl <;> exact Assembles.step rfl (Assembles.step rfl h)

/-- The members behind the first one, and the end of the object. -/
theorem assembles_members {members : List (String × Json)}
    (h : ∀ member ∈ members, ∀ done, Assembles limit (.value, .members done member.1 :: frames)
      (tokens member.2) (.afterValue member.2, .members done member.1 :: frames))
    (member : String × Json) (done : List (String × Json)) :
    Assembles limit (.afterValue member.2, .members done member.1 :: frames)
      ((members.flatMap fun member => .comma :: tokensOfMember member) ++ [.closeObject])
      (.afterValue (.obj (done.reverse ++ member :: members)), frames) := by
  induction members generalizing member done with
  | nil =>
    refine Assembles.step ?_ .nil
    show some (Expect.afterValue (.obj (member :: done).reverse), frames) = _
    rw [List.reverse_cons]
  | cons next members ih =>
    have hnext := h next List.mem_cons_self (member :: done)
    have hmembers := ih (fun m hm => h m (List.mem_cons_of_mem _ hm)) next (member :: done)
    rw [List.reverse_cons, List.append_assoc] at hmembers
    rw [List.flatMap_cons, List.append_assoc]
    exact Assembles.step rfl ((hnext.member (.inr rfl)).append hmembers)

/-! ## Values -/

/-- The tokens of a value are assembled into the value. -/
theorem assembles_tokens {depth : Nat} (h : Writable depth value) (hlimit : frames.length + depth ≤ limit) :
    Assembles limit (.value, frames) (tokens value) (.afterValue value, frames) := by
  induction h generalizing frames with
  | null | bool | nat | str => exact Assembles.step rfl .nil
  | @arr depth items _ ih =>
    have hopen : assembleStep limit (.value, frames) .openArray = some (.firstItem, frames) :=
      if_pos (by omega)
    have hitem : ∀ item ∈ items, ∀ done, Assembles limit (.value, .items done :: frames) (tokens item)
        (.afterValue item, .items done :: frames) := by
      intro item hitem done
      -- one more container is open around the item, and one level less is left inside it
      apply ih item hitem
      rw [List.length_cons]
      omega
    rw [tokens, tokensOfItems_eq]
    apply Assembles.step hopen
    cases items with
    | nil => exact Assembles.step rfl .nil
    | cons first items =>
      have hfirst := (hitem first List.mem_cons_self []).firstItem
      have hrest := assembles_items (fun i hi => hitem i (List.mem_cons_of_mem _ hi)) first []
      show Assembles limit _ ((tokens first ++ _) ++ [.closeArray]) _
      rw [List.append_assoc]
      exact hfirst.append hrest
  | @obj depth members _ ih =>
    have hopen : assembleStep limit (.value, frames) .openObject = some (.firstKey [], frames) :=
      if_pos (by omega)
    have hmember : ∀ member ∈ members, ∀ done,
        Assembles limit (.value, .members done member.1 :: frames) (tokens member.2)
          (.afterValue member.2, .members done member.1 :: frames) := by
      intro member hmember done
      apply ih member hmember
      rw [List.length_cons]
      omega
    rw [tokens, tokensOfMembers_eq]
    apply Assembles.step hopen
    cases members with
    | nil => exact Assembles.step rfl .nil
    | cons first members =>
      have hfirst := (hmember first List.mem_cons_self []).member (.inl rfl)
      have hrest := assembles_members (fun m hm => hmember m (List.mem_cons_of_mem _ hm)) first []
      show Assembles limit _ ((tokensOfMember first ++ _) ++ [.closeObject]) _
      rw [List.append_assoc]
      exact hfirst.append hrest

theorem assemble?_tokens (h : Writable limit value) : assemble? limit (tokens value) = some value := by
  have hassembles : Assembles limit (.value, []) (tokens value) (.afterValue value, []) :=
    assembles_tokens h (Nat.zero_add limit).le
  unfold assemble?
  rw [hassembles]

/-- Blanks may follow the text of a value. -/
theorem read?_of_spells {text : List Char} (htext : Spells text (tokens value)) (h : Writable limit value)
    {blanks : List Char} (hblanks : ∀ b ∈ blanks, b = ' ' ∨ b = '\n') :
    read? limit (String.ofList (text ++ blanks)) = some value := by
  have hscan : scan? (text ++ blanks) = some (tokens value) := by
    have hend := Spells.blanks hblanks .nil (tokens value).reverse [] delimited_nil
    rw [List.append_nil, List.append_nil] at hend
    rw [scan?_eq, htext [] blanks (delimited_blanks hblanks), List.append_nil, hend]
    show some (tokens value).reverse.reverse = _
    rw [List.reverse_reverse]
  rw [read?, String.toList_ofList, hscan]
  exact assemble?_tokens h

/-- Reading undoes writing in the compact form. -/
theorem read?_compact (h : Writable limit value) : read? limit value.compact = some value := by
  have hread := read?_of_spells (spells_compactPieces h) h (List.forall_mem_nil _)
  rwa [List.append_nil, ← toList_join, String.ofList_toList] at hread

/-- Reading undoes writing in the indented form. -/
theorem read?_pretty (h : Writable limit value) : read? limit value.pretty = some value := by
  have hread := read?_of_spells (spells_prettyPieces h 0) h (List.forall_mem_nil _)
  rwa [List.append_nil, ← toList_join, String.ofList_toList] at hread

/-- A line end behind the text is no part of the value. -/
theorem read?_pretty_line (h : Writable limit value) :
    read? limit (value.pretty ++ "\n") = some value := by
  have hline : ∀ b ∈ ['\n'], b = ' ' ∨ b = '\n' := List.forall_mem_singleton.mpr (.inr rfl)
  have hread := read?_of_spells (spells_prettyPieces h 0) h hline
  rwa [← toList_join, String.ofList_append, String.ofList_toList] at hread

end ServiceTrace.Json
