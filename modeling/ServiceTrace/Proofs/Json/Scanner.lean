import ServiceTrace.Json.Printer
import ServiceTrace.Proofs.Json.Numeral

/-!
# `ServiceTrace.Proofs.Json.Scanner` — the tokens of written values

Both written forms of a value are scanned as its tokens; they differ in blanks alone. The scanner finishes a
number or a word only when it sees what is behind, so a text is followed through the scanner together with
the rest of what is read (`Spells`), and the rest must not go on the last token (`Delimited`).

## Contents
- **`scanOn`** — the scanner from any state on, so that one step is one equation (`scanOn_cons`).
- **`Spells`** — with one lemma for each kind of token and one for putting texts together.
- **`tokens`**, **`Writable`** — the tokens of a value, and the values whose written forms can be read.
- **`spells_compactPieces`**, **`spells_prettyPieces`** — the two forms.
-/

namespace ServiceTrace.Json

/-! ## The scanner from any state on -/

/-- The tokens that are found when the text ends. -/
def finish : Scan × List Token → Option (List Token)
  | (.between, done) => some done.reverse
  | (.word seen, done) => (word? seen.reverse).map fun value => (.scalar value :: done).reverse
  | (.number seen, done) => (number? seen.reverse).map fun value => (.scalar value :: done).reverse
  | _ => none

/-- The tokens that are found when the scanner goes on from a state. -/
def scanOn (state : Scan × List Token) (text : List Char) : Option (List Token) :=
  (text.foldlM scanStep state).bind finish

theorem scan?_eq (text : List Char) : scan? text = scanOn (.between, []) text := by
  unfold scan? scanOn
  cases text.foldlM scanStep (.between, []) with
  | none => rfl
  | some state =>
    obtain ⟨scan, done⟩ := state
    cases scan with
    | word seen =>
      show (word? seen.reverse).bind _ = (word? seen.reverse).map _
      rw [Option.map_eq_bind]
      rfl
    | number seen =>
      show (number? seen.reverse).bind _ = (number? seen.reverse).map _
      rw [Option.map_eq_bind]
      rfl
    | between | string | escape | code | pair => rfl

variable {state state' : Scan × List Token} {done : List Token} {c : Char} {text rest : List Char}
  {ts ts' : List Token}

theorem scanOn_cons (h : scanStep state c = some state') (rest : List Char) :
    scanOn state (c :: rest) = scanOn state' rest := by
  unfold scanOn
  rw [List.foldlM_cons, h]
  rfl

/-! ## Literals and what ends them -/

/-- A text that does not go on a number or a word in front of it. -/
def Delimited (text : List Char) : Prop :=
  ∀ c, text.head? = some c → c.isAlpha = false ∧ isNumberChar c = false

theorem delimited_nil : Delimited [] :=
  nofun

theorem delimited_cons (halpha : c.isAlpha = false) (hnumber : isNumberChar c = false)
    (text : List Char) : Delimited (c :: text) := by
  rintro d hd
  obtain rfl := Option.some.inj hd
  exact ⟨halpha, hnumber⟩

theorem Delimited.append (h : Delimited text) (hrest : Delimited rest) : Delimited (text ++ rest) := by
  cases text with
  | nil => exact hrest
  | cons c text => exact h

theorem delimited_blanks {blanks : List Char} (h : ∀ b ∈ blanks, b = ' ' ∨ b = '\n') :
    Delimited blanks := by
  intro b hb
  rcases h b (List.mem_of_head? hb) with rfl | rfl <;> exact ⟨rfl, rfl⟩

/-- A number ends in front of what is no part of it. -/
theorem scanOn_number {seen : List Char} {value : Json} (hvalue : number? seen.reverse = some value)
    (hrest : Delimited rest) :
    scanOn (.number seen, done) rest = scanOn (.between, .scalar value :: done) rest := by
  cases rest with
  | nil =>
    show (number? seen.reverse).map _ = _
    rw [hvalue]
    rfl
  | cons c rest =>
    have hc : isNumberChar c = false := (hrest c rfl).2
    have hstep : scanStep (.number seen, done) c = scanStep (.between, .scalar value :: done) c := by
      simp [scanStep, hc, hvalue]
    unfold scanOn
    rw [List.foldlM_cons, List.foldlM_cons, hstep]

/-- A word ends in front of what is no letter. -/
theorem scanOn_word {seen : List Char} {value : Json} (hvalue : word? seen.reverse = some value)
    (hrest : Delimited rest) :
    scanOn (.word seen, done) rest = scanOn (.between, .scalar value :: done) rest := by
  cases rest with
  | nil =>
    show (word? seen.reverse).map _ = _
    rw [hvalue]
    rfl
  | cons c rest =>
    have hc : c.isAlpha = false := (hrest c rfl).1
    have hstep : scanStep (.word seen, done) c = scanStep (.between, .scalar value :: done) c := by
      simp [scanStep, hc, hvalue]
    unfold scanOn
    rw [List.foldlM_cons, List.foldlM_cons, hstep]

/-- A digit or a letter begins a number or a word. -/
theorem scanStep_alphanum (h : c.isAlphanum = true) :
    scanStep (.between, done) c =
      if c.isDigit then some (.number [c], done) else some (.word [c], done) := by
  have hne : ∀ d, d.isAlphanum = false → c ≠ d := by
    rintro d hd rfl
    exact Bool.noConfusion (h.symm.trans hd)
  show scanBetween c done = _
  unfold scanBetween
  rw [if_neg (by simp [hne ' ' rfl, hne '\t' rfl, hne '\n' rfl, hne '\r' rfl]), if_neg (hne '[' rfl),
    if_neg (hne ']' rfl), if_neg (hne '\x7b' rfl), if_neg (hne '\x7d' rfl), if_neg (hne ':' rfl),
    if_neg (hne ',' rfl), if_neg (hne '"' rfl)]
  by_cases hdigit : c.isDigit = true
  · rw [if_pos (.inr hdigit), if_pos hdigit]
  · have halpha : c.isAlpha = true := by simpa [Char.isAlphanum, hdigit] using h
    rw [if_neg (by simp [hne '-' rfl, hdigit]), if_pos halpha, if_neg hdigit]

theorem scanOn_letters {letters seen : List Char} (h : ∀ c ∈ letters, c.isAlpha = true)
    (rest : List Char) :
    scanOn (.word seen, done) (letters ++ rest) = scanOn (.word (letters.reverse ++ seen), done) rest := by
  induction letters generalizing seen with
  | nil => rfl
  | cons c letters ih =>
    have hstep : scanStep (.word seen, done) c = some (.word (c :: seen), done) :=
      if_pos (h c List.mem_cons_self)
    rw [List.cons_append, scanOn_cons hstep, ih fun d hd => h d (List.mem_cons_of_mem _ hd)]
    simp

theorem scanOn_digits {digits seen : List Char} (h : ∀ c ∈ digits, c.isDigit = true) (rest : List Char) :
    scanOn (.number seen, done) (digits ++ rest) =
      scanOn (.number (digits.reverse ++ seen), done) rest := by
  induction digits generalizing seen with
  | nil => rfl
  | cons c digits ih =>
    have hc : isNumberChar c = true := by simp [isNumberChar, h c List.mem_cons_self]
    have hstep : scanStep (.number seen, done) c = some (.number (c :: seen), done) := if_pos hc
    rw [List.cons_append, scanOn_cons hstep, ih fun d hd => h d (List.mem_cons_of_mem _ hd)]
    simp

/-! ## Strings -/

theorem hexDigit?_digitChar {n : Nat} (h : n < 16) : hexDigit? (Nat.digitChar n) = some n := by
  have hall : ∀ k : Fin 16, hexDigit? (Nat.digitChar k) = some k.val := by decide
  exact hall ⟨n, h⟩

/-- A character is written with one letter behind a backslash, by its code, or as it is. -/
theorem writeChar_cases (c : Char) :
    (∃ letter, writeChar c = ['\\', letter] ∧ letter ≠ 'u' ∧ escaped? letter = some c) ∨
      (writeChar c = ['\\', 'u', '0', '0', Nat.digitChar (c.toNat / 16), Nat.digitChar (c.toNat % 16)] ∧
        c.toNat < 0x20) ∨
      (writeChar c = [c] ∧ c ≠ '"' ∧ c ≠ '\\' ∧ 0x20 ≤ c.toNat) := by
  by_cases hspecial : c ∈ ['"', '\\', '\x08', '\x0c', '\n', '\r', '\t']
  · left
    simp only [List.mem_cons, List.not_mem_nil, or_false] at hspecial
    rcases hspecial with rfl | rfl | rfl | rfl | rfl | rfl | rfl <;> exact ⟨_, rfl, by decide, rfl⟩
  · right
    simp only [List.mem_cons, List.not_mem_nil, or_false, not_or] at hspecial
    obtain ⟨hquote, hslash, hb, hf, hn, hr, ht⟩ := hspecial
    rw [writeChar, if_neg hquote, if_neg hslash, if_neg hb, if_neg hf, if_neg hn, if_neg hr, if_neg ht]
    split
    · exact .inl ⟨rfl, ‹_›⟩
    · exact .inr ⟨rfl, hquote, hslash, Nat.le_of_not_lt ‹_›⟩

/-- The written form of a character is scanned as the character. -/
theorem scanOn_writeChar (c : Char) (seen rest : List Char) :
    scanOn (.string seen, done) (writeChar c ++ rest) = scanOn (.string (c :: seen), done) rest := by
  rcases writeChar_cases c with ⟨letter, h, hu, hletter⟩ | ⟨h, hcontrol⟩ | ⟨h, hquote, hslash, hplain⟩
  · have hstep : scanStep (.escape seen, done) letter = some (.string (c :: seen), done) := by
      simp [scanStep, hu, hletter]
    rw [h, List.cons_append, List.cons_append, scanOn_cons rfl, scanOn_cons hstep, List.nil_append]
  · -- a control: two zeros, then the two digits of the code, the second of which completes it
    have hhigh := hexDigit?_digitChar (n := c.toNat / 16) (by omega)
    have hlow := hexDigit?_digitChar (n := c.toNat % 16) (Nat.mod_lt _ (by decide))
    have hthird : scanStep (.code seen none 2 0, done) (Nat.digitChar (c.toNat / 16)) =
        some (.code seen none 3 (c.toNat / 16), done) := by
      simp [scanStep, hhigh]
    have hfourth : scanStep (.code seen none 3 (c.toNat / 16), done) (Nat.digitChar (c.toNat % 16)) =
        some (.string (c :: seen), done) := by
      have hvalue : 16 * (c.toNat / 16) + c.toNat % 16 = c.toNat := Nat.div_add_mod c.toNat 16
      have hcode : scanCode seen none c.toNat = some (.string (c :: seen)) := by
        unfold scanCode
        rw [if_neg (by omega), if_neg (by omega), Char.ofNat_toNat]
      simp [scanStep, hlow, hvalue, hcode]
    rw [h]
    show scanOn _ ('\\' :: 'u' :: '0' :: '0' :: _ :: _ :: rest) = _
    rw [scanOn_cons rfl, scanOn_cons rfl, scanOn_cons rfl, scanOn_cons rfl]
    show scanOn (.code seen none 2 0, done) _ = _
    rw [scanOn_cons hthird, scanOn_cons hfourth]
  · have hstep : scanStep (.string seen, done) c = some (.string (c :: seen), done) := by
      simp [scanStep, hquote, hslash, Nat.not_lt.mpr hplain]
    rw [h, List.singleton_append, scanOn_cons hstep]

theorem scanOn_string (text seen rest : List Char) :
    scanOn (.string seen, done) (text.flatMap writeChar ++ '"' :: rest) =
      scanOn (.between, .scalar (.str (String.ofList (seen.reverse ++ text))) :: done) rest := by
  induction text generalizing seen with
  | nil =>
    rw [List.flatMap_nil, List.nil_append, List.append_nil]
    exact scanOn_cons rfl rest
  | cons c text ih =>
    rw [List.flatMap_cons, List.append_assoc, scanOn_writeChar, ih]
    simp

/-! ## Texts that spell tokens -/

/-- A text that is scanned as the given tokens, whatever was found before, when what is behind does not go
    on the last one. -/
def Spells (text : List Char) (tokens : List Token) : Prop :=
  ∀ done rest, Delimited rest →
    scanOn (.between, done) (text ++ rest) = scanOn (.between, tokens.reverse ++ done) rest

theorem Spells.nil : Spells [] [] :=
  fun _ _ _ => rfl

theorem Spells.append (h : Spells text ts) (h' : Spells rest ts') (hrest : Delimited rest) :
    Spells (text ++ rest) (ts ++ ts') := by
  intro done more hmore
  rw [List.append_assoc, h done _ (hrest.append hmore), h' _ more hmore]
  simp

/-- A punctuation mark in front. -/
theorem Spells.mark {t : Token} (hc : ∀ done, scanStep (.between, done) c = some (.between, t :: done))
    (h : Spells text ts) : Spells (c :: text) (t :: ts) := by
  intro done rest hrest
  rw [List.cons_append, scanOn_cons (hc done), h _ rest hrest]
  simp

/-- Blanks in front. -/
theorem Spells.blanks {blanks : List Char} (hblanks : ∀ c ∈ blanks, c = ' ' ∨ c = '\n')
    (h : Spells text ts) : Spells (blanks ++ text) ts := by
  induction blanks with
  | nil => exact h
  | cons c blanks ih =>
    intro done rest hrest
    have hstep : scanStep (.between, done) c = some (.between, done) := by
      rcases hblanks c List.mem_cons_self with rfl | rfl <;> rfl
    rw [List.cons_append, List.cons_append, scanOn_cons hstep]
    exact ih (fun d hd => hblanks d (List.mem_cons_of_mem _ hd)) done rest hrest

theorem spells_quoteString (s : String) : Spells (quoteString s).toList [.scalar (.str s)] := by
  intro done rest _
  rw [quoteString, String.toList_ofList, List.cons_append, List.cons_append, scanOn_cons rfl,
    List.append_assoc, List.singleton_append, scanOn_string]
  simp

theorem spells_nat {n : Nat} (h : n < UInt64.size) :
    Spells (toString n).toList [.scalar (.nat n)] := by
  intro done rest hrest
  have hvalue : number? (toString n).toList = some (.nat n) := number?_toString h
  have hdigits : ∀ c ∈ (toString n).toList, c.isDigit = true := by
    rw [Nat.toString_eq_repr, Nat.toList_repr]
    exact fun c hc => Nat.isDigit_of_mem_toDigits (by decide) (by decide) hc
  -- all that matters about the literal is that it has a first digit and more digits behind it
  generalize (toString n).toList = literal at hvalue hdigits
  cases literal with
  | nil => exact absurd hvalue nofun
  | cons c digits =>
    have hc : c.isDigit = true := hdigits c List.mem_cons_self
    have hfirst : scanStep (.between, done) c = some (.number [c], done) := by
      rw [scanStep_alphanum (by simp [Char.isAlphanum, hc]), if_pos hc]
    rw [List.cons_append, scanOn_cons hfirst,
      scanOn_digits fun d hd => hdigits d (List.mem_cons_of_mem _ hd)]
    exact scanOn_number (by simpa using hvalue) hrest

theorem spells_word {c : Char} {letters : List Char} {value : Json} (hc : c.isDigit = false)
    (hletters : (c :: letters).all Char.isAlpha = true) (hvalue : word? (c :: letters) = some value) :
    Spells (c :: letters) [.scalar value] := by
  intro done rest hrest
  rw [List.all_eq_true] at hletters
  have halpha : c.isAlpha = true := hletters c List.mem_cons_self
  have hfirst : scanStep (.between, done) c = some (.word [c], done) := by
    rw [scanStep_alphanum (by simp [Char.isAlphanum, halpha]), if_neg (by simp [hc])]
  rw [List.cons_append, scanOn_cons hfirst,
    scanOn_letters fun d hd => hletters d (List.mem_cons_of_mem _ hd)]
  exact scanOn_word (by simpa using hvalue) hrest

/-! ## Written values -/

mutual

/-- The tokens of a value, in order. -/
def tokens : Json → List Token
  | .arr items => .openArray :: (tokensOfItems items).drop 1 ++ [.closeArray]
  | .obj members => .openObject :: (tokensOfMembers members).drop 1 ++ [.closeObject]
  | value => [.scalar value]

/-- Items, each behind a comma; the first comma is dropped by the container. -/
def tokensOfItems : List Json → List Token
  | [] => []
  | item :: items => .comma :: tokens item ++ tokensOfItems items

/-- Members, each behind a comma; the first comma is dropped by the container. -/
def tokensOfMembers : List (String × Json) → List Token
  | [] => []
  | member :: members => .comma :: tokensOfMember member ++ tokensOfMembers members

/-- One member: its key, a colon, its value. -/
def tokensOfMember : String × Json → List Token
  | (key, value) => .scalar (.str key) :: .colon :: tokens value

end

/-- The values that can be read when they are written: numbers are naturals of at most 64 bits, and
    containers are nested at most `depth` deep. -/
inductive Writable : Nat → Json → Prop where
  | null {depth} : Writable depth .null
  | bool {depth} (b : Bool) : Writable depth (.bool b)
  | nat {depth n} (h : n < UInt64.size) : Writable depth (.nat n)
  | str {depth} (text : String) : Writable depth (.str text)
  | arr {depth items} (h : ∀ item ∈ items, Writable depth item) : Writable (depth + 1) (.arr items)
  | obj {depth members} (h : ∀ member ∈ members, Writable depth member.2) :
      Writable (depth + 1) (.obj members)

/-- Parts, each behind a comma, as both forms lay out items and members. -/
def listed {α : Type} (write : α → List Char) (parts : List α) : List Char :=
  parts.flatMap fun part => ',' :: write part

theorem delimited_listed {α : Type} (write : α → List Char) (parts : List α) :
    Delimited (listed write parts) := by
  cases parts with
  | nil => exact delimited_nil
  | cons part parts => exact delimited_cons rfl rfl _

section Listed

variable {α : Type} {write : α → List Char} {tokensOf : α → List Token} {parts : List α}

theorem spells_listed (h : ∀ part ∈ parts, Spells (write part) (tokensOf part)) :
    Spells (listed write parts) (parts.flatMap fun part => .comma :: tokensOf part) := by
  induction parts with
  | nil => exact .nil
  | cons part parts ih =>
    have hpart := h part List.mem_cons_self
    have hparts := ih fun p hp => h p (List.mem_cons_of_mem _ hp)
    exact Spells.mark (fun _ => rfl) (hpart.append hparts (delimited_listed write parts))

/-- The parts of a container, in front of the first of which there is no comma. -/
theorem spells_drop_listed (h : ∀ part ∈ parts, Spells (write part) (tokensOf part)) :
    Spells ((listed write parts).drop 1) ((parts.flatMap fun part => .comma :: tokensOf part).drop 1) := by
  cases parts with
  | nil => exact .nil
  | cons part parts =>
    have hpart := h part List.mem_cons_self
    have hparts := spells_listed fun p hp => h p (List.mem_cons_of_mem part hp)
    exact hpart.append hparts (delimited_listed write parts)

end Listed

theorem tokensOfItems_eq (items : List Json) :
    tokensOfItems items = items.flatMap fun item => .comma :: tokens item := by
  induction items with
  | nil => rfl
  | cons item items ih => rw [tokensOfItems, ih, List.flatMap_cons]

theorem tokensOfMembers_eq (members : List (String × Json)) :
    tokensOfMembers members = members.flatMap fun member => .comma :: tokensOfMember member := by
  induction members with
  | nil => rfl
  | cons member members ih => rw [tokensOfMembers, ih, List.flatMap_cons]

/-- The characters of pieces that are put together. -/
def chars (pieces : List String) : List Char :=
  pieces.flatMap String.toList

theorem toList_join (pieces : List String) : (String.join pieces).toList = chars pieces :=
  String.toList_join

theorem chars_cons (piece : String) (pieces : List String) :
    chars (piece :: pieces) = piece.toList ++ chars pieces :=
  List.flatMap_cons

theorem chars_append (pieces more : List String) : chars (pieces ++ more) = chars pieces ++ chars more :=
  List.flatMap_append

/-- What a form puts between the brackets of a container. -/
theorem chars_drop {α : Type} {write : α → List String} {print : List α → List String}
    (hnil : print [] = []) (hcons : ∀ part parts, print (part :: parts) = "," :: write part ++ print parts)
    (parts : List α) :
    chars ((print parts).drop 1) = (listed (fun part => chars (write part)) parts).drop 1 := by
  have hall : ∀ parts, chars (print parts) = listed (fun part => chars (write part)) parts := by
    intro parts
    induction parts with
    | nil => exact congrArg chars hnil
    | cons part parts ih =>
      rw [hcons, chars_append, ih]
      rfl
  cases parts with
  | nil => exact congrArg (fun pieces => chars (pieces.drop 1)) hnil
  | cons part parts =>
    rw [hcons]
    show chars (write part ++ print parts) = _
    rw [chars_append, hall]
    rfl

/-- Something between brackets; blanks may stand in front of the closing one. -/
theorem Spells.enclosed {opening closing : Char} {o c : Token} {blanks : List Char}
    (hopening : ∀ done, scanStep (.between, done) opening = some (.between, o :: done))
    (hclosing : ∀ done, scanStep (.between, done) closing = some (.between, c :: done))
    (hend : Delimited [closing]) (hblanks : ∀ b ∈ blanks, b = ' ' ∨ b = '\n') (h : Spells text ts) :
    Spells (opening :: text ++ (blanks ++ [closing])) (o :: ts ++ [c]) := by
  have hclose : Spells (blanks ++ [closing]) [c] := Spells.blanks hblanks (Spells.mark hclosing .nil)
  exact Spells.mark hopening (h.append hclose ((delimited_blanks hblanks).append hend))

/-- An array as both forms write it: the items behind commas, less the first comma, and an ending in front of
    the closing bracket. -/
theorem spells_array {write : Json → List String} {print : List Json → List String} {items : List Json}
    (ending : List String) (hnil : print [] = [])
    (hcons : ∀ item items, print (item :: items) = "," :: write item ++ print items)
    (hending : ∀ b ∈ chars ending, b = ' ' ∨ b = '\n')
    (h : ∀ item ∈ items, Spells (chars (write item)) (tokens item)) :
    Spells (chars ("[" :: (print items).drop 1 ++ (ending ++ ["]"]))) (tokens (.arr items)) := by
  rw [tokens, tokensOfItems_eq, chars_append, chars_append, chars_cons, chars_drop hnil hcons]
  exact Spells.enclosed (fun _ => rfl) (fun _ => rfl) (delimited_cons rfl rfl _) hending
    (spells_drop_listed h)

/-- An object, written in the same way. -/
theorem spells_object {write : String × Json → List String} {print : List (String × Json) → List String}
    {members : List (String × Json)} (ending : List String) (hnil : print [] = [])
    (hcons : ∀ member members, print (member :: members) = "," :: write member ++ print members)
    (hending : ∀ b ∈ chars ending, b = ' ' ∨ b = '\n')
    (h : ∀ member ∈ members, Spells (chars (write member)) (tokensOfMember member)) :
    Spells (chars ("\x7b" :: (print members).drop 1 ++ (ending ++ ["\x7d"]))) (tokens (.obj members)) := by
  rw [tokens, tokensOfMembers_eq, chars_append, chars_append, chars_cons, chars_drop hnil hcons]
  exact Spells.enclosed (fun _ => rfl) (fun _ => rfl) (delimited_cons rfl rfl _) hending
    (spells_drop_listed h)

/-! ## The two forms -/

theorem spells_piece {piece : String} (h : Spells piece.toList ts) : Spells (chars [piece]) ts := by
  rwa [chars, List.flatMap_singleton]

/-- A key, a colon with blanks behind it, and a value. -/
theorem spells_member (key : String) {value : Json} {blanks text : List Char}
    (hblanks : ∀ b ∈ blanks, b = ' ' ∨ b = '\n') (h : Spells text (tokens value)) :
    Spells ((quoteString key).toList ++ ':' :: (blanks ++ text)) (tokensOfMember (key, value)) := by
  have hvalue : Spells (':' :: (blanks ++ text)) (.colon :: tokens value) :=
    Spells.mark (fun _ => rfl) (Spells.blanks hblanks h)
  rw [tokensOfMember]
  exact (spells_quoteString key).append hvalue (delimited_cons rfl rfl _)

theorem spells_compactMember {member : String × Json}
    (h : Spells (chars (compactPieces member.2)) (tokens member.2)) :
    Spells (chars (compactMember member)) (tokensOfMember member) := by
  obtain ⟨key, value⟩ := member
  have hmember := spells_member key (List.forall_mem_nil _) h
  rw [compactMember, chars_cons, chars_cons]
  exact hmember

/-- The compact form of a value spells its tokens. -/
theorem spells_compactPieces {depth : Nat} {value : Json} (h : Writable depth value) :
    Spells (chars (compactPieces value)) (tokens value) := by
  induction h with
  | null => exact spells_word rfl rfl rfl
  | bool b => cases b <;> exact spells_word rfl rfl rfl
  | nat h => exact spells_piece (spells_nat h)
  | str text => exact spells_piece (spells_quoteString text)
  | @arr depth items _ ih =>
    show Spells (chars ("[" :: (compactItems items).drop 1 ++ ([] ++ ["]"]))) _
    exact spells_array [] rfl (fun _ _ => rfl) nofun ih
  | @obj depth members _ ih =>
    show Spells (chars ("\x7b" :: (compactMembers members).drop 1 ++ ([] ++ ["\x7d"]))) _
    exact spells_object [] rfl (fun _ _ => rfl) nofun fun m hm => spells_compactMember (ih m hm)

theorem newLine_blank {depth : Nat} : ∀ b ∈ (newLine depth).toList, b = ' ' ∨ b = '\n' := by
  intro b hb
  rw [newLine, String.toList_ofList] at hb
  rcases List.mem_cons.mp hb with rfl | hspace
  · exact .inr rfl
  · exact .inl (List.eq_of_mem_replicate hspace)

theorem ending_blank {depth : Nat} : ∀ b ∈ chars [newLine depth], b = ' ' ∨ b = '\n' := by
  rw [chars, List.flatMap_singleton]
  exact newLine_blank

theorem spells_prettyMember {depth : Nat} {member : String × Json}
    (h : Spells (chars (prettyPieces depth member.2)) (tokens member.2)) :
    Spells (chars (newLine depth :: prettyMember depth member)) (tokensOfMember member) := by
  obtain ⟨key, value⟩ := member
  have hspace : ∀ b ∈ [' '], b = ' ' ∨ b = '\n' := List.forall_mem_singleton.mpr (.inl rfl)
  have hmember := spells_member key hspace h
  rw [prettyMember, chars_cons, chars_cons, chars_cons]
  exact Spells.blanks newLine_blank hmember

/-- The indented form of a value spells its tokens, at any depth. -/
theorem spells_prettyPieces {nesting : Nat} {value : Json} (h : Writable nesting value) (depth : Nat) :
    Spells (chars (prettyPieces depth value)) (tokens value) := by
  induction h generalizing depth with
  | null => exact spells_word rfl rfl rfl
  | bool b => cases b <;> exact spells_word rfl rfl rfl
  | nat h => exact spells_piece (spells_nat h)
  | str text => exact spells_piece (spells_quoteString text)
  | @arr nesting items _ ih =>
    -- an empty container is the only one without lines of its own
    cases items with
    | nil =>
      show Spells ['[', ']'] [.openArray, .closeArray]
      exact Spells.mark (fun _ => rfl) (Spells.mark (fun _ => rfl) .nil)
    | cons item items =>
      apply spells_array [newLine depth] rfl (fun _ _ => rfl) ending_blank
      intro i hi
      rw [chars_cons]
      exact Spells.blanks newLine_blank (ih i hi (depth + 1))
  | @obj nesting members _ ih =>
    cases members with
    | nil =>
      show Spells ['\x7b', '\x7d'] [.openObject, .closeObject]
      exact Spells.mark (fun _ => rfl) (Spells.mark (fun _ => rfl) .nil)
    | cons member members =>
      apply spells_object [newLine depth] rfl (fun _ _ => rfl) ending_blank
      intro m hm
      exact spells_prettyMember (ih m hm (depth + 1))

end ServiceTrace.Json
