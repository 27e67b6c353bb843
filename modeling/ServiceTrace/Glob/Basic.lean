/-!
# `ServiceTrace.Glob.Basic` — file name patterns

Ignore files name files by patterns. A pattern is compared with a path, byte by byte:

- `?` stands for one byte and `*` for any number of bytes, none of them a slash;
- `**` between slashes stands for any number of directories, at the beginning also for none, and at
  the end for everything below;
- `[abc]` stands for one byte of a class, `[a-z]` with a range, `[!a]` for one outside it;
- `{a,b}` stands for one of several patterns, empty ones left out;
- a backslash takes the meaning from the character after it.

A bracket that is never closed stands for itself, and so do all brackets after it. A brace that is
never closed or never opened makes the pattern invalid, as do a range that runs backwards and a
backslash at the end.

## Contents
- **`GlobToken`** — the parts of a pattern.
- **`Lexeme`**, **`lexemes?`** — the first reading: single characters and classes.
- **`Glob.parse?`** — the second reading: stars and braces.
-/

namespace ServiceTrace

/-- The parts of a pattern. -/
inductive GlobToken where
  | literal (c : Char)
  /-- One byte but the slash. -/
  | any
  /-- Any number of bytes but slashes. -/
  | star
  /-- Any directories at the beginning. -/
  | leading
  /-- Everything below, at the end. -/
  | trailing
  /-- Any directories in the middle. -/
  | between
  | range (negated : Bool) (ranges : List (Char × Char))
  | choice (branches : List (List GlobToken))

/-! ## Characters and classes -/

/-- A character of a pattern with its meaning, or a whole class. -/
inductive Lexeme where
  | question
  | asterisk
  | openBrace
  | closeBrace
  | comma
  | plain (c : Char)
  | escaped (c : Char)
  | range (negated : Bool) (ranges : List (Char × Char))
deriving DecidableEq

/-- A class that is being read: whether it is negated, whether nothing of it has been read, whether
    the last character was the dash of a range, and its ranges backwards. -/
structure ClassReading where
  negated : Bool
  first : Bool
  dash : Bool
  ranges : List (Char × Char)

/-- One more character at the end of the last range; a range must not run backwards. -/
def extendRange (c : Char) : List (Char × Char) → Option (List (Char × Char))
  | (low, _) :: rest => if low ≤ c then some ((low, c) :: rest) else none
  | [] => none

/-- A class after one more character that does not close it. -/
def ClassReading.add (r : ClassReading) (c : Char) : Option ClassReading :=
  if c = '-' ∧ ¬ r.first ∧ ¬ r.dash then some { r with dash := true }
  else if r.dash then
    (extendRange c r.ranges).map fun ranges => { r with first := false, dash := false, ranges := ranges }
  else some { r with first := false, ranges := (c, c) :: r.ranges }

/-- The ranges of a class that is closed. A dash before the bracket stands for itself. -/
def ClassReading.close (r : ClassReading) : Lexeme :=
  .range r.negated (if r.dash then ('-', '-') :: r.ranges else r.ranges).reverse

/-- What the first reading is in the middle of. -/
inductive LexemeState where
  | outside
  | backslash
  /-- Behind an opening bracket, with the characters behind it backwards. -/
  | bracket (seen : List Char)
  | inside (reading : ClassReading) (seen : List Char)

/-- The meaning of a character outside a class, a bracket apart. -/
def Lexeme.ofChar (c : Char) : Lexeme :=
  if c = '?' then .question
  else if c = '*' then .asterisk
  else if c = '{' then .openBrace
  else if c = '}' then .closeBrace
  else if c = ',' then .comma
  else .plain c

/-- One step inside a class. -/
def classStep (reading : ClassReading) (seen : List Char) (done : List Lexeme) (c : Char) :
    Option (LexemeState × List Lexeme) :=
  if c = ']' ∧ ¬ reading.first then some (.outside, reading.close :: done)
  else (reading.add c).map fun r => (.inside r (c :: seen), done)

/-- One step of the first reading. -/
def lexemeStep : LexemeState × List Lexeme → Char → Option (LexemeState × List Lexeme)
  | (.outside, done), c =>
    if c = '\\' then some (.backslash, done)
    else if c = '[' then some (.bracket [], done)
    else some (.outside, Lexeme.ofChar c :: done)
  | (.backslash, done), c => some (.outside, .escaped c :: done)
  | (.bracket _, done), c =>
    if c = '!' ∨ c = '^' then some (.inside ⟨true, true, false, []⟩ [c], done)
    else classStep ⟨false, true, false, []⟩ [] done c
  | (.inside reading seen, done), c => classStep reading seen done c

/-- The lexemes of a text in which brackets stand for themselves. -/
def plainLexemes? : List Char → Option (List Lexeme)
  | [] => some []
  | ['\\'] => none
  | '\\' :: c :: cs => (plainLexemes? cs).map (.escaped c :: ·)
  | c :: cs => (plainLexemes? cs).map (Lexeme.ofChar c :: ·)

/-- The lexemes of a pattern. -/
def lexemes? (pattern : List Char) : Option (List Lexeme) := do
  match ← pattern.foldlM lexemeStep (.outside, []) with
  | (.outside, done) => some done.reverse
  | (.backslash, _) => none
  -- a bracket that is still open stands for itself, and what follows it is read again
  | (.bracket seen, done) => return done.reverse ++ .plain '[' :: (← plainLexemes? seen.reverse)
  | (.inside _ seen, done) => return done.reverse ++ .plain '[' :: (← plainLexemes? seen.reverse)

/-! ## Stars and braces -/

namespace Glob

/-- A pattern that is being read: the tokens of the branch at hand, backwards, and for every open brace
    the finished branches, backwards, and the tokens before it, backwards. -/
structure Reading where
  current : List GlobToken
  groups : List (List (List GlobToken) × List GlobToken)

/-- The reading with one more token. -/
def Reading.push (r : Reading) (t : GlobToken) : Reading :=
  { r with current := t :: r.current }

/-- The reading after the token before a double star has given way to what the double star makes of
    it. -/
def Reading.replaceLast (r : Reading) (t : GlobToken) : Reading :=
  match r.current with
  | .leading :: rest => { r with current := .leading :: rest }
  | .trailing :: rest => { r with current := .trailing :: rest }
  | _ :: rest => { r with current := t :: rest }
  | [] => { r with current := [t] }

/-- Whether a lexeme is a slash. -/
def isSlash (l : Lexeme) : Bool :=
  l = .plain '/' || l = .escaped '/'

/-- Whether a branch of braces can begin behind a lexeme. -/
def opensBranch (l : Lexeme) : Bool :=
  l = .comma || l = .openBrace || l = .escaped ',' || l = .escaped '{'

/-- What comes behind a double star: the end of the pattern or of a branch, a slash, or anything
    else. -/
inductive Behind where
  | finish
  | slash
  | other

/-- What comes behind a double star, inside braces or outside. -/
def behind (inBraces : Bool) : List Lexeme → Behind
  | [] => .finish
  | l :: _ =>
    if l = .plain '/' then .slash
    else if inBraces ∧ (l = .comma ∨ l = .closeBrace) then .finish
    else .other

/-- The reading after a double star, and whether the slash behind it belongs to it. `prev` is the
    lexeme before the double star, `rest` are those behind it. A double star that does not stand
    between slashes counts as two single ones. -/
def Reading.doubleStar (r : Reading) (prev : Option Lexeme) (rest : List Lexeme) : Reading × Bool :=
  let two := (r.push .star).push .star
  let inBraces := !r.groups.isEmpty
  if r.current.isEmpty then
    -- at the beginning of a branch a comma or a closing brace behind it is like any other character
    match behind false rest with
    | .slash => (r.push .leading, true)
    | .finish => (r.push .leading, false)
    | .other => (two, false)
  else if prev.any isSlash || (inBraces && prev.any opensBranch) then
    -- the slash in front has been pushed as a literal and belongs to the double star
    match behind inBraces rest with
    | .slash => (r.replaceLast .between, true)
    | .finish => (r.replaceLast .trailing, false)
    | .other => (two, false)
  else (two, false)

/-- The second reading. `prev` is the lexeme before the ones at hand, `skip` says that the slash in
    front of them belongs to the double star before it. -/
def parseFrom (prev : Option Lexeme) (r : Reading) (skip : Bool) :
    List Lexeme → Option (List GlobToken)
  | [] => if r.groups.isEmpty then some r.current.reverse else none
  | .asterisk :: .asterisk :: rest =>
    let (r, skip) := r.doubleStar prev rest
    parseFrom (some .asterisk) r skip rest
  | .asterisk :: rest => parseFrom (some .asterisk) (r.push .star) false rest
  | .question :: rest => parseFrom (some .question) (r.push .any) false rest
  | .openBrace :: rest =>
    parseFrom (some .openBrace) ⟨[], ([], r.current) :: r.groups⟩ false rest
  | .closeBrace :: rest =>
    match r.groups with
    | [] => none
    | (branches, before) :: groups =>
      let choice := GlobToken.choice (r.current.reverse :: branches).reverse
      parseFrom (some .closeBrace) ⟨choice :: before, groups⟩ false rest
  | .comma :: rest =>
    match r.groups with
    | [] => parseFrom (some .comma) (r.push (.literal ',')) false rest
    | (branches, before) :: groups =>
      parseFrom (some .comma) ⟨[], (r.current.reverse :: branches, before) :: groups⟩ false rest
  | .plain c :: rest =>
    parseFrom (some (.plain c)) (if skip then r else r.push (.literal c)) false rest
  | .escaped c :: rest => parseFrom (some (.escaped c)) (r.push (.literal c)) false rest
  | .range negated ranges :: rest =>
    parseFrom (some (.range negated ranges)) (r.push (.range negated ranges)) false rest

/-- The tokens of a pattern, when it is valid. -/
def parse? (pattern : List Char) : Option (List GlobToken) := do
  parseFrom none ⟨[], []⟩ false (← lexemes? pattern)

end Glob

end ServiceTrace
