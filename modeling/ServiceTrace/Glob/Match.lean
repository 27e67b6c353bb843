import ServiceTrace.Glob.Basic

/-!
# `ServiceTrace.Glob.Match` — comparing paths with patterns

A pattern is compared with a path from left to right, all ways at once: the *marks* of a path say for
every place in it, from the one before its first byte to the one behind its last byte, whether some
beginning of the pattern matches the path up to there. Every part of the pattern moves the marks, in
one pass over the path, so that the comparison takes time in proportion to both lengths however many
stars and braces there are. The path matches when the place behind its last byte is marked in the end.

The *nesting* of a pattern is that of the groups, alternatives, sequences, repetitions and classes in
the expression that it abbreviates. Patterns that are nested too deeply cannot be used.

## Contents
- **`Glob.Marks`** with `start`, `through`, `spread` and `both`.
- **`Glob.advance`**, **`Glob.accepts`** — the comparison.
- **`Glob.nesting`** — how deeply a pattern is nested.
-/

namespace ServiceTrace.Glob

/-! ## Marks -/

/-- Which places of a path are marked: the one before every byte and the one behind the last byte. -/
abbrev Marks := List Bool

namespace Marks

/-- Only the place before the first byte. -/
def start (path : List UInt8) : Marks :=
  true :: path.map fun _ => false

/-- No place. -/
def none (path : List UInt8) : Marks :=
  false :: path.map fun _ => false

/-- The places behind an accepted byte with a mark before it. -/
def through (accepts : UInt8 → Bool) (path : List UInt8) (marks : Marks) : Marks :=
  false :: List.zipWith (fun b marked => marked && accepts b) path marks

/-- The places that any number of accepted bytes leads to from a mark. `reached` says that they lead to
    the first place from somewhere before it. -/
def spread (accepts : UInt8 → Bool) (reached : Bool) : List UInt8 → Marks → Marks
  | b :: bs, m :: ms => (reached || m) :: spread accepts ((reached || m) && accepts b) bs ms
  | [], m :: _ => [reached || m]
  | _, [] => []

/-- The places with a mark in one or the other. -/
def both (a b : Marks) : Marks :=
  List.zipWith (· || ·) a b

end Marks

/-! ## Classes -/

/-- The ranges of bytes that a range of characters stands for: the bytes of its two ends, with those in
    the middle joined. -/
def byteRanges (low high : Char) : List (UInt8 × UInt8) :=
  let single (b : UInt8) : UInt8 × UInt8 := (b, b)
  let lows := String.utf8EncodeChar low
  let highs := String.utf8EncodeChar high
  if low = high then lows.map single
  else
    match lows.getLast?, highs with
    | some l, h :: hs => lows.dropLast.map single ++ (l, h) :: hs.map single
    | _, _ => []

/-! ## Empty braces -/

mutual

/-- Whether a pattern stands for no text at all, having no parts. -/
def isVoid : List GlobToken → Bool
  | [] => true
  | t :: ts => isVoidToken t && isVoid ts

/-- Whether a part of a pattern is a choice between patterns without parts. -/
def isVoidToken : GlobToken → Bool
  | .choice branches => areVoid branches
  | _ => false

/-- Whether all branches of a choice are without parts. -/
def areVoid : List (List GlobToken) → Bool
  | [] => true
  | b :: bs => isVoid b && areVoid bs

end

/-! ## Comparison -/

/-- The byte of the slash. -/
def slash : UInt8 := 0x2F

/-- The places behind a slash, and those behind any later slash. -/
def throughSlashes (path : List UInt8) (marks : Marks) : Marks :=
  Marks.through (· = slash) path (Marks.spread (fun _ => true) false path marks)

mutual

/-- The marks after a pattern. -/
def advance (path : List UInt8) : List GlobToken → Marks → Marks
  | [], marks => marks
  -- from no place nothing is reached
  | t :: ts, marks => if marks.contains true then advance path ts (advanceToken path t marks) else marks

/-- The marks after one part of a pattern. -/
def advanceToken (path : List UInt8) : GlobToken → Marks → Marks
  | .literal c, marks =>
    (String.utf8EncodeChar c).foldl (fun marks b => Marks.through (· = b) path marks) marks
  | .any, marks => Marks.through (· ≠ slash) path marks
  | .star, marks => Marks.spread (· ≠ slash) false path marks
  | .leading, marks => Marks.both marks (throughSlashes path marks)
  | .trailing, marks =>
    Marks.spread (fun _ => true) false path (Marks.through (· = slash) path marks)
  | .between, marks =>
    let behind := Marks.through (· = slash) path marks
    Marks.both behind (throughSlashes path behind)
  | .range negated ranges, marks =>
    let bytes := ranges.flatMap fun (low, high) => byteRanges low high
    let found (b : UInt8) : Bool := bytes.any fun (low, high) => low ≤ b && b ≤ high
    Marks.through (fun b => found b != negated) path marks
  | .choice branches, marks =>
    if areVoid branches then marks else advanceBranches path branches marks

/-- The marks after any branch of a choice. Branches without parts are left out. -/
def advanceBranches (path : List UInt8) : List (List GlobToken) → Marks → Marks
  | [], _ => Marks.none path
  | branch :: rest, marks =>
    let others := advanceBranches path rest marks
    if isVoid branch then others else Marks.both (advance path branch marks) others

end

/-- Whether a path matches a pattern. A double star alone matches every path. -/
def accepts (pattern : List GlobToken) (path : List UInt8) : Bool :=
  match pattern with
  | [.leading] => true
  | tokens => (advance path tokens (Marks.start path)).getLast? = some true

/-! ## Nesting -/

/-- In how many pieces a part of a pattern is written out: a character in its bytes, a double star at the
    end as a slash and a repetition, a choice without parts not at all. -/
def pieceCount : GlobToken → Nat
  | .literal c => c.utf8Size
  | .trailing => 2
  | .choice branches => if areVoid branches then 0 else 1
  | _ => 1

/-- The levels that a sequence of parts adds around its deepest one. -/
def sequenceLevels (tokens : List GlobToken) : Nat :=
  if 1 < tokens.foldl (fun count t => count + pieceCount t) 0 then 1 else 0

mutual

/-- The nesting of the deepest part of a pattern. -/
def deepest : List GlobToken → Nat
  | [] => 0
  | t :: ts => max (deepestIn t) (deepest ts)

/-- The nesting of a part of a pattern. -/
def deepestIn : GlobToken → Nat
  | .literal _ => 0
  | .any => 1
  -- a repetition of a class
  | .star => 2
  -- a group of alternatives, one of them a sequence with a repetition
  | .leading | .between => 4
  | .trailing => 1
  | .range _ ranges =>
    if 1 < (ranges.flatMap fun (low, high) => byteRanges low high).length then 2 else 1
  | .choice branches =>
    if areVoid branches then 0
    else
      let written := (branches.filter fun branch => !isVoid branch).length
      1 + (if 1 < written then 1 else 0) + deepestBranch branches

/-- The nesting of the deepest branch of a choice. -/
def deepestBranch : List (List GlobToken) → Nat
  | [] => 0
  | branch :: rest => max (sequenceLevels branch + deepest branch) (deepestBranch rest)

end

/-- The nesting of a pattern, which as a whole is a sequence. -/
def nesting (pattern : List GlobToken) : Nat :=
  1 + deepest pattern

end ServiceTrace.Glob
