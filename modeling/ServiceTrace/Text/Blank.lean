/-!
# `ServiceTrace.Text.Blank` — white space and trimming

Unicode white space is the set of characters with the property `White_Space`. It is larger than the
set that `Char.isWhitespace` knows: it also holds the vertical tab, the form feed, the next-line
control, the no-break space and the spaces of other scripts. Python source and URLs may hold any of
them, so trimming here follows the full property.

## Contents
- **`isBlank`** — the property itself, one character at a time.
- **`trimBlank` / `trim`** — a text without its leading and trailing blanks.
- **`trimWhere`** — the same for any class of characters.
-/

namespace ServiceTrace.Text

/-- Whether a character has the Unicode property `White_Space`. -/
def isBlank (c : Char) : Bool :=
  let n := c.toNat
  (9 ≤ n && n ≤ 13) || n == 0x20 || n == 0x85 || n == 0xA0 || n == 0x1680 ||
    (0x2000 ≤ n && n ≤ 0x200A) || n == 0x2028 || n == 0x2029 || n == 0x202F || n == 0x205F ||
    n == 0x3000

/-- The characters left when those in the class `p` are dropped from both ends. -/
def trimWhere (p : Char → Bool) (cs : List Char) : List Char :=
  ((cs.dropWhile p).reverse.dropWhile p).reverse

/-- The characters left when blanks are dropped from both ends. -/
def trimBlank (cs : List Char) : List Char :=
  trimWhere isBlank cs

/-- A text without its leading and trailing blanks. -/
def trim (s : String) : String :=
  String.ofList (trimBlank s.toList)

/-- Every blank that core knows is a blank here. -/
theorem isBlank_of_isWhitespace {c : Char} (h : c.isWhitespace = true) : isBlank c = true := by
  simp only [Char.isWhitespace, Bool.or_eq_true, decide_eq_true_eq] at h
  rcases h with ((rfl | rfl) | rfl) | rfl <;> decide

end ServiceTrace.Text
