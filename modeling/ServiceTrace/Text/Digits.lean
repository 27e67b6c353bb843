/-!
# `ServiceTrace.Text.Digits` — decimal numbers in texts

Line numbers, sizes and exponents are written in decimal. A number is read from digits alone: signs
and blanks are for the reader of the text around it.

## Contents
- **`digitsValue`** — the number that digits denote.
- **`readDigits?`** — the number that a text consists of.
-/

namespace ServiceTrace.Text

/-- The number that a list of decimal digits denotes; no digits denote zero. -/
def digitsValue (digits : List Char) : Nat :=
  digits.foldl (fun n c => 10 * n + (c.toNat - '0'.toNat)) 0

/-- The number that a text consists of, when it is made of digits alone and of at least one. -/
def readDigits? (text : List Char) : Option Nat :=
  if text ≠ [] ∧ text.all Char.isDigit then some (digitsValue text) else none

/-- One more digit behind the others makes the number ten times larger. -/
theorem digitsValue_append_singleton (digits : List Char) (c : Char) :
    digitsValue (digits ++ [c]) = 10 * digitsValue digits + (c.toNat - '0'.toNat) := by
  simp [digitsValue]

end ServiceTrace.Text
