import ServiceTrace.Text.Digits

/-!
# `ServiceTrace.Json.Numeral` — the literals of JSON numbers

A number literal is an optional minus sign, an integer part without superfluous zeros, an optional
fraction and an optional exponent. A literal that is well formed is still refused when its value is
past the range of double precision numbers; `Numeral.outOfRange` decides that with exact arithmetic.

The value is taken the way a one-pass reader with a 64-bit accumulator takes it: digits join the
significand while it fits into 64 bits, later ones only move the exponent, and the number is the
product of the significand and the power of ten, each rounded to 53 bits. A zero significand is never
out of range, and neither is a value that is too close to zero.

## Contents
- **`Numeral.ofChars?`** — the grammar.
- **`roundBits`** — the nearest number of 53 significant bits, ties to even.
- **`Numeral.outOfRange`** — whether the value overflows.
-/

namespace ServiceTrace.Json

/-- The parts of a number literal: its digits before and after the point, and its exponent. -/
structure Numeral where
  whole : List Char
  fraction : List Char
  exponent : Int

/-- The exponent part: nothing, or `e` or `E`, a sign, and at least one digit. -/
def exponent? : List Char → Option Int
  | [] => some 0
  | mark :: rest =>
    if mark = 'e' ∨ mark = 'E' then
      let (negative, digits) :=
        match rest with
        | '-' :: ds => (true, ds)
        | '+' :: ds => (false, ds)
        | ds => (false, ds)
      (Text.readDigits? digits).map fun value => if negative then -(value : Int) else value
    else none

/-- The parts of a literal, when it is one. -/
def Numeral.ofChars? (literal : List Char) : Option Numeral :=
  let unsigned :=
    match literal with
    | '-' :: rest => rest
    | rest => rest
  let (whole, rest) := unsigned.span Char.isDigit
  if whole = [] ∨ (whole.head? = some '0' ∧ whole.length > 1) then none
  else
    match rest with
    | '.' :: tail =>
      let (fraction, mark) := tail.span Char.isDigit
      if fraction = [] then none
      else (exponent? mark).map fun e => ⟨whole, fraction, e⟩
    | mark => (exponent? mark).map fun e => ⟨whole, [], e⟩

/-! ## Range -/

/-- The nearest number with at most 53 significant bits; a tie goes to the even neighbour. -/
def roundBits (n : Nat) : Nat :=
  if n < Nat.pow 2 53 then n
  else
    let unit := Nat.pow 2 (Nat.log2 n - 52)
    let quotient := n / unit
    let twice := 2 * (n % unit)
    if twice < unit then quotient * unit
    else if unit < twice then (quotient + 1) * unit
    else if quotient % 2 = 0 then quotient * unit
    else (quotient + 1) * unit

/-- The significand of a literal and the power of ten that goes with it: `digits` are read one by
    one, each moving the exponent by `shift` when it joins the significand and by `1 + shift` when it
    does not fit any more. -/
def accumulate (shift : Int) : List Char → Nat × Int → Nat × Int
  | [], state => state
  | c :: cs, (significand, exponent) =>
    let next := 10 * significand + (c.toNat - '0'.toNat)
    if next < UInt64.size then accumulate shift cs (next, exponent + shift)
    else ((significand, exponent + (1 + shift) * (cs.length + 1)))

/-- Whether the value of a literal is past the largest finite double precision number. -/
def Numeral.outOfRange (n : Numeral) : Bool :=
  let (significand, exponent) := accumulate (-1) n.fraction (accumulate 0 n.whole (0, 0))
  let power := exponent + n.exponent
  if significand = 0 ∨ power < 0 then false
  -- a significand of at least one times a power beyond the largest one
  else if 308 < power then true
  -- products from half a unit above the largest finite number on are rounded up to infinity
  else
    roundBits significand * roundBits (Nat.pow 10 power.toNat) ≥ Nat.pow 2 1024 - Nat.pow 2 970

end ServiceTrace.Json
