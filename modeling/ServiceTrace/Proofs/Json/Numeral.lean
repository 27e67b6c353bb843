import Mathlib.Data.List.TakeDrop
import Mathlib.Data.List.TakeWhile
import ServiceTrace.Json.Reader

/-!
# `ServiceTrace.Proofs.Json.Numeral` — natural numbers as literals

The numbers that are written here are naturals in decimal. Their digits are read back as the number
(`readDigits?_toString`), and a number of at most 64 bits is a literal in range (`number?_toString`): it has
no superfluous zeros, its digits all fit into the significand, and no exponent moves it.
-/

namespace ServiceTrace

/-! ## Digits -/

theorem Text.digitsValue_eq (digits : List Char) :
    Text.digitsValue digits = Nat.ofDigitChars 10 digits 0 := by
  rw [Text.digitsValue, Nat.ofDigitChars_eq_foldl]

theorem all_isDigit_toDigits (n : Nat) : (Nat.toDigits 10 n).all Char.isDigit = true :=
  List.all_eq_true.mpr fun _ hc => Nat.isDigit_of_mem_toDigits (by decide) (by decide) hc

theorem Text.readDigits?_toString (n : Nat) : Text.readDigits? (toString n).toList = some n := by
  rw [Nat.toString_eq_repr, Nat.toList_repr, Text.readDigits?,
    if_pos ⟨Nat.toDigits_ne_nil, all_isDigit_toDigits n⟩, Text.digitsValue_eq,
    Nat.ofDigitChars_ten_toDigits]

/-- A positive number does not begin with a zero. -/
theorem head?_toDigits_ne {n : Nat} (h : 0 < n) : (Nat.toDigits 10 n).head? ≠ some '0' := by
  induction n using Nat.base_induction 10 (by decide) with
  | single m hm =>
    rw [Nat.toDigits_of_lt_base hm, List.head?_cons]
    intro hzero
    have : m = 0 := Nat.digitChar_eq_zero.mp (Option.some.inj hzero)
    omega
  | digit m k hk hm ih =>
    rw [← Nat.toDigits_append_toDigits (by decide) hm hk, List.head?_append]
    obtain ⟨first, hfirst⟩ := Option.isSome_iff_exists.mp
      (List.isSome_head?.mpr (Nat.toDigits_ne_nil (n := m) (b := 10)))
    rw [hfirst, Option.some_or, ← hfirst]
    exact ih hm

namespace Json

/-! ## Range -/

/-- As long as the number fits into 64 bits every digit joins the significand. -/
theorem accumulate_of_lt {digits : List Char} {significand : Nat} (exponent : Int)
    (h : Nat.ofDigitChars 10 digits significand < UInt64.size) :
    accumulate 0 digits (significand, exponent) = (Nat.ofDigitChars 10 digits significand, exponent) := by
  induction digits generalizing significand with
  | nil => rfl
  | cons c cs ih =>
    rw [Nat.ofDigitChars_cons] at h
    -- the digits behind only make the number greater
    have hnext : 10 * significand + (c.toNat - '0'.toNat) < UInt64.size := by
      rw [Nat.ofDigitChars_eq_ofDigitChars_zero] at h
      have hpos : 0 < 10 ^ cs.length := Nat.pow_pos (by decide)
      have hle := Nat.le_mul_of_pos_left (10 * significand + (c.toNat - '0'.toNat)) hpos
      omega
    rw [accumulate]
    show (if _ then _ else _) = _
    rw [if_pos hnext, Int.add_zero, ih h, Nat.ofDigitChars_cons]

/-- Rounding to 53 bits does not double a number. -/
theorem roundBits_le (n : Nat) : roundBits n ≤ 2 * n := by
  unfold roundBits
  split
  · omega
  · rename_i hn
    have hunit : Nat.pow 2 (n.log2 - 52) ≤ n :=
      Nat.le_trans (Nat.pow_le_pow_right (by decide) (Nat.sub_le _ _))
        (Nat.log2_self_le (by rintro rfl; exact hn (by decide)))
    have hquotient : n / Nat.pow 2 (n.log2 - 52) * Nat.pow 2 (n.log2 - 52) ≤ n := Nat.div_mul_le_self _ _
    dsimp only
    simp only [Nat.add_one_mul]
    split
    · omega
    · split
      · omega
      · split <;> omega

/-- A number of at most 64 bits is far from the largest finite one. -/
theorem roundBits_mul_lt {n : Nat} (h : n < UInt64.size) :
    roundBits n * roundBits (Nat.pow 10 0) < Nat.pow 2 1024 - Nat.pow 2 970 := by
  have hone : roundBits (Nat.pow 10 0) = 1 := by decide
  have hlarge : 2 * UInt64.size < Nat.pow 2 1024 - Nat.pow 2 970 := by decide +kernel
  have hle := roundBits_le n
  rw [hone]
  omega

/-- The grammar takes the digits of a number for its integer part. -/
theorem ofChars?_toDigits (n : Nat) :
    Numeral.ofChars? (Nat.toDigits 10 n) = some ⟨Nat.toDigits 10 n, [], 0⟩ := by
  have hdigits : ∀ c ∈ Nat.toDigits 10 n, c.isDigit = true :=
    fun c hc => Nat.isDigit_of_mem_toDigits (by decide) (by decide) hc
  have hspan : (Nat.toDigits 10 n).span Char.isDigit = (Nat.toDigits 10 n, []) := by
    rw [List.span_eq_takeWhile_dropWhile, List.takeWhile_eq_self_iff.mpr hdigits,
      List.dropWhile_eq_nil_iff.mpr hdigits]
  have hzero : ¬ (Nat.toDigits 10 n = [] ∨
      ((Nat.toDigits 10 n).head? = some '0' ∧ (Nat.toDigits 10 n).length > 1)) := by
    rintro (hnil | ⟨hhead, hlong⟩)
    · exact Nat.toDigits_ne_nil hnil
    · rcases Nat.eq_zero_or_pos n with rfl | hpos
      · exact absurd hlong (by decide)
      · exact head?_toDigits_ne hpos hhead
  unfold Numeral.ofChars?
  split
  · rename_i rest heq
    -- a minus sign is no digit
    exact absurd (hdigits '-' (heq ▸ List.mem_cons_self)) (by decide)
  · simp only [hspan]
    rw [if_neg hzero]
    rfl

theorem number?_toString {n : Nat} (h : n < UInt64.size) :
    number? (toString n).toList = some (.num (toString n)) := by
  have hrange : Numeral.outOfRange ⟨Nat.toDigits 10 n, [], 0⟩ = false := by
    have hvalue : Nat.ofDigitChars 10 (Nat.toDigits 10 n) 0 = n := Nat.ofDigitChars_ten_toDigits
    -- there are no digits behind a point, and no exponent
    have hdigits : accumulate (-1) [] (accumulate 0 (Nat.toDigits 10 n) (0, 0)) = (n, 0) := by
      rw [accumulate_of_lt 0 (by rwa [hvalue]), hvalue]
      rfl
    unfold Numeral.outOfRange
    rw [hdigits]
    show (if n = 0 ∨ (0 : Int) + 0 < 0 then false else if 308 < (0 : Int) + 0 then true
      else decide (roundBits n * roundBits (Nat.pow 10 0) ≥ Nat.pow 2 1024 - Nat.pow 2 970)) = false
    split
    · rfl
    · rw [if_neg (by decide)]
      exact decide_eq_false (Nat.not_le.mpr (roundBits_mul_lt h))
  rw [number?, Nat.toString_eq_repr, Nat.toList_repr, ofChars?_toDigits]
  show (if Numeral.outOfRange _ = true then none else some (Json.num _)) = _
  rw [hrange, Nat.repr_eq_ofList_toDigits]
  rfl

end Json

end ServiceTrace
