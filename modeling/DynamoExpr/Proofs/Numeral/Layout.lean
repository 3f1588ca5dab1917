import DynamoExpr.Proofs.Numeral.Decimal
import DynamoExpr.Proofs.Numeral.Grammar
import Mathlib.Tactic.Ring

/-!
# Layouts as numerals

However a decimal is laid out as JSON, in places or with an exponent, the text is a numeral that
denotes the decimal.
-/

namespace DynamoExpr.Numeral

theorem digitsValue_append_zeros (digits : List Char) (n : Nat) :
    digitsValue (digits ++ zeros n) = 10 ^ n * digitsValue digits := by
  rw [digitsValue_eq_ofDigitChars, Nat.ofDigitChars_append, zeros,
    Nat.ofDigitChars_replicate_zero]
  rfl

structure Spells (sign : SignMark) (text : List Char) (d : Decimal) (s : NumeralSpelling) :
    Prop where
  text : s.text = sign.text ++ text
  value : s.magnitude.value = d.value

/-- A whole number with zeros and a point. -/
theorem exists_spells_whole (sign : SignMark) {d : Decimal} (h : 0 ≤ d.exponent) :
    ∃ s, Spells sign (Nat.toDigits 10 d.digits ++ zeros d.exponent.toNat ++ ['.', '0']) d s := by
  refine ⟨⟨sign, Nat.toDigits 10 d.digits ++ zeros d.exponent.toNat, some ['0'], none,
    by simp, ?_⟩, ?_, ?_⟩
  · intro c hc
    simp only [Option.getD_some, List.mem_append, List.mem_singleton] at hc
    rcases hc with (hc | hc) | rfl
    · exact isDigit_of_mem_toDigits hc
    · exact isDigit_of_mem_zeros hc
    · rfl
  · simp [NumeralSpelling.text, NumeralSpelling.fractionText, NumeralSpelling.exponentText]
  · have hzeros : zeros d.exponent.toNat ++ ['0'] = zeros (d.exponent.toNat + 1) :=
      List.replicate_succ'.symm
    have hexponent : (d.exponent.toNat : Int) = d.exponent := Int.toNat_of_nonneg h
    have hshift : (0 : Int) - ((1 : Nat) : Int) = -1 := rfl
    rw [NumeralSpelling.magnitude, Decimal.value, Decimal.value]
    simp only [Option.getD_some, Option.elim_none, List.append_assoc, hzeros,
      digitsValue_append_zeros, digitsValue_toDigits, List.length_singleton]
    rw [Nat.cast_mul, Nat.cast_pow, Nat.cast_ofNat, pow_succ, ← zpow_natCast, hexponent, hshift,
      zpow_neg_one]
    ring

/-- Digits around a point, as many of them after it as the exponent says. -/
theorem exists_spells_point (sign : SignMark) {d : Decimal} {whole fraction : List Char}
    (hnonempty : whole ++ fraction ≠ []) (hdigits : ∀ c ∈ whole ++ fraction, c.isDigit = true)
    (hvalue : digitsValue (whole ++ fraction) = d.digits)
    (hlength : (fraction.length : Int) = -d.exponent) :
    ∃ s, Spells sign (whole ++ '.' :: fraction) d s := by
  refine ⟨⟨sign, whole, some fraction, none, hnonempty, hdigits⟩, ?_, ?_⟩
  · simp [NumeralSpelling.text, NumeralSpelling.fractionText, NumeralSpelling.exponentText]
  · have hexponent : (0 : Int) - fraction.length = d.exponent := by omega
    rw [NumeralSpelling.magnitude]
    simp only [Option.getD_some, Option.elim_none, hvalue, hexponent]

theorem exists_spells_positional (sign : SignMark) (d : Decimal) :
    ∃ s, Spells sign (positionalText ".0" d) d s := by
  have hdigits : ∀ c ∈ Nat.toDigits 10 d.digits, c.isDigit = true :=
    fun _ hc => isDigit_of_mem_toDigits hc
  rw [positionalText]
  split
  case isTrue h => exact exists_spells_whole sign h
  case isFalse h =>
    have hplaces : ((-d.exponent).toNat : Int) = -d.exponent := by omega
    split
    case isTrue hshort =>
      apply exists_spells_point sign
      · rw [List.take_append_drop]
        exact Nat.toDigits_ne_nil
      · rw [List.take_append_drop]
        exact hdigits
      · rw [List.take_append_drop, digitsValue_toDigits]
      · rw [List.length_drop]
        omega
    case isFalse hlong =>
      have hzeros : ∀ n, digitsValue (['0'] ++ (zeros n ++ Nat.toDigits 10 d.digits)) = d.digits :=
        fun n => (digitsValue_zeros (n + 1) _).trans (digitsValue_toDigits d.digits)
      apply exists_spells_point sign (by simp) ?_ (hzeros _)
      · rw [List.length_append, zeros, List.length_replicate]
        omega
      · intro c hc
        rcases List.mem_append.1 hc with hc | hc
        · rw [List.mem_singleton.1 hc]
          rfl
        · rcases List.mem_append.1 hc with hc | hc
          · exact isDigit_of_mem_zeros hc
          · exact hdigits c hc

/-! ## Exponents -/

/-- The exponent that a text in powers of ten ends with. -/
def orderSpelling (order : Int) : ExponentSpelling where
  mark := 'e'
  sign := if order < 0 then .minus else .plus
  digits := Nat.toDigits 10 order.natAbs
  marked := .inl rfl
  nonempty := Nat.toDigits_ne_nil
  decimal _ := isDigit_of_mem_toDigits

theorem text_orderSpelling (order : Int) :
    (orderSpelling order).text =
      'e' :: (if order < 0 then '-' else '+') :: Nat.toDigits 10 order.natAbs := by
  rw [ExponentSpelling.text, orderSpelling]
  split <;> rfl

theorem value_orderSpelling (order : Int) : (orderSpelling order).value = order := by
  rw [ExponentSpelling.value, orderSpelling]
  by_cases h : order < 0
  · simp only [if_pos h, if_true, digitsValue_toDigits]
    omega
  · simp only [if_neg h, reduceCtorEq, if_false, digitsValue_toDigits]
    omega

/-- One digit, those after the point, and an exponent that makes up for them. -/
theorem exists_spells_order (sign : SignMark) {d : Decimal} {first : Char}
    (fraction : Option (List Char))
    (hdigits : ∀ c ∈ [first] ++ fraction.getD [], c.isDigit = true)
    (hvalue : digitsValue ([first] ++ fraction.getD []) = d.digits) {order : Int}
    (horder : order = d.exponent + (fraction.getD []).length) :
    ∃ s : NumeralSpelling, s.fraction = fraction ∧
      Spells sign (first :: s.fractionText ++ (orderSpelling order).text) d s := by
  refine ⟨⟨sign, [first], fraction, some (orderSpelling order), by simp, hdigits⟩, rfl, ?_, ?_⟩
  · simp [NumeralSpelling.text, NumeralSpelling.exponentText]
  · have hexponent : order - (fraction.getD []).length = d.exponent := by omega
    rw [NumeralSpelling.magnitude]
    simp only [Option.elim_some, value_orderSpelling, hvalue, hexponent]

theorem exists_spells_scientific (sign : SignMark) (d : Decimal) :
    ∃ s, Spells sign (scientificText d) d s := by
  have hdigits : ∀ c ∈ Nat.toDigits 10 d.digits, c.isDigit = true :=
    fun _ hc => isDigit_of_mem_toDigits hc
  have hvalue := digitsValue_toDigits d.digits
  rw [scientificText]
  cases hfirst : Nat.toDigits 10 d.digits with
  | nil => exact absurd hfirst Nat.toDigits_ne_nil
  | cons first rest =>
      rw [hfirst] at hdigits hvalue
      cases rest with
      | nil =>
          have horder : d.exponent + [first].length - 1 = d.exponent + ([] : List Char).length := by
            simp
          obtain ⟨s, hfraction, hs⟩ := exists_spells_order sign none hdigits hvalue horder
          refine ⟨s, ?_⟩
          simpa [NumeralSpelling.fractionText, hfraction, text_orderSpelling] using hs
      | cons second rest =>
          have horder : d.exponent + (first :: second :: rest).length - 1 =
              d.exponent + (second :: rest).length := by
            simp only [List.length_cons]
            omega
          obtain ⟨s, hfraction, hs⟩ :=
            exists_spells_order sign (some (second :: rest)) hdigits hvalue horder
          refine ⟨s, ?_⟩
          simpa [NumeralSpelling.fractionText, hfraction, text_orderSpelling] using hs

/-- The JSON text of a decimal is a numeral that denotes it. -/
theorem exists_spells_json (sign : SignMark) (d : Decimal) :
    ∃ s, Spells sign (Layout.json.decimalText d) d s := by
  rw [Layout.decimalText]
  simp only [Layout.json]
  split
  · exact exists_spells_positional sign d
  · exact exists_spells_scientific sign d

end DynamoExpr.Numeral
