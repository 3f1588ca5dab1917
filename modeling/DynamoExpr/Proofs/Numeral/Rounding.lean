import DynamoExpr.Proofs.Numeral.Shortest

/-!
# Where rounding overflows

Rounding to the nearest number of a format, ties to the even mantissa, finds none exactly from the
limit of the format on.  For doubles the limit is `2 ^ 1024 - 2 ^ 970`.
-/

namespace DynamoExpr.Numeral

/-- Half a step below an even number is rounded to it. -/
theorem le_roundDiv_iff {num den bound : Nat} (hden : 0 < den) (hpos : 0 < bound)
    (heven : bound % 2 = 0) : bound ≤ roundDiv num den ↔ (2 * bound - 1) * den ≤ 2 * num := by
  have hnum := Nat.div_add_mod num den
  have hrem := Nat.mod_lt num hden
  rw [roundDiv]
  generalize num / den = quotient at hnum ⊢
  generalize num % den = rem at hnum hrem ⊢
  subst hnum
  have hhalf : (2 * bound - 1) * den + den = 2 * (bound * den) := by
    rw [← Nat.succ_mul, ← Nat.mul_assoc]
    congr 1
    omega
  have hproduct : quotient * den = den * quotient := Nat.mul_comm quotient den
  rcases Nat.lt_or_ge quotient bound with hlt | hge
  · rcases Nat.lt_or_ge (quotient + 1) bound with hfar | hnear
    · have hfull := Nat.mul_le_mul_right den (Nat.succ_le_of_lt hfar)
      rw [Nat.succ_mul, Nat.succ_mul] at hfull
      split <;> omega
    · have hlast : bound = quotient + 1 := by omega
      subst hlast
      rw [Nat.succ_mul quotient den] at hhalf
      split <;> omega
  · have hfull := Nat.mul_le_mul_right den hge
    split <;> omega

namespace BinaryFormat

variable {f : BinaryFormat} {num den : Nat}

theorem limit_eq_half (f : BinaryFormat) :
    f.limit = (2 * Nat.pow 2 (f.fractionBits + 1) - 1 : Nat) * 2 ^ f.greatestExponent / 2 := by
  have hdouble : 4 * Nat.pow 2 (f.fractionBits + 1) - 2 =
      2 * (2 * Nat.pow 2 (f.fractionBits + 1) - 1) := by omega
  rw [limit, hdouble, zpow_sub₀ two_ne_zero, Nat.cast_mul]
  push_cast
  ring

/-- The mantissa is carried from the limit on, if its exponent is the greatest. -/
theorem gridMantissa_eq_iff (hnum : num ≠ 0) (hden : den ≠ 0)
    (hexponent : f.gridExponent num den = f.greatestExponent) :
    f.gridMantissa num den = Nat.pow 2 (f.fractionBits + 1) ↔ f.limit ≤ (num : ℚ) / den := by
  have hwide := f.pow_succ_fractionBits
  have hpos : 0 < Nat.pow 2 f.fractionBits := Nat.pow_pos (by decide)
  have hscaled : 0 < den * Nat.pow 2 f.greatestExponent.toNat :=
    Nat.mul_pos (Nat.pos_of_ne_zero hden) (Nat.pow_pos (by decide))
  have hcompare := @mul_pow_lt_iff (2 * num) den hden
    (2 * Nat.pow 2 (f.fractionBits + 1) - 1) f.greatestExponent
  rw [Nat.cast_mul, mul_div_assoc, Nat.cast_ofNat] at hcompare
  have hle := f.gridMantissa_le hnum hden
  calc f.gridMantissa num den = Nat.pow 2 (f.fractionBits + 1)
    _ ↔ Nat.pow 2 (f.fractionBits + 1) ≤ f.gridMantissa num den := by omega
    _ ↔ (2 * Nat.pow 2 (f.fractionBits + 1) - 1) *
          (den * Nat.pow 2 f.greatestExponent.toNat) ≤
        2 * num * Nat.pow 2 (-f.greatestExponent).toNat := by
      rw [gridMantissa, hexponent, le_roundDiv_iff hscaled (by omega) (by omega), Nat.mul_assoc 2]
    _ ↔ f.limit ≤ (num : ℚ) / den := by
      rw [← not_lt, hcompare, not_lt, limit_eq_half, div_le_iff₀ two_pos, mul_comm (num / den : ℚ)]

/-- The limit is half a step below the power of two beyond the format. -/
theorem limit_eq_sub (f : BinaryFormat) :
    f.limit = 2 ^ (f.greatestExponent + f.fractionBits + 1) - 2 ^ (f.greatestExponent - 1) := by
  have hpos : 1 ≤ 2 * Nat.pow 2 (f.fractionBits + 1) :=
    Nat.mul_pos (by decide) (Nat.pow_pos (by decide))
  rw [limit_eq_half, Nat.cast_sub hpos, zpow_sub₀ two_ne_zero, zpow_add₀ two_ne_zero,
    zpow_add₀ two_ne_zero, zpow_natCast, Nat.pow_eq]
  push_cast
  ring

theorem limit_bounds (f : BinaryFormat) :
    2 ^ (f.greatestExponent + f.fractionBits) ≤ f.limit ∧
      f.limit ≤ 2 ^ (f.greatestExponent + f.fractionBits + 1) := by
  have hstep : (2 : ℚ) ^ (f.greatestExponent - 1) ≤ 2 ^ (f.greatestExponent + f.fractionBits) :=
    two_zpow_le (by omega)
  rw [limit_eq_sub]
  constructor
  · rw [zpow_add_one₀ two_ne_zero, mul_two, le_sub_iff_add_le]
    exact add_le_add le_rfl hstep
  · exact sub_le_self _ (two_zpow_pos _).le

/-- Doubles become infinite from this number on. -/
theorem limit_double : double.limit = 2 ^ 1024 - 2 ^ 970 := by
  have hhigh : double.greatestExponent + double.fractionBits + 1 = (1024 : Nat) := by decide
  have hlow : double.greatestExponent - 1 = (970 : Nat) := by decide
  rw [limit_eq_sub, hhigh, hlow, zpow_natCast, zpow_natCast]

/-- Rounding leaves the format exactly from the limit on. -/
theorem nearest?_eq_none_iff (hden : den ≠ 0) :
    f.nearest? num den = none ↔ f.limit ≤ (num : ℚ) / den := by
  obtain ⟨hleast, hmost⟩ := f.limit_bounds
  by_cases hnum : num = 0
  · have hzero : (num : ℚ) / den = 0 := by rw [hnum, Nat.cast_zero, zero_div]
    have hlimit : 0 < f.limit := lt_of_lt_of_le (two_zpow_pos _) hleast
    rw [nearest?, if_pos hnum, hzero]
    exact iff_of_false (by simp) (not_le.2 hlimit)
  · obtain ⟨hlow, hhigh⟩ := binaryOrder_bounds hnum hden
    have hexponent : f.gridExponent num den =
        max f.leastExponent (binaryOrder num den - f.fractionBits) := rfl
    have hrange := f.leastExponent_le
    have hcarried : f.nearest? num den = none ↔
        f.greatestExponent < (f.carried num den).exponent := by
      rw [nearest?_eq f hnum]
      split
      case isTrue hbeyond => exact iff_of_true rfl hbeyond
      case isFalse hwithin => exact iff_of_false (Option.some_ne_none _) hwithin
    rw [hcarried]
    rcases lt_trichotomy (f.gridExponent num den) f.greatestExponent with hless | hequal | hgreater
    · have hsmall : (num : ℚ) / den < f.limit :=
        calc (num : ℚ) / den
          _ < 2 ^ (binaryOrder num den + 1) := hhigh
          _ ≤ 2 ^ (f.greatestExponent + f.fractionBits) := two_zpow_le (by omega)
          _ ≤ f.limit := hleast
      have hnext := (f.exponent_carried num den).2
      exact iff_of_false (by omega) (not_le.2 hsmall)
    · rw [← gridMantissa_eq_iff hnum hden hequal, carried, hequal]
      split
      case isTrue hfull => exact iff_of_true (lt_add_one _) hfull
      case isFalse hrest => exact iff_of_false (lt_irrefl _) hrest
    · have hlarge : f.limit ≤ (num : ℚ) / den :=
        calc f.limit
          _ ≤ 2 ^ (f.greatestExponent + f.fractionBits + 1) := hmost
          _ ≤ 2 ^ binaryOrder num den := two_zpow_le (by omega)
          _ ≤ (num : ℚ) / den := hlow
      have hgrid := (f.exponent_carried num den).1
      exact iff_of_true (by omega) hlarge

/-- The number of the format nearest to a decimal; none where that is infinite. -/
def round? (f : BinaryFormat) (d : Decimal) : Option Magnitude :=
  f.nearest? (d.digits * Nat.pow 10 d.exponent.toNat) (Nat.pow 10 (-d.exponent).toNat)

/-- A decimal has a nearest number exactly if it is below the limit. -/
theorem round?_isSome_iff (f : BinaryFormat) (d : Decimal) :
    (f.round? d).isSome = true ↔ d.value < f.limit := by
  have hden : Nat.pow 10 (-d.exponent).toNat ≠ 0 := (Nat.pow_pos (by decide)).ne'
  have hvalue : d.value = ((d.digits * Nat.pow 10 d.exponent.toNat : Nat) : ℚ) /
      (Nat.pow 10 (-d.exponent).toNat : Nat) := by
    rw [Nat.cast_mul, mul_div_assoc, pow_div_pow 10, Nat.cast_ofNat, Decimal.value]
  rw [round?, hvalue, ← not_le, ← nearest?_eq_none_iff hden, Option.isSome_iff_ne_none]

end BinaryFormat

end DynamoExpr.Numeral
