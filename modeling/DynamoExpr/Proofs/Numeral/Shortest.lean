import DynamoExpr.Numeral.Shortest
import DynamoExpr.Proofs.Numeral.Binary
import Mathlib.Data.Nat.Cast.Order.Field
import Mathlib.Tactic.Ring

/-!
# The range of shortest decimals

The shortest decimal of a finite number does not reach the point from which decimals round to
infinity.  A decimal that reads back lies at most half a step above its number, and half a step
above the greatest number, whose mantissa is odd, is left out.
-/

namespace DynamoExpr.Numeral

/-- The least magnitude that is nearer to the power of two beyond the format than to the format. -/
def BinaryFormat.limit (f : BinaryFormat) : ℚ :=
  (4 * Nat.pow 2 (f.fractionBits + 1) - 2 : Nat) * 2 ^ (f.greatestExponent - 2)

theorem BinaryFormat.limit_eq {f : BinaryFormat} {n : Nat} (h : f.greatestExponent - 2 = n) :
    f.limit = ((4 * Nat.pow 2 (f.fractionBits + 1) - 2) * Nat.pow 2 n : Nat) := by
  have hpow : ((Nat.pow 2 n : Nat) : ℚ) = 2 ^ n := by rw [Nat.pow_eq, Nat.cast_pow, Nat.cast_ofNat]
  rw [BinaryFormat.limit, h, zpow_natCast, Nat.cast_mul, hpow]

/-- A decimal as the quotient that `readsBack` compares, in units of a power of two. -/
theorem value_eq_scaled (d : Decimal) (unit : Int) :
    d.value = ((d.digits * Nat.pow 10 d.exponent.toNat * Nat.pow 2 (-unit).toNat : Nat) : ℚ) /
      (Nat.pow 10 (-d.exponent).toNat * Nat.pow 2 unit.toNat : Nat) * 2 ^ unit := by
  have hten := pow_div_pow 10 d.exponent
  have htwo := pow_div_pow 2 (-unit)
  rw [neg_neg, Nat.cast_ofNat, zpow_neg] at htwo
  rw [Nat.cast_ofNat] at hten
  rw [Nat.cast_mul, Nat.cast_mul, Nat.cast_mul, mul_div_mul_comm, mul_div_assoc, hten, htwo,
    inv_mul_cancel_right₀ (two_zpow_pos unit).ne', Decimal.value]

/-- What reads back is at most half a step above, and less than that for an odd mantissa. -/
theorem le_of_readsBack {f : BinaryFormat} {a : Magnitude} {d : Decimal}
    (h : readsBack f a d = true) :
    d.value ≤ (4 * a.mantissa + 2 : Nat) * 2 ^ (a.exponent - 2) ∧
      (a.mantissa % 2 = 1 → d.value < (4 * a.mantissa + 2 : Nat) * 2 ^ (a.exponent - 2)) := by
  have hden : (0 : ℚ) < (Nat.pow 10 (-d.exponent).toNat *
      Nat.pow 2 (a.exponent - 2).toNat : Nat) :=
    Nat.cast_pos.2 (Nat.mul_pos (Nat.pow_pos (by decide)) (Nat.pow_pos (by decide)))
  have hunit := two_zpow_pos (a.exponent - 2)
  rw [value_eq_scaled d (a.exponent - 2), mul_le_mul_iff_left₀ hunit, mul_lt_mul_iff_left₀ hunit,
    div_le_iff₀ hden, div_lt_iff₀ hden, ← Nat.cast_mul, Nat.cast_le, Nat.cast_lt]
  rw [readsBack] at h
  split at h
  case isTrue heven =>
    simp only [Bool.and_eq_true, decide_eq_true_eq] at h
    exact ⟨h.2, fun hodd => by omega⟩
  case isFalse hodd =>
    simp only [Bool.and_eq_true, decide_eq_true_eq] at h
    exact ⟨h.2.le, fun _ => h.2⟩

theorem lt_limit_of_readsBack {f : BinaryFormat} {a : Magnitude} {d : Decimal} (ha : f.Fits a)
    (h : readsBack f a d = true) : d.value < f.limit := by
  have hmantissa := ha.mantissa
  have hwide := f.pow_succ_fractionBits
  have hexponent : (2 : ℚ) ^ (a.exponent - 2) ≤ 2 ^ (f.greatestExponent - 2) :=
    two_zpow_le (by have := ha.greatest; omega)
  obtain ⟨hle, hlt⟩ := le_of_readsBack h
  rw [BinaryFormat.limit]
  -- the greatest mantissa is odd, and below it there is a step to spare
  by_cases hlast : a.mantissa + 1 = Nat.pow 2 (f.fractionBits + 1)
  · have heq : 4 * a.mantissa + 2 = 4 * Nat.pow 2 (f.fractionBits + 1) - 2 := by omega
    rw [heq] at hlt
    exact lt_of_lt_of_le (hlt (by omega)) (mul_le_mul_of_nonneg_left hexponent (Nat.cast_nonneg _))
  · have hstep : 4 * a.mantissa + 2 < 4 * Nat.pow 2 (f.fractionBits + 1) - 2 := by omega
    calc d.value
      _ ≤ (4 * a.mantissa + 2 : Nat) * 2 ^ (a.exponent - 2) := hle
      _ < (4 * Nat.pow 2 (f.fractionBits + 1) - 2 : Nat) * 2 ^ (a.exponent - 2) :=
        mul_lt_mul_of_pos_right (Nat.cast_lt.2 hstep) (two_zpow_pos _)
      _ ≤ (4 * Nat.pow 2 (f.fractionBits + 1) - 2 : Nat) * 2 ^ (f.greatestExponent - 2) :=
        mul_le_mul_of_nonneg_left hexponent (Nat.cast_nonneg _)

theorem BinaryFormat.Fits.value_lt_limit {f : BinaryFormat} {a : Magnitude} (h : f.Fits a) :
    a.value < f.limit := by
  have hmantissa := h.mantissa
  have hunit : a.value = (4 * a.mantissa : Nat) * 2 ^ (a.exponent - 2) := by
    rw [Magnitude.value, zpow_sub₀ two_ne_zero]
    push_cast
    ring
  rw [hunit, limit]
  calc ((4 * a.mantissa : Nat) : ℚ) * 2 ^ (a.exponent - 2)
    _ < (4 * Nat.pow 2 (f.fractionBits + 1) - 2 : Nat) * 2 ^ (a.exponent - 2) :=
      mul_lt_mul_of_pos_right (Nat.cast_lt.2 (by omega)) (two_zpow_pos _)
    _ ≤ (4 * Nat.pow 2 (f.fractionBits + 1) - 2 : Nat) * 2 ^ (f.greatestExponent - 2) :=
      mul_le_mul_of_nonneg_left (two_zpow_le (by have := h.greatest; omega)) (Nat.cast_nonneg _)

/-! ## Grids -/

/-- The point of a grid below the number is no greater than the number. -/
theorem floor_le (a : Magnitude) (exponent : Int) :
    Decimal.value ⟨(inGrid a exponent).1 / (inGrid a exponent).2, exponent⟩ ≤ a.value := by
  have htwo := pow_div_pow 2 a.exponent
  have hten := pow_div_pow 10 (-exponent)
  rw [neg_neg, Nat.cast_ofNat, zpow_neg] at hten
  rw [Nat.cast_ofNat] at htwo
  have hpow : (0 : ℚ) < 10 ^ exponent := zpow_pos (by decide) exponent
  have hquotient : ((inGrid a exponent).1 : ℚ) / (inGrid a exponent).2 * 10 ^ exponent =
      a.value := by
    rw [inGrid, Nat.cast_mul, Nat.cast_mul, Nat.cast_mul, mul_div_mul_comm, mul_div_assoc, htwo,
      hten, inv_mul_cancel_right₀ hpow.ne', Magnitude.value]
  rw [← hquotient, Decimal.value]
  exact mul_le_mul_of_nonneg_right Nat.cast_div_le hpow.le

theorem readsBack_of_onGrid? {f : BinaryFormat} {tie : Tie} {a : Magnitude} {exponent : Int}
    {d : Decimal} (h : onGrid? f tie a exponent = some d) : readsBack f a d = true := by
  simp only [onGrid?] at h
  split at h
  next hbelow habove =>
    rw [Bool.and_eq_true] at hbelow
    split at h <;> cases h
    · exact habove
    · exact hbelow.1
  next hbelow _ =>
    rw [Bool.and_eq_true] at hbelow
    cases h
    exact hbelow.1
  next _ habove =>
    cases h
    exact habove
  next => cases h

/-- What is found reads back; what is left where nothing is found is a point below. -/
theorem shortestFrom_lt_limit {f : BinaryFormat} {tie : Tie} {a : Magnitude} (ha : f.Fits a)
    (grids : Nat) (exponent : Int) : (shortestFrom f tie a grids exponent).value < f.limit := by
  induction grids generalizing exponent with
  | zero => exact lt_of_le_of_lt (floor_le a exponent) ha.value_lt_limit
  | succ grids ih =>
      rw [shortestFrom]
      cases hgrid : onGrid? f tie a exponent with
      | some d => exact lt_limit_of_readsBack ha (readsBack_of_onGrid? hgrid)
      | none => exact ih (exponent - 1)

theorem shortest_lt_limit {f : BinaryFormat} (tie : Tie) {a : Magnitude} (ha : f.Fits a) :
    (shortest f tie a).value < f.limit := by
  rw [shortest]
  split
  case isTrue hzero =>
    have hlt := ha.value_lt_limit
    rw [Magnitude.value, hzero, Nat.cast_zero, zero_mul] at hlt
    rw [Decimal.value_of_digits_eq_zero rfl]
    exact hlt
  case isFalse => exact shortestFrom_lt_limit ha _ _

end DynamoExpr.Numeral
