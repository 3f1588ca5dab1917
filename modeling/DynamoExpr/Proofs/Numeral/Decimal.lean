import DynamoExpr.Numeral.Decimal
import Mathlib.Algebra.Order.Field.Power
import Mathlib.Algebra.Order.Field.Rat

/-!
# Values of decimals

The rational number that a decimal stands for.  The comparison with a limit is exact, though it
never computes a power that is larger than what is compared.
-/

namespace DynamoExpr.Numeral

/-- A power with an exponent of either sign, as the quotient of two natural ones. -/
theorem pow_div_pow (b : Nat) (k : Int) :
    ((Nat.pow b k.toNat : Nat) : ℚ) / (Nat.pow b (-k).toNat : Nat) = (b : ℚ) ^ k := by
  simp only [Nat.pow_eq, Nat.cast_pow]
  rcases Int.le_total 0 k with hk | hk
  · obtain ⟨n, rfl⟩ := Int.eq_ofNat_of_zero_le hk
    have hneg : (-(n : Int)).toNat = 0 := by omega
    rw [Int.toNat_natCast, hneg, pow_zero, div_one, zpow_natCast]
  · obtain ⟨n, hn⟩ := Int.eq_ofNat_of_zero_le (Int.neg_nonneg_of_nonpos hk)
    have hpos : k.toNat = 0 := by omega
    rw [hn, Int.toNat_natCast, hpos, pow_zero, one_div, ← zpow_natCast, ← zpow_neg, ← hn, neg_neg]

namespace Decimal

def value (d : Decimal) : ℚ := d.digits * 10 ^ d.exponent

theorem value_of_digits_eq_zero {d : Decimal} (h : d.digits = 0) : d.value = 0 := by
  rw [value, h, Nat.cast_zero, zero_mul]

theorem value_of_nonneg {d : Decimal} (h : 0 ≤ d.exponent) :
    d.value = (d.digits * Nat.pow 10 d.exponent.toNat : Nat) := by
  have hneg : (-d.exponent).toNat = 0 := by omega
  have hpow := pow_div_pow 10 d.exponent
  rw [hneg] at hpow
  rw [value, Nat.cast_mul, ← Nat.cast_ofNat, ← hpow]
  simp

theorem value_of_neg {d : Decimal} (h : d.exponent < 0) :
    d.value = d.digits / (Nat.pow 10 (-d.exponent).toNat : Nat) := by
  have hpos : d.exponent.toNat = 0 := by omega
  have hpow := pow_div_pow 10 d.exponent
  rw [hpos] at hpow
  rw [value, ← Nat.cast_ofNat, ← hpow]
  simp [div_eq_mul_inv]

theorem two_pow_le_pow_ten (n : Nat) : 2 ^ n ≤ Nat.pow 10 n := Nat.pow_le_pow_left (by decide) n

/-- The comparison by binary lengths decides as the numbers do. -/
theorem below_iff {limit : Nat} {d : Decimal} : d.below limit = true ↔ d.value < limit := by
  rw [below]
  split
  case isTrue hzero =>
    rw [value_of_digits_eq_zero hzero]
    simp
  case isFalse hdigits =>
    split
    case isTrue hexponent =>
      rw [value_of_nonneg hexponent, Nat.cast_lt, Bool.and_eq_true, decide_eq_true_eq,
        decide_eq_true_eq, and_iff_right_iff_imp]
      intro hlt
      have hpos : 1 ≤ d.digits := Nat.pos_of_ne_zero hdigits
      have hpow : 2 ^ d.exponent.toNat ≤ limit :=
        calc 2 ^ d.exponent.toNat
          _ ≤ Nat.pow 10 d.exponent.toNat := two_pow_le_pow_ten _
          _ ≤ d.digits * Nat.pow 10 d.exponent.toNat := Nat.le_mul_of_pos_left _ hpos
          _ ≤ limit := hlt.le
      exact (Nat.le_log2 (by omega)).2 hpow
    case isFalse hexponent =>
      have hneg : d.exponent < 0 := by omega
      have hden : (0 : ℚ) < (Nat.pow 10 (-d.exponent).toNat : Nat) :=
        Nat.cast_pos.2 (Nat.pow_pos (by decide))
      rw [value_of_neg hneg, div_lt_iff₀ hden]
      split
      case isTrue hsmall =>
        have hdigits : d.digits < Nat.pow 10 (-d.exponent).toNat :=
          calc d.digits
            _ < 2 ^ (-d.exponent).toNat := (Nat.log2_lt hdigits).1 hsmall
            _ ≤ Nat.pow 10 (-d.exponent).toNat := two_pow_le_pow_ten _
        rw [decide_eq_true_eq, ← Nat.cast_mul, Nat.cast_lt]
        constructor
        · intro hlimit
          exact hdigits.trans_le (Nat.le_mul_of_pos_left _ hlimit)
        · intro hlt
          exact Nat.pos_of_mul_pos_right (Nat.zero_lt_of_lt hlt)
      case isFalse =>
        rw [decide_eq_true_eq, ← Nat.cast_mul, Nat.cast_lt]

end Decimal

end DynamoExpr.Numeral
