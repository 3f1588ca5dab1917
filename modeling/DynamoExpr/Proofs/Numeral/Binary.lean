import DynamoExpr.Numeral.Binary
import DynamoExpr.Proofs.Numeral.Decimal

/-!
# Numbers of a binary format

The bounds that the magnitudes of a format keep.  Reading from bits and rounding to the nearest
number keep them, so every number of the narrow format has a place in the wide one.
-/

namespace DynamoExpr.Numeral

def Magnitude.value (a : Magnitude) : ℚ := a.mantissa * 2 ^ a.exponent

structure BinaryFormat.Fits (f : BinaryFormat) (a : Magnitude) : Prop where
  mantissa : a.mantissa < Nat.pow 2 (f.fractionBits + 1)
  least : f.leastExponent ≤ a.exponent
  greatest : a.exponent ≤ f.greatestExponent

def BinaryFormat.Has (f : BinaryFormat) : Binary → Prop
  | .finite _ a => f.Fits a
  | _ => True

theorem BinaryFormat.leastExponent_le (f : BinaryFormat) :
    f.leastExponent ≤ f.greatestExponent := by
  rw [greatestExponent]
  omega

theorem BinaryFormat.pow_succ_fractionBits (f : BinaryFormat) :
    Nat.pow 2 (f.fractionBits + 1) = 2 * Nat.pow 2 f.fractionBits := by
  rw [Nat.pow_eq, Nat.pow_succ, Nat.mul_comm, Nat.pow_eq]

/-- Bits are read as a number of the format. -/
theorem BinaryFormat.has_decode (f : BinaryFormat) (bits : Nat) : f.Has (f.decode bits) := by
  have hfraction : bits % Nat.pow 2 f.fractionBits < Nat.pow 2 f.fractionBits :=
    Nat.mod_lt _ (Nat.pow_pos (by decide))
  have hbiased : bits / Nat.pow 2 f.fractionBits % Nat.pow 2 f.exponentBits <
      Nat.pow 2 f.exponentBits := Nat.mod_lt _ (Nat.pow_pos (by decide))
  have hwide := f.pow_succ_fractionBits
  have hrange := f.leastExponent_le
  rw [decode]
  split
  · split <;> trivial
  · split
    · refine ⟨?_, le_rfl, hrange⟩
      dsimp only
      omega
    · refine ⟨?_, ?_, ?_⟩ <;> dsimp only
      · omega
      · omega
      · rw [greatestExponent]
        omega

/-! ## The order of magnitude -/

section Order

variable {num den : Nat}

/-- A quotient is compared with a scaled number by scaling the parts of the quotient. -/
theorem mul_pow_lt_iff (hden : den ≠ 0) (bound : Nat) (k : Int) :
    num * Nat.pow 2 (-k).toNat < bound * (den * Nat.pow 2 k.toNat) ↔
      (num : ℚ) / den < bound * 2 ^ k := by
  have hdenq : (0 : ℚ) < den := Nat.cast_pos.2 (Nat.pos_of_ne_zero hden)
  have hpow : (0 : ℚ) < (Nat.pow 2 (-k).toNat : Nat) := Nat.cast_pos.2 (Nat.pow_pos (by decide))
  have hscale := pow_div_pow 2 k
  rw [Nat.cast_ofNat] at hscale
  rw [← hscale, ← mul_div_assoc, div_lt_div_iff₀ hdenq hpow, mul_right_comm, mul_assoc]
  norm_cast

theorem mul_pow_le_iff (hden : den ≠ 0) (k : Int) :
    den * Nat.pow 2 k.toNat ≤ num * Nat.pow 2 (-k).toNat ↔ (2 : ℚ) ^ k ≤ num / den := by
  have h := @mul_pow_lt_iff num den hden 1 k
  rw [Nat.one_mul, Nat.cast_one, one_mul] at h
  exact le_iff_le_iff_lt_iff_lt.2 h

theorem two_zpow_pos (k : Int) : (0 : ℚ) < 2 ^ k := zpow_pos (by decide) k

theorem two_zpow_le {k l : Int} (h : k ≤ l) : (2 : ℚ) ^ k ≤ 2 ^ l :=
  zpow_le_zpow_right₀ (by decide) h

theorem two_zpow_log2_le (hnum : num ≠ 0) : (2 : ℚ) ^ (num.log2 : Int) ≤ num := by
  rw [zpow_natCast, ← Nat.cast_ofNat, ← Nat.cast_pow, Nat.cast_le]
  exact Nat.log2_self_le hnum

theorem lt_two_zpow_log2 (num : Nat) : (num : ℚ) < 2 ^ (num.log2 + 1 : Int) := by
  rw [← Nat.cast_succ, zpow_natCast, ← Nat.cast_ofNat, ← Nat.cast_pow, Nat.cast_lt]
  exact Nat.lt_log2_self

/-- The quotient lies between the power of two of its order and the next. -/
theorem binaryOrder_bounds (hnum : num ≠ 0) (hden : den ≠ 0) :
    (2 : ℚ) ^ binaryOrder num den ≤ num / den ∧
      (num : ℚ) / den < 2 ^ (binaryOrder num den + 1) := by
  have hdenq : (0 : ℚ) < den := Nat.cast_pos.2 (Nat.pos_of_ne_zero hden)
  rw [binaryOrder]
  simp only [mul_pow_le_iff hden]
  split
  case isTrue hguess =>
    refine ⟨hguess, ?_⟩
    rw [div_lt_iff₀ hdenq]
    calc (num : ℚ)
      _ < 2 ^ (num.log2 + 1 : Int) := lt_two_zpow_log2 num
      _ = 2 ^ ((num.log2 : Int) - den.log2 + 1) * 2 ^ (den.log2 : Int) := by
        rw [← zpow_add₀ two_ne_zero]
        congr 1
        omega
      _ ≤ 2 ^ ((num.log2 : Int) - den.log2 + 1) * den :=
        mul_le_mul_of_nonneg_left (two_zpow_log2_le hden) (two_zpow_pos _).le
  case isFalse hguess =>
    rw [sub_add_cancel]
    refine ⟨?_, lt_of_not_ge hguess⟩
    rw [le_div_iff₀ hdenq]
    calc (2 : ℚ) ^ ((num.log2 : Int) - den.log2 - 1) * den
      _ ≤ 2 ^ ((num.log2 : Int) - den.log2 - 1) * 2 ^ (den.log2 + 1 : Int) :=
        mul_le_mul_of_nonneg_left (lt_two_zpow_log2 den).le (two_zpow_pos _).le
      _ = 2 ^ (num.log2 : Int) := by
        rw [← zpow_add₀ two_ne_zero]
        congr 1
        omega
      _ ≤ num := two_zpow_log2_le hnum

end Order

/-! ## Rounding -/

theorem roundDiv_le {num den bound : Nat} (h : num < bound * den) : roundDiv num den ≤ bound := by
  have hquotient : num / den < bound := by
    rw [Nat.div_lt_iff_lt_mul (Nat.pos_of_mul_pos_left (Nat.zero_lt_of_lt h))]
    exact h
  rw [roundDiv]
  split <;> omega

namespace BinaryFormat

/-- The exponent that gives the quotient a mantissa of full width, where the format has it. -/
def gridExponent (f : BinaryFormat) (num den : Nat) : Int :=
  max f.leastExponent (binaryOrder num den - f.fractionBits)

/-- The mantissa before a carry into the next exponent. -/
def gridMantissa (f : BinaryFormat) (num den : Nat) : Nat :=
  roundDiv (num * Nat.pow 2 (-f.gridExponent num den).toNat)
    (den * Nat.pow 2 (f.gridExponent num den).toNat)

theorem gridMantissa_le (f : BinaryFormat) {num den : Nat} (hnum : num ≠ 0) (hden : den ≠ 0) :
    f.gridMantissa num den ≤ Nat.pow 2 (f.fractionBits + 1) := by
  apply roundDiv_le
  rw [mul_pow_lt_iff hden]
  calc (num : ℚ) / den
    _ < 2 ^ (binaryOrder num den + 1) := (binaryOrder_bounds hnum hden).2
    _ ≤ 2 ^ ((f.fractionBits + 1 : Nat) + f.gridExponent num den) :=
      two_zpow_le (by rw [gridExponent]; omega)
    _ = (Nat.pow 2 (f.fractionBits + 1) : Nat) * 2 ^ f.gridExponent num den := by
      rw [zpow_add₀ two_ne_zero, zpow_natCast, Nat.pow_eq, Nat.cast_pow, Nat.cast_ofNat]

/-- The number of the grid, with a carry where the mantissa is too wide. -/
def carried (f : BinaryFormat) (num den : Nat) : Magnitude :=
  if f.gridMantissa num den = Nat.pow 2 (f.fractionBits + 1) then
    ⟨Nat.pow 2 f.fractionBits, f.gridExponent num den + 1⟩
  else ⟨f.gridMantissa num den, f.gridExponent num den⟩

theorem nearest?_eq (f : BinaryFormat) {num : Nat} (hnum : num ≠ 0) (den : Nat) :
    f.nearest? num den =
      if f.greatestExponent < (f.carried num den).exponent then none
      else some (f.carried num den) := by
  rw [nearest?, if_neg hnum]
  rfl

theorem exponent_carried (f : BinaryFormat) (num den : Nat) :
    f.gridExponent num den ≤ (f.carried num den).exponent ∧
      (f.carried num den).exponent ≤ f.gridExponent num den + 1 := by
  rw [carried]
  split <;> dsimp only <;> omega

/-- The nearest number of a format is one of its numbers. -/
theorem fits_of_nearest? {f : BinaryFormat} {num den : Nat} {a : Magnitude} (hden : den ≠ 0)
    (h : f.nearest? num den = some a) : f.Fits a := by
  by_cases hnum : num = 0
  · rw [nearest?, if_pos hnum, Option.some.injEq] at h
    subst h
    exact ⟨Nat.pow_pos (by decide), le_rfl, f.leastExponent_le⟩
  · rw [nearest?_eq f hnum] at h
    split at h
    case isTrue => cases h
    case isFalse hgreatest =>
      cases h
      refine ⟨?_, ?_, not_lt.1 hgreatest⟩
      · have hmantissa := f.gridMantissa_le hnum hden
        have hwide := f.pow_succ_fractionBits
        have hpos : 0 < Nat.pow 2 f.fractionBits := Nat.pow_pos (by decide)
        rw [carried]
        split <;> dsimp only <;> omega
      · exact le_trans (le_max_left _ _) (f.exponent_carried num den).1

/-- A quotient below a power of two that the format reaches has a nearest number. -/
theorem exists_nearest? {f : BinaryFormat} {num den : Nat} {k : Int} (hden : den ≠ 0)
    (hlt : (num : ℚ) / den < 2 ^ k) (hreach : k ≤ f.greatestExponent + f.fractionBits)
    (hwide : f.leastExponent < f.greatestExponent) : ∃ a, f.nearest? num den = some a := by
  by_cases hnum : num = 0
  · exact ⟨_, by rw [nearest?, if_pos hnum]⟩
  · have horder : binaryOrder num den < k :=
      (zpow_lt_zpow_iff_right₀ one_lt_two).1
        (lt_of_le_of_lt (binaryOrder_bounds hnum hden).1 hlt)
    have hexponent := (f.exponent_carried num den).2
    rw [gridExponent] at hexponent
    refine ⟨f.carried num den, ?_⟩
    rw [nearest?_eq f hnum, if_neg (by omega)]

end BinaryFormat

/-! ## Widening -/

theorem Magnitude.value_eq_div (a : Magnitude) :
    a.value = ((a.mantissa * Nat.pow 2 a.exponent.toNat : Nat) : ℚ) /
      (Nat.pow 2 (-a.exponent).toNat : Nat) := by
  rw [Nat.cast_mul, mul_div_assoc, pow_div_pow 2, Nat.cast_ofNat, value]

theorem BinaryFormat.Fits.value_lt {f : BinaryFormat} {a : Magnitude} (h : f.Fits a) :
    a.value < 2 ^ (f.greatestExponent + f.fractionBits + 1) :=
  calc a.value
    _ < (Nat.pow 2 (f.fractionBits + 1) : Nat) * 2 ^ a.exponent :=
      mul_lt_mul_of_pos_right (Nat.cast_lt.2 h.mantissa) (two_zpow_pos _)
    _ = 2 ^ ((f.fractionBits + 1 : Nat) + a.exponent) := by
      rw [zpow_add₀ two_ne_zero, zpow_natCast, Nat.pow_eq, Nat.cast_pow, Nat.cast_ofNat]
    _ ≤ 2 ^ (f.greatestExponent + f.fractionBits + 1) :=
      two_zpow_le (by have := h.greatest; omega)

/-- A finite number of the narrow format stays finite in the wide one. -/
theorem exists_widen (negative : Bool) {a : Magnitude} (h : BinaryFormat.single.Fits a) :
    ∃ wide, widen (.finite negative a) = .finite negative wide ∧
      BinaryFormat.double.Fits wide := by
  have hden : Nat.pow 2 (-a.exponent).toNat ≠ 0 := (Nat.pow_pos (by decide)).ne'
  have hlt := h.value_lt
  rw [a.value_eq_div] at hlt
  obtain ⟨wide, hwide⟩ :=
    BinaryFormat.exists_nearest? (f := .double) hden hlt (by decide) (by decide)
  refine ⟨wide, ?_, BinaryFormat.fits_of_nearest? hden hwide⟩
  rw [widen, hwide]

end DynamoExpr.Numeral
