import DynamoExpr.Proofs.Numeral.Layout
import DynamoExpr.Proofs.Numeral.Shortest
import DynamoExpr.Value.Storable

/-!
# Numbers that can be stored

A numeral is accepted when its magnitude is below the limit.  The texts of whole numbers of 64 bits
and the JSON texts of doubles are such numerals.
-/

namespace DynamoExpr.AttributeValue

open Numeral

/-- A numeral is accepted by its magnitude alone. -/
theorem isFiniteNumber_text (s : NumeralSpelling) :
    isFiniteNumber (String.ofList s.text) = true ↔ s.magnitude.value < (numberLimit : ℚ) := by
  rw [isFiniteNumber, String.toList_ofList, s.trim_text, s.read?_text, Decimal.below_iff]

/-! ## Whole numbers -/

def wholeSpelling (negative : Bool) (n : Nat) : NumeralSpelling where
  sign := if negative then .minus else .none
  whole := Nat.toDigits 10 n
  fraction := none
  exponent := none
  nonempty := by
    rw [Option.getD_none, List.append_nil]
    exact Nat.toDigits_ne_nil
  decimal c hc := by
    rw [Option.getD_none, List.append_nil] at hc
    exact isDigit_of_mem_toDigits hc

theorem value_wholeSpelling (negative : Bool) (n : Nat) :
    (wholeSpelling negative n).magnitude.value = n := by
  rw [NumeralSpelling.magnitude, wholeSpelling, Decimal.value]
  simp [digitsValue_toDigits]

theorem text_wholeSpelling (negative : Bool) (n : Nat) :
    (wholeSpelling negative n).text = (if negative then ['-'] else []) ++ Nat.toDigits 10 n := by
  cases negative <;>
    simp [NumeralSpelling.text, NumeralSpelling.fractionText, NumeralSpelling.exponentText,
      wholeSpelling, SignMark.text]

theorem toString_eq_text (value : Int) :
    ∃ negative, toString value = String.ofList (wholeSpelling negative value.natAbs).text := by
  cases value with
  | ofNat n =>
      refine ⟨false, ?_⟩
      rw [text_wholeSpelling]
      rfl
  | negSucc n =>
      refine ⟨true, ?_⟩
      rw [text_wholeSpelling, if_pos rfl, String.ofList_append]
      rfl

/-- A whole number of 64 bits, signed or unsigned. -/
def IsWord (value : Int) : Prop := -(Nat.pow 2 63 : Nat) ≤ value ∧ value < (Nat.pow 2 64 : Nat)

theorem isWord_byte (byte : UInt8) : IsWord byte.toNat := by
  have hlt : byte.toNat < 256 := byte.toNat_lt
  have hpow : 256 ≤ Nat.pow 2 64 := by decide
  constructor <;> omega

theorem isFiniteNumber_toString {value : Int} (h : IsWord value) :
    isFiniteNumber (toString value) = true := by
  have hpow : Nat.pow 2 63 ≤ Nat.pow 2 64 := by decide
  have hlimit : Nat.pow 2 64 < numberLimit := by decide +kernel
  have hle : value.natAbs ≤ Nat.pow 2 64 := by
    obtain ⟨hleast, hgreatest⟩ := h
    omega
  obtain ⟨negative, htext⟩ := toString_eq_text value
  rw [htext, isFiniteNumber_text, value_wholeSpelling, Nat.cast_lt]
  exact Nat.lt_of_le_of_lt hle hlimit

/-! ## Doubles -/

theorem numberLimit_eq : (numberLimit : ℚ) = BinaryFormat.double.limit := by
  -- the exponent stays a variable, as no step but the kernel's may compute the powers
  obtain ⟨n, hn⟩ : ∃ n : Nat, n = 969 := ⟨_, rfl⟩
  have hgreatest : BinaryFormat.double.greatestExponent - 2 = n := by
    rw [hn]
    decide
  have hnat : numberLimit =
      (4 * Nat.pow 2 (BinaryFormat.double.fractionBits + 1) - 2) * Nat.pow 2 n := by
    rw [hn]
    decide +kernel
  rw [BinaryFormat.limit_eq hgreatest, hnat]

/-- The JSON text of a double can be stored. -/
theorem isFiniteNumber_json {a : Magnitude} (h : BinaryFormat.double.Fits a) (negative : Bool) :
    isFiniteNumber (Layout.json.text .double (.finite negative a)) = true := by
  have hlimit := shortest_lt_limit Layout.json.tie h
  obtain ⟨s, htext, hvalue⟩ := exists_spells_json (if negative then .minus else .none)
    (shortest .double Layout.json.tie a)
  have hspelling : Layout.json.text .double (.finite negative a) = String.ofList s.text := by
    rw [Layout.text, htext]
    cases negative <;> rfl
  rw [hspelling, isFiniteNumber_text, hvalue, numberLimit_eq]
  exact hlimit

end DynamoExpr.AttributeValue
