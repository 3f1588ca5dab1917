import Mathlib.Data.List.Induction
import DynamoExpr.Numeral.Shortest

/-!
# Runs of digits

The number that a run of decimal digits denotes, and where a run ends.  Two runs of one number
differ in leading zeros.
-/

namespace DynamoExpr.Numeral

/-! ## Ends of runs -/

theorem ne_of_isDigit {c d : Char} (h : c.isDigit = true) (hd : d.isDigit = false) : c ≠ d := by
  rintro rfl
  rw [h] at hd
  cases hd

/-- A run of digits ends before a character that is none. -/
theorem takeWhile_append {digits rest : List Char} (hdigits : ∀ c ∈ digits, c.isDigit = true)
    (hrest : ∀ c ∈ rest.head?, c.isDigit = false) :
    (digits ++ rest).takeWhile Char.isDigit = digits := by
  rw [List.takeWhile_append_of_pos hdigits]
  cases rest with
  | nil => simp
  | cons c rest => rw [List.takeWhile_cons_of_neg (by simp [hrest c rfl]), List.append_nil]

theorem dropWhile_append {digits rest : List Char} (hdigits : ∀ c ∈ digits, c.isDigit = true)
    (hrest : ∀ c ∈ rest.head?, c.isDigit = false) :
    (digits ++ rest).dropWhile Char.isDigit = rest := by
  rw [List.dropWhile_append_of_pos hdigits]
  cases rest with
  | nil => rfl
  | cons c rest => rw [List.dropWhile_cons_of_neg (by simp [hrest c rfl])]

theorem isDigit_of_mem_toDigits {n : Nat} {c : Char} (h : c ∈ Nat.toDigits 10 n) :
    c.isDigit = true := Nat.isDigit_of_mem_toDigits (by decide) (by decide) h

theorem not_mem_toDigits {c : Char} (hc : c.isDigit = false) (n : Nat) :
    c ∉ Nat.toDigits 10 n := by
  intro h
  rw [isDigit_of_mem_toDigits h] at hc
  cases hc

theorem isDigit_of_mem_zeros {n : Nat} {c : Char} (h : c ∈ zeros n) : c.isDigit = true := by
  rw [(List.mem_replicate.1 h).2]
  rfl

/-! ## Values -/

theorem digitsValue_eq_ofDigitChars (digits : List Char) :
    digitsValue digits = Nat.ofDigitChars 10 digits 0 := rfl

theorem digitsValue_zeros (zeros : Nat) (digits : List Char) :
    digitsValue (List.replicate zeros '0' ++ digits) = digitsValue digits := by
  rw [digitsValue_eq_ofDigitChars, Nat.ofDigitChars_append, Nat.ofDigitChars_replicate_zero,
    Nat.mul_zero]
  rfl

theorem digitsValue_concat (digits : List Char) (d : Char) :
    digitsValue (digits ++ [d]) = 10 * digitsValue digits + (d.toNat - '0'.toNat) := by
  rw [digitsValue, List.foldl_append]
  rfl

theorem digitsValue_toDigits (n : Nat) : digitsValue (Nat.toDigits 10 n) = n :=
  Nat.ofDigitChars_ten_toDigits

/-- Of the lists of a length only one denotes a number. -/
theorem eq_of_digitsValue_eq {digits others : List Char}
    (hdigits : ∀ c ∈ digits, c.isDigit = true) (hothers : ∀ c ∈ others, c.isDigit = true)
    (hlength : digits.length = others.length)
    (hvalue : digitsValue digits = digitsValue others) : digits = others := by
  induction digits using List.reverseRecOn generalizing others with
  | nil => exact (List.length_eq_zero_iff.1 hlength.symm).symm
  | append_singleton init d ih =>
      cases others using List.reverseRecOn with
      | nil => simp at hlength
      | append_singleton init' d' =>
          rw [List.length_append, List.length_append, List.length_singleton,
            List.length_singleton] at hlength
          rw [digitsValue_concat, digitsValue_concat] at hvalue
          have hd := Char.isDigit_iff_toNat.1 (hdigits d (by simp))
          have hd' := Char.isDigit_iff_toNat.1 (hothers d' (by simp))
          have hzero : '0'.toNat = 48 := rfl
          have hnine : '9'.toNat = 57 := rfl
          have hinit : init = init' := by
            refine ih (fun c hc => hdigits c (List.mem_append_left _ hc))
              (fun c hc => hothers c (List.mem_append_left _ hc)) (by omega) (by omega)
          have hlast : d = d' := Char.toNat_inj.1 (by omega)
          rw [hinit, hlast]

/-- The shorter list of the same number stands behind zeros in the longer. -/
theorem eq_zeros_append {digits others : List Char}
    (hdigits : ∀ c ∈ digits, c.isDigit = true) (hothers : ∀ c ∈ others, c.isDigit = true)
    (hle : digits.length ≤ others.length)
    (hvalue : digitsValue digits = digitsValue others) :
    others = List.replicate (others.length - digits.length) '0' ++ digits := by
  refine eq_of_digitsValue_eq hothers ?_ ?_ ?_
  · intro c hc
    rw [List.mem_append, List.mem_replicate] at hc
    rcases hc with ⟨-, rfl⟩ | hc
    · rfl
    · exact hdigits c hc
  · rw [List.length_append, List.length_replicate]
    omega
  · rw [digitsValue_zeros, hvalue]

end DynamoExpr.Numeral
