import DynamoExpr.Proofs.Alias.Indexed
import DynamoExpr.Proofs.Numeral.Reading
import DynamoExpr.Proofs.Numeral.Rounding
import DynamoExpr.Proofs.Value.Number

/-!
# Which numbers get an alias

A number is given an alias exactly if its text, blanks at the ends aside, is a numeral, and the
exact rational that it denotes rounds to a finite double.
-/

namespace DynamoExpr

namespace Numeral

/-- The rational number that the numeral denotes, with its sign. -/
def NumeralSpelling.value (s : NumeralSpelling) : ℚ :=
  if s.sign = .minus then -s.magnitude.value else s.magnitude.value

theorem NumeralSpelling.abs_value (s : NumeralSpelling) : |s.value| = s.magnitude.value := by
  have hnonneg : 0 ≤ s.magnitude.value :=
    mul_nonneg (Nat.cast_nonneg _) (zpow_pos (by decide) _).le
  rw [value]
  split
  · rw [abs_neg, abs_of_nonneg hnonneg]
  · exact abs_of_nonneg hnonneg

theorem NumeralSpelling.value_eq_zero {s : NumeralSpelling}
    (h : ∀ c ∈ s.whole ++ s.fraction.getD [], c = '0') : s.value = 0 := by
  have hzeros := List.eq_replicate_iff.2 ⟨rfl, h⟩
  have hdigits : s.magnitude.digits = 0 := by
    have hvalue := digitsValue_zeros (s.whole ++ s.fraction.getD []).length []
    rw [List.append_nil, ← hzeros] at hvalue
    exact hvalue
  rw [value, Decimal.value_of_digits_eq_zero hdigits, neg_zero, ite_self]

/-- Some character of a numeral is a digit. -/
theorem NumeralSpelling.exists_isDigit (s : NumeralSpelling) :
    ∃ c ∈ s.text, c.isDigit = true := by
  obtain ⟨c, hhead, hdigit⟩ := exists_head?_digits s.nonempty s.decimal
  refine ⟨c, ?_, hdigit⟩
  rw [text]
  rcases List.mem_append.1 (List.mem_of_head? hhead) with hwhole | hfraction
  · exact List.mem_append_right _ (List.mem_append_left _ hwhole)
  · refine List.mem_append_right _ (List.mem_append_right _ (List.mem_append_left _ ?_))
    rw [fractionText]
    cases hpoint : s.fraction with
    | none =>
        rw [hpoint] at hfraction
        cases hfraction
    | some fraction =>
        rw [hpoint] at hfraction
        exact List.mem_cons_of_mem _ hfraction

/-- The words for what is not finite, with letters of either case. -/
def IsSpecialWord (word : List Char) : Prop :=
  word.map Char.toLower ∈ ["inf".toList, "infinity".toList, "nan".toList]

theorem toLower_of_isDigit {c : Char} (h : c.isDigit = true) : c.toLower = c := by
  have hc := Char.isDigit_iff_toNat.1 h
  have hnine : '9'.toNat = 57 := rfl
  refine dif_neg ?_
  rintro ⟨hupper, -⟩
  have hle : 65 ≤ c.toNat := UInt32.le_iff_toNat_le.1 hupper
  omega

theorem IsSpecialWord.isDigit_eq_false {word : List Char} (h : IsSpecialWord word) :
    ∀ c ∈ word, c.isDigit = false := by
  intro c hc
  refine eq_false_of_ne_true fun hdigit => ?_
  have hmem : c ∈ word.map Char.toLower :=
    List.mem_map.2 ⟨c, hc, toLower_of_isDigit hdigit⟩
  have hwords : (["inf".toList, "infinity".toList, "nan".toList].all fun word =>
      word.all fun d => !d.isDigit) = true := by decide
  have hletter := List.all_eq_true.1 (List.all_eq_true.1 hwords _ h) c hmem
  rw [hdigit] at hletter
  cases hletter

end Numeral

namespace AttributeValue

open Numeral

/-- A text is accepted for the numeral in it. -/
theorem isFiniteNumber_iff {text : String} :
    isFiniteNumber text = true ↔
      ∃ s : NumeralSpelling, Text.Padded s.text text.toList ∧
        s.magnitude.value < BinaryFormat.double.limit := by
  rw [← numberLimit_eq, isFiniteNumber]
  constructor
  · intro h
    cases hread : Decimal.read? (Text.trim text.toList) with
    | none =>
        rw [hread] at h
        cases h
    | some d =>
        rw [hread] at h
        obtain ⟨s, htext, rfl⟩ := NumeralSpelling.read?_eq_some_iff.1 hread
        refine ⟨s, ?_, Decimal.below_iff.1 h⟩
        rw [htext]
        exact Text.padded_trim _
  · rintro ⟨s, hpadded, hbelow⟩
    rw [Text.trim_eq_of_padded hpadded fun _ => s.isBlank_of_mem_text, s.read?_text]
    exact Decimal.below_iff.2 hbelow

/-- Without a digit there is no numeral, whatever the blanks. -/
theorem isFiniteNumber_of_digitless {text : String} (h : ∀ c ∈ text.toList, c.isDigit = false) :
    isFiniteNumber text = false := by
  refine eq_false_of_ne_true fun hfinite => ?_
  obtain ⟨s, ⟨lead, trail, -, -, htext⟩, -⟩ := isFiniteNumber_iff.1 hfinite
  obtain ⟨c, hc, hdigit⟩ := s.exists_isDigit
  rw [h c (htext ▸ by simp [hc])] at hdigit
  cases hdigit

/-- A word for what is not finite is no numeral, with or without a sign. -/
theorem isFiniteNumber_of_isSpecialWord {sign : SignMark} {word : List Char} {text : String}
    (hword : IsSpecialWord word) (h : Text.Padded (sign.text ++ word) text.toList) :
    isFiniteNumber text = false := by
  obtain ⟨lead, trail, hlead, htrail, htext⟩ := h
  have hblank : ∀ c, Text.isBlank c = true → c.isDigit = false := fun c hc =>
    eq_false_of_ne_true fun hdigit => by simp [NumeralSpelling.isBlank_of_isDigit hdigit] at hc
  have hsign : ∀ c ∈ sign.text, c.isDigit = false := by cases sign <;> simp [SignMark.text]
  refine isFiniteNumber_of_digitless ?_
  rw [← htext]
  simp only [List.forall_mem_append]
  exact ⟨fun c hc => hblank c (hlead c hc), ⟨hsign, hword.isDigit_eq_false⟩,
    fun c hc => hblank c (htrail c hc)⟩

end AttributeValue

namespace Aliases

open Numeral AttributeValue

/-- How the request for the alias of a number ends. -/
structure NumberVerdict (text : String) (outcome : Except ExpressionError Nat) : Prop where
  /-- Between blanks there is a numeral, and what it denotes is below the threshold. -/
  exact_iff : (∃ i, outcome = .ok i) ↔
    ∃ s : NumeralSpelling, Text.Padded s.text text.toList ∧ |s.value| < 2 ^ 1024 - 2 ^ 970
  /-- The threshold is where the nearest double becomes infinite. -/
  rounded_iff : (∃ i, outcome = .ok i) ↔
    ∃ s : NumeralSpelling, Text.Padded s.text text.toList ∧
      (BinaryFormat.double.round? s.magnitude).isSome = true
  /-- Where all digits are zero, any exponent will do. -/
  zero : ∀ s : NumeralSpelling, Text.Padded s.text text.toList →
    (∀ c ∈ s.whole ++ s.fraction.getD [], c = '0') → ∃ i, outcome = .ok i
  /-- The words for what is not finite are refused. -/
  words : ∀ (sign : SignMark) (word : List Char), IsSpecialWord word →
    Text.Padded (sign.text ++ word) text.toList → ¬ ∃ i, outcome = .ok i
  /-- What is refused is reported as an invalid number. -/
  refused : ∀ e, outcome = .error e → e = .invalid (.storage (.number text))

/-- In a sound table no entry equals a value that cannot be stored, so the check refuses it. -/
theorem exists_run_value_error {table : Aliases} (h : table.Sound) {v : AttributeValue}
    (hv : ¬ v.Storable) :
    ∃ fault, v.check = .error fault ∧
      (value v).run.run table = (.error (.invalid (.storage fault)), table) := by
  have hnot : ¬ Lane.Holds v table.values := fun hin => hv (h.storable hin)
  cases hcheck : v.check with
  | ok u => exact absurd (check_eq_ok_iff.1 hcheck) hv
  | error fault =>
      exact ⟨fault, rfl, run_value_of_error (Lane.number?_of_not_holds hnot) hcheck⟩

/-- What is refused of numbers is reported by its text. -/
theorem run_number_error {table : Aliases} (h : table.Sound) {text : String}
    (hfinite : isFiniteNumber text = false) :
    ((value (.number text)).run.run table).1 = .error (.invalid (.storage (.number text))) := by
  have hv : ¬ (AttributeValue.number text).Storable := by
    rw [storable_number, hfinite]
    exact Bool.false_ne_true
  obtain ⟨fault, hcheck, hrun⟩ := exists_run_value_error h hv
  rw [check, checkNumber, hfinite] at hcheck
  cases hcheck
  rw [hrun]

theorem exists_run_number_iff {table : Aliases} (h : table.Sound) {text : String} :
    (∃ i, ((value (.number text)).run.run table).1 = .ok i) ↔ isFiniteNumber text = true := by
  constructor
  · rintro ⟨i, hi⟩
    refine eq_true_of_ne_false fun hfinite => ?_
    rw [run_number_error h hfinite] at hi
    cases hi
  · intro hfinite
    exact exists_run_value (storable_number.2 hfinite) table

/--
Whatever was asked of the table before, a number gets an alias exactly if its text between blanks
is a numeral that denotes less than the point from which doubles are infinite.
-/
theorem number_verdict (calls : List AliasCall) (text : String) :
    NumberVerdict text ((value (.number text)).run.run (after calls)).1 := by
  have hsound := (proper_after calls).sound
  have hexact : (∃ i, ((value (.number text)).run.run (after calls)).1 = .ok i) ↔
      ∃ s : NumeralSpelling, Text.Padded s.text text.toList ∧ |s.value| < 2 ^ 1024 - 2 ^ 970 := by
    simp only [exists_run_number_iff hsound, isFiniteNumber_iff, NumeralSpelling.abs_value,
      BinaryFormat.limit_double]
  refine ⟨hexact, ?_, ?_, ?_, ?_⟩
  · simp only [exists_run_number_iff hsound, isFiniteNumber_iff, BinaryFormat.round?_isSome_iff]
  · intro s hpadded hzeros
    refine hexact.2 ⟨s, hpadded, ?_⟩
    rw [s.value_eq_zero hzeros, abs_zero, sub_pos]
    exact pow_lt_pow_right₀ one_lt_two (by decide)
  · intro sign word hword hpadded
    rw [exists_run_number_iff hsound, isFiniteNumber_of_isSpecialWord hword hpadded]
    exact Bool.false_ne_true
  · intro e he
    cases hfinite : isFiniteNumber text with
    | false =>
        rw [run_number_error hsound hfinite] at he
        cases he
        rfl
    | true =>
        obtain ⟨i, hi⟩ := (exists_run_number_iff hsound).2 hfinite
        rw [hi] at he
        cases he

/-- Texts next to each other on the two sides of the threshold, with blanks around one of them. -/
example : isFiniteNumber "\u3000-1.797693134862315807e308\t" = true ∧
    isFiniteNumber "+1797693134862315808E290" = false ∧
    isFiniteNumber ".0e99999999999999999999" = true ∧ isFiniteNumber "-Infinity" = false := by
  decide +kernel

end Aliases

end DynamoExpr
