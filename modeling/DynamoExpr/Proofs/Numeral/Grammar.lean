import Mathlib.Data.List.Basic
import DynamoExpr.Proofs.Numeral.Digits
import DynamoExpr.Text

/-!
# The grammar of numerals

Numerals as spellings: an optional sign, digits with an optional point, and an optional exponent.
The text of a spelling is read as the decimal of the spelling, and has no blank to be trimmed.
-/

namespace DynamoExpr.Numeral

inductive SignMark where
  | none
  | plus
  | minus
deriving DecidableEq

def SignMark.text : SignMark → List Char
  | .none => []
  | .plus => ['+']
  | .minus => ['-']

structure ExponentSpelling where
  mark : Char
  sign : SignMark
  digits : List Char
  marked : mark = 'e' ∨ mark = 'E'
  nonempty : digits ≠ []
  decimal : ∀ c ∈ digits, c.isDigit = true

namespace ExponentSpelling

def text (e : ExponentSpelling) : List Char := e.mark :: (e.sign.text ++ e.digits)

def value (e : ExponentSpelling) : Int :=
  if e.sign = .minus then -(digitsValue e.digits : Int) else digitsValue e.digits

end ExponentSpelling

/-- A numeral.  Without a point there is no fraction; with one the fraction may be empty. -/
structure NumeralSpelling where
  sign : SignMark
  whole : List Char
  fraction : Option (List Char)
  exponent : Option ExponentSpelling
  nonempty : whole ++ fraction.getD [] ≠ []
  decimal : ∀ c ∈ whole ++ fraction.getD [], c.isDigit = true

namespace NumeralSpelling

def fractionText (s : NumeralSpelling) : List Char :=
  match s.fraction with
  | none => []
  | some fraction => '.' :: fraction

def exponentText (s : NumeralSpelling) : List Char :=
  match s.exponent with
  | none => []
  | some exponent => exponent.text

def text (s : NumeralSpelling) : List Char :=
  s.sign.text ++ (s.whole ++ (s.fractionText ++ s.exponentText))

def magnitude (s : NumeralSpelling) : Decimal :=
  ⟨digitsValue (s.whole ++ s.fraction.getD []),
    s.exponent.elim 0 ExponentSpelling.value - (s.fraction.getD []).length⟩

end NumeralSpelling

/-! ## Reading -/

/-- A sign ends before a character that is none. -/
theorem dropSign_append (sign : SignMark) {rest : List Char}
    (h : ∀ c ∈ rest.head?, c ≠ '+' ∧ c ≠ '-') : dropSign (sign.text ++ rest) = rest := by
  cases sign with
  | none =>
      cases rest with
      | nil => rfl
      | cons c rest => simp [SignMark.text, dropSign, h c rfl]
  | plus => rfl
  | minus => rfl

theorem exists_head?_digits {digits : List Char} (hne : digits ≠ [])
    (hdigits : ∀ c ∈ digits, c.isDigit = true) : ∃ c, digits.head? = some c ∧ c.isDigit = true := by
  cases digits with
  | nil => exact absurd rfl hne
  | cons c digits => exact ⟨c, rfl, hdigits c List.mem_cons_self⟩

theorem readExponent_text (e : ExponentSpelling) : readExponent e.text = some e.value := by
  obtain ⟨c, hhead, hc⟩ := exists_head?_digits e.nonempty e.decimal
  have hdrop : dropSign (e.sign.text ++ e.digits) = e.digits := by
    apply dropSign_append
    rw [hhead]
    rintro _ ⟨⟩
    exact ⟨ne_of_isDigit hc rfl, ne_of_isDigit hc rfl⟩
  have hsign : (e.sign.text ++ e.digits).head? = some '-' ↔ e.sign = .minus := by
    cases e.sign with
    | none => simpa [SignMark.text, hhead] using ne_of_isDigit hc rfl
    | plus => simp [SignMark.text]
    | minus => simp [SignMark.text]
  have hall : e.digits.all Char.isDigit = true := List.all_eq_true.2 e.decimal
  rw [ExponentSpelling.text, readExponent, ExponentSpelling.value]
  simp only [hdrop, if_pos (And.intro e.marked (And.intro e.nonempty hall)), hsign]
  split <;> rfl

namespace NumeralSpelling

theorem readExponent_exponentText (s : NumeralSpelling) :
    readExponent s.exponentText = some (s.exponent.elim 0 ExponentSpelling.value) := by
  rw [exponentText]
  cases s.exponent with
  | none => rfl
  | some e => exact readExponent_text e

/-- What stands after digits starts with a mark that is no digit. -/
theorem head?_exponentText (s : NumeralSpelling) :
    ∀ c ∈ s.exponentText.head?, c = 'e' ∨ c = 'E' := by
  rw [exponentText]
  cases s.exponent with
  | none => simp
  | some e =>
      rintro _ ⟨⟩
      exact e.marked

theorem head?_exponentText_isDigit (s : NumeralSpelling) :
    ∀ c ∈ s.exponentText.head?, c.isDigit = false := by
  intro c hc
  rcases s.head?_exponentText c hc with rfl | rfl <;> rfl

/-- No sign follows the sign. -/
theorem head?_unsigned (s : NumeralSpelling) :
    ∀ c ∈ (s.whole ++ (s.fractionText ++ s.exponentText)).head?, c ≠ '+' ∧ c ≠ '-' := by
  have hdigit : ∀ {c : Char}, c.isDigit = true → c ≠ '+' ∧ c ≠ '-' :=
    fun h => ⟨ne_of_isDigit h rfl, ne_of_isDigit h rfl⟩
  intro c hc
  cases hwhole : s.whole with
  | cons d whole =>
      rw [hwhole] at hc
      cases hc
      refine hdigit (s.decimal c (List.mem_append_left _ ?_))
      rw [hwhole]
      exact List.mem_cons_self
  | nil =>
      cases hfraction : s.fraction with
      | none => exact absurd (by rw [hwhole, hfraction]; rfl) s.nonempty
      | some fraction =>
          rw [hwhole, fractionText, hfraction] at hc
          cases hc
          decide

/-- The text of a spelling is read as the magnitude of the spelling. -/
theorem read?_text (s : NumeralSpelling) : Decimal.read? s.text = some s.magnitude := by
  have hwhole : ∀ c ∈ s.whole, c.isDigit = true :=
    fun c hc => s.decimal c (List.mem_append_left _ hc)
  have hnonempty := s.nonempty
  have hmark := s.head?_exponentText
  have hexponent := s.head?_exponentText_isDigit
  rw [Decimal.read?, text, dropSign_append s.sign s.head?_unsigned, magnitude]
  rw [fractionText]
  cases hfraction : s.fraction with
  | none =>
      rw [hfraction, Option.getD_none] at hnonempty
      have hpoint : s.exponentText.head? ≠ some '.' := by
        intro hhead
        rcases hmark '.' hhead with h | h <;> cases h
      simp only [List.nil_append, takeWhile_append hwhole hexponent,
        dropWhile_append hwhole hexponent, if_neg hpoint]
      rw [if_neg hnonempty, readExponent_exponentText]
      rfl
  | some fraction =>
      rw [hfraction, Option.getD_some] at hnonempty
      have hdigits : ∀ c ∈ fraction, c.isDigit = true := by
        intro c hc
        refine s.decimal c (List.mem_append_right _ ?_)
        rw [hfraction]
        exact hc
      have hpoint : ∀ c ∈ (('.' :: fraction) ++ s.exponentText).head?, c.isDigit = false := by
        rintro _ ⟨⟩
        rfl
      simp only [takeWhile_append hwhole hpoint, dropWhile_append hwhole hpoint]
      simp only [List.cons_append, List.head?_cons, List.tail_cons, if_true,
        takeWhile_append hdigits hexponent, dropWhile_append hdigits hexponent]
      rw [if_neg hnonempty, readExponent_exponentText]
      rfl

/-! ## Blanks -/

theorem isBlank_of_isDigit {c : Char} (h : c.isDigit = true) : Text.isBlank c = false := by
  have hc := Char.isDigit_iff_toNat.1 h
  have hzero : '0'.toNat = 48 := rfl
  have hnine : '9'.toNat = 57 := rfl
  rw [Text.isBlank]
  grind

theorem isBlank_of_mem_sign {sign : SignMark} {c : Char} (h : c ∈ sign.text) :
    Text.isBlank c = false := by
  cases sign with
  | none => cases h
  | plus =>
      rw [List.mem_singleton.1 h]
      decide
  | minus =>
      rw [List.mem_singleton.1 h]
      decide

theorem isBlank_of_mem_text (s : NumeralSpelling) {c : Char} (h : c ∈ s.text) :
    Text.isBlank c = false := by
  have hdecimal : ∀ d ∈ s.whole ++ s.fraction.getD [], Text.isBlank d = false :=
    fun d hd => isBlank_of_isDigit (s.decimal d hd)
  simp only [text, List.mem_append] at h
  rcases h with h | h | h | h
  · exact isBlank_of_mem_sign h
  · exact hdecimal c (List.mem_append_left _ h)
  · rw [fractionText] at h
    cases hfraction : s.fraction with
    | none =>
        rw [hfraction] at h
        cases h
    | some fraction =>
        rw [hfraction] at h hdecimal
        rcases List.mem_cons.1 h with rfl | h
        · decide
        · exact hdecimal c (List.mem_append_right _ h)
  · rw [exponentText] at h
    cases hexponent : s.exponent with
    | none =>
        rw [hexponent] at h
        cases h
    | some e =>
        rw [hexponent] at h
        simp only [ExponentSpelling.text, List.mem_cons, List.mem_append] at h
        rcases h with rfl | h | h
        · rcases e.marked with hmark | hmark <;> rw [hmark] <;> decide
        · exact isBlank_of_mem_sign h
        · exact isBlank_of_isDigit (e.decimal c h)

theorem trim_text (s : NumeralSpelling) : Text.trim s.text = s.text := by
  have hdrop : ∀ {cs : List Char}, (∀ c ∈ cs, Text.isBlank c = false) →
      cs.dropWhile Text.isBlank = cs := by
    intro cs hcs
    cases cs with
    | nil => rfl
    | cons c cs => exact List.dropWhile_cons_of_neg (by simp [hcs c List.mem_cons_self])
  rw [Text.trim, hdrop fun _ => s.isBlank_of_mem_text, hdrop, List.reverse_reverse]
  intro c hc
  exact s.isBlank_of_mem_text (List.mem_reverse.1 hc)

end NumeralSpelling

end DynamoExpr.Numeral
