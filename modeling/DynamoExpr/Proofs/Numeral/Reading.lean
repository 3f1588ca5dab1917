import DynamoExpr.Proofs.Numeral.Grammar

/-!
# Reading numerals

The texts that are read as numerals are those of spellings, and no others.  Blanks around a text
without blanks are all that trimming removes.
-/

namespace DynamoExpr.Text

/-- The text is the body with blanks at its ends. -/
def Padded (body text : List Char) : Prop :=
  ∃ lead trail, (∀ c ∈ lead, isBlank c = true) ∧ (∀ c ∈ trail, isBlank c = true) ∧
    lead ++ (body ++ trail) = text

theorem padded_trim (text : List Char) : Padded (trim text) text := by
  have hlead := List.takeWhile_append_dropWhile (p := isBlank) (l := text)
  have htrail := List.takeWhile_append_dropWhile (p := isBlank)
    (l := (text.dropWhile isBlank).reverse)
  refine ⟨text.takeWhile isBlank, ((text.dropWhile isBlank).reverse.takeWhile isBlank).reverse,
    List.all_eq_true.1 List.all_takeWhile, ?_, ?_⟩
  · intro c hc
    exact List.all_eq_true.1 List.all_takeWhile c (List.mem_reverse.1 hc)
  · rw [trim, ← List.reverse_append, htrail, List.reverse_reverse, hlead]

theorem dropWhile_blanks {blanks rest : List Char} (hblanks : ∀ c ∈ blanks, isBlank c = true)
    (hrest : ∀ c ∈ rest.head?, isBlank c = false) :
    (blanks ++ rest).dropWhile isBlank = rest := by
  rw [List.dropWhile_append_of_pos hblanks]
  cases rest with
  | nil => rfl
  | cons c rest => exact List.dropWhile_cons_of_neg (by simp [hrest c rfl])

/-- Around a text without blanks, trimming takes off the blanks and nothing else. -/
theorem trim_eq_of_padded {body text : List Char} (h : Padded body text)
    (hbody : ∀ c ∈ body, isBlank c = false) : trim text = body := by
  obtain ⟨lead, trail, hlead, htrail, rfl⟩ := h
  rw [trim]
  cases body with
  | nil =>
      have hall : ∀ c ∈ lead ++ trail, isBlank c = true := List.forall_mem_append.2 ⟨hlead, htrail⟩
      have hnothing := @dropWhile_blanks _ [] hall (by simp)
      rw [List.append_nil] at hnothing
      rw [List.nil_append, hnothing]
      rfl
  | cons c body =>
      have hend : ∀ d ∈ (c :: body).reverse.head?, isBlank d = false :=
        fun d hd => hbody d (List.mem_reverse.1 (List.mem_of_head? hd))
      have hfirst := hbody c List.mem_cons_self
      rw [dropWhile_blanks hlead (by simp [hfirst]), List.reverse_append,
        dropWhile_blanks (fun d hd => htrail d (List.mem_reverse.1 hd)) hend, List.reverse_reverse]

end DynamoExpr.Text

namespace DynamoExpr.Numeral

theorem exists_sign (text : List Char) : ∃ sign : SignMark, sign.text ++ dropSign text = text := by
  cases text with
  | nil => exact ⟨.none, rfl⟩
  | cons c rest =>
      rw [dropSign]
      by_cases hplus : c = '+'
      · exact ⟨.plus, by simp [SignMark.text, hplus]⟩
      · by_cases hminus : c = '-'
        · exact ⟨.minus, by simp [SignMark.text, hminus]⟩
        · exact ⟨.none, by simp [SignMark.text, hplus, hminus]⟩

/-- What is read as an exponent is nothing, or spelled as one. -/
theorem exists_exponent_of_readExponent {text : List Char} {power : Int}
    (h : readExponent text = some power) :
    ∃ exponent : Option ExponentSpelling, exponent.elim [] ExponentSpelling.text = text := by
  cases text with
  | nil => exact ⟨none, rfl⟩
  | cons mark rest =>
      rw [readExponent] at h
      by_cases hspelled : (mark = 'e' ∨ mark = 'E') ∧ dropSign rest ≠ [] ∧
          (dropSign rest).all Char.isDigit = true
      · obtain ⟨hmark, hne, hall⟩ := hspelled
        obtain ⟨sign, hsign⟩ := exists_sign rest
        refine ⟨some ⟨mark, sign, dropSign rest, hmark, hne, List.all_eq_true.1 hall⟩, ?_⟩
        rw [Option.elim_some, ExponentSpelling.text, hsign]
      · rw [if_neg hspelled] at h
        cases h

namespace NumeralSpelling

theorem exponentText_eq (s : NumeralSpelling) :
    s.exponentText = s.exponent.elim [] ExponentSpelling.text := by
  rw [exponentText]
  cases s.exponent <;> rfl

/-- What is read has a spelling. -/
theorem exists_of_read? {text : List Char} {d : Decimal} (h : Decimal.read? text = some d) :
    ∃ s : NumeralSpelling, s.text = text := by
  obtain ⟨sign, hsign⟩ := exists_sign text
  have hbody := List.takeWhile_append_dropWhile (p := Char.isDigit) (l := dropSign text)
  have hdigits : ∀ cs : List Char, ∀ c ∈ cs.takeWhile Char.isDigit, c.isDigit = true :=
    fun cs => List.all_eq_true.1 List.all_takeWhile
  rw [Decimal.read?] at h
  by_cases hpoint : ((dropSign text).dropWhile Char.isDigit).head? = some '.'
  · obtain ⟨tail, htail⟩ := List.head?_eq_some_iff.1 hpoint
    have hfraction := List.takeWhile_append_dropWhile (p := Char.isDigit) (l := tail)
    simp only [htail, List.head?_cons, if_true, List.tail_cons] at h
    split at h
    case isTrue => cases h
    case isFalse hne =>
      obtain ⟨power, hpower, -⟩ := Option.map_eq_some_iff.1 h
      obtain ⟨exponent, hexponent⟩ := exists_exponent_of_readExponent hpower
      refine ⟨⟨sign, _, some (tail.takeWhile Char.isDigit), exponent, hne,
        List.forall_mem_append.2 ⟨hdigits _, hdigits _⟩⟩, ?_⟩
      calc sign.text ++ ((dropSign text).takeWhile Char.isDigit ++
            (('.' :: tail.takeWhile Char.isDigit) ++ _))
        _ = sign.text ++ ((dropSign text).takeWhile Char.isDigit ++ '.' :: tail) := by
          rw [exponentText_eq, hexponent, List.cons_append, hfraction]
        _ = text := by rw [← htail, hbody, hsign]
  · simp only [if_neg hpoint, List.append_nil] at h
    split at h
    case isTrue => cases h
    case isFalse hne =>
      obtain ⟨power, hpower, -⟩ := Option.map_eq_some_iff.1 h
      obtain ⟨exponent, hexponent⟩ := exists_exponent_of_readExponent hpower
      refine ⟨⟨sign, (dropSign text).takeWhile Char.isDigit, none, exponent, ?_, ?_⟩, ?_⟩
      · rw [Option.getD_none, List.append_nil]
        exact hne
      · rw [Option.getD_none, List.append_nil]
        exact hdigits _
      · calc sign.text ++ ((dropSign text).takeWhile Char.isDigit ++ ([] ++ _))
          _ = sign.text ++ ((dropSign text).takeWhile Char.isDigit ++
              (dropSign text).dropWhile Char.isDigit) := by
            rw [exponentText_eq, hexponent, List.nil_append]
          _ = text := by rw [hbody, hsign]

/-- The texts that are read are those of spellings, and each is read as what it denotes. -/
theorem read?_eq_some_iff {text : List Char} {d : Decimal} :
    Decimal.read? text = some d ↔ ∃ s : NumeralSpelling, s.text = text ∧ s.magnitude = d := by
  constructor
  · intro h
    obtain ⟨s, rfl⟩ := exists_of_read? h
    rw [s.read?_text, Option.some.injEq] at h
    exact ⟨s, rfl, h⟩
  · rintro ⟨s, rfl, rfl⟩
    exact s.read?_text

end NumeralSpelling

end DynamoExpr.Numeral
