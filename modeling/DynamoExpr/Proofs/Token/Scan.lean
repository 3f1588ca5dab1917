import DynamoExpr.Proofs.Token.Text

/-!
# Aliases in a text

An alias in a text is its mark, `#` or `:`, with the longest run of digits behind it.  The aliases
found in the text of tokens are those among the tokens, since no other token has a mark in it.
-/

namespace DynamoExpr

inductive AliasKind where
  | name
  | value
deriving DecidableEq

def AliasKind.mark : AliasKind → Char
  | .name => '#'
  | .value => ':'

def AliasKind.text (kind : AliasKind) (i : Nat) : String := kind.mark.toString ++ toString i

/-- The aliases of a kind in a text, from left to right. -/
def aliasTokens (kind : AliasKind) : List Char → List String
  | [] => []
  | c :: rest =>
    if c = kind.mark then
      String.ofList (c :: rest.takeWhile Char.isDigit) :: aliasTokens kind rest
    else aliasTokens kind rest

theorem AliasKind.text_toList (kind : AliasKind) (i : Nat) :
    (kind.text i).toList = kind.mark :: Nat.toDigits 10 i := by
  simp [text, Char.toString]

theorem AliasKind.text_injective {kind : AliasKind} {i j : Nat} (h : kind.text i = kind.text j) :
    i = j := by
  have hdigits := congrArg String.toList h
  rw [text_toList, text_toList, List.cons.injEq] at hdigits
  rw [← @Nat.ofDigitChars_ten_toDigits i, hdigits.2, Nat.ofDigitChars_ten_toDigits]

def Token.number? (kind : AliasKind) (t : Token) : Option Nat :=
  match t, kind with
  | .nameAlias i, .name => some i
  | .valueAlias i, .value => some i
  | _, _ => none

theorem aliasTokens_append_of_not_mem {kind : AliasKind} {cs : List Char}
    (h : kind.mark ∉ cs) (rest : List Char) :
    aliasTokens kind (cs ++ rest) = aliasTokens kind rest := by
  induction cs with
  | nil => rfl
  | cons c cs ih =>
      have hc : c ≠ kind.mark := fun heq => h (by simp [heq])
      rw [List.cons_append, aliasTokens, if_neg hc]
      exact ih fun hmem => h (List.mem_cons_of_mem c hmem)

theorem mark_not_mem_toDigits (kind : AliasKind) (i : Nat) :
    kind.mark ∉ Nat.toDigits 10 i := by
  cases kind with
  | name => exact Numeral.not_mem_toDigits rfl i
  | value => exact Numeral.not_mem_toDigits rfl i

theorem aliasTokens_alias (kind : AliasKind) (i : Nat) {rest : List Char}
    (h : ∀ c ∈ rest.head?, c.isDigit = false) :
    aliasTokens kind ((kind.text i).toList ++ rest) = kind.text i :: aliasTokens kind rest := by
  rw [AliasKind.text_toList, List.cons_append, aliasTokens, if_pos rfl, Token.takeWhile_toDigits i h,
    aliasTokens_append_of_not_mem (mark_not_mem_toDigits kind i), ← AliasKind.text_toList,
    String.ofList_toList]

/-- No token but an alias of the kind has the mark in it. -/
theorem mark_not_mem_text {kind : AliasKind} {t : Token} (h : t.number? kind = none) :
    kind.mark ∉ t.text.toList := by
  cases t with
  | nameAlias i =>
      cases kind with
      | name => cases h
      | value => simpa using ⟨by decide, mark_not_mem_toDigits .value i⟩
  | valueAlias i =>
      cases kind with
      | name => simpa using ⟨by decide, mark_not_mem_toDigits .name i⟩
      | value => cases h
  | index i =>
      have hdigits := mark_not_mem_toDigits kind i
      cases kind <;> simpa using ⟨by decide, hdigits, by decide⟩
  | comparison op => cases kind <;> cases op <;> decide
  | connective op => cases kind <;> cases op <;> decide
  | call function =>
      cases kind <;> rcases function with _ | (_ | _) | (_ | _ | _) | _ | _ <;> decide
  | clause c => cases kind <;> cases c <;> decide
  | arithmetic op => cases kind <;> cases op <;> decide
  | _ => cases kind <;> decide

theorem text_eq_of_number? {kind : AliasKind} {t : Token} {i : Nat}
    (h : t.number? kind = some i) : t.text = kind.text i := by
  cases t with
  | nameAlias j =>
      cases kind with
      | name =>
          cases h
          rfl
      | value => cases h
  | valueAlias j =>
      cases kind with
      | name => cases h
      | value =>
          cases h
          rfl
  | _ => cases kind <;> cases h

/-- What the scan finds in a text are the aliases among its tokens. -/
theorem aliasTokens_chars (kind : AliasKind) (tokens : List Token) :
    aliasTokens kind (Token.chars tokens) =
      (tokens.filterMap (Token.number? kind)).map kind.text := by
  induction tokens with
  | nil => rfl
  | cons t rest ih =>
      rw [Token.chars_cons]
      cases hnumber : t.number? kind with
      | none =>
          rw [aliasTokens_append_of_not_mem (mark_not_mem_text hnumber), ih,
            List.filterMap_cons_none hnumber]
      | some i =>
          rw [text_eq_of_number? hnumber, aliasTokens_alias kind i Token.head?_chars, ih,
            List.filterMap_cons_some hnumber, List.map_cons]

end DynamoExpr
