import DynamoExpr.Proofs.Numeral.Digits
import DynamoExpr.Token

/-!
# Texts of tokens

A text determines its tokens.  A number ends before the next token because no token starts with a
digit, and a blank stands alone because no longer token continues as a token after a blank does.
-/

namespace DynamoExpr.Token

def chars (tokens : List Token) : List Char := (texts tokens).toList

theorem chars_cons (t : Token) (rest : List Token) :
    chars (t :: rest) = t.text.toList ++ chars rest := by
  simp [chars, texts, String.toList_join]

/-! ## Numbers -/

@[simp] theorem text_nameAlias (i : Nat) :
    (nameAlias i).text.toList = '#' :: Nat.toDigits 10 i := by
  simp [text]

@[simp] theorem text_valueAlias (i : Nat) :
    (valueAlias i).text.toList = ':' :: Nat.toDigits 10 i := by
  simp [text]

@[simp] theorem text_index (i : Nat) :
    (index i).text.toList = '[' :: (Nat.toDigits 10 i ++ [']']) := by
  simp [text]

/-- Every token starts with a character that is no digit. -/
theorem exists_text_eq_cons (t : Token) :
    ∃ c rest, t.text.toList = c :: rest ∧ c.isDigit = false := by
  cases t with
  | nameAlias i => exact ⟨'#', _, text_nameAlias i, rfl⟩
  | valueAlias i => exact ⟨':', _, text_valueAlias i, rfl⟩
  | index i => exact ⟨'[', _, text_index i, rfl⟩
  | dot => exact ⟨_, _, rfl, rfl⟩
  | comparison op => cases op <;> exact ⟨_, _, rfl, rfl⟩
  | between => exact ⟨_, _, rfl, rfl⟩
  | within => exact ⟨_, _, rfl, rfl⟩
  | connective op => cases op <;> exact ⟨_, _, rfl, rfl⟩
  | not => exact ⟨_, _, rfl, rfl⟩
  | call function => rcases function with _ | (_ | _) | (_ | _ | _) | _ | _ <;> exact ⟨_, _, rfl, rfl⟩
  | opening => exact ⟨_, _, rfl, rfl⟩
  | closing => exact ⟨_, _, rfl, rfl⟩
  | comma => exact ⟨_, _, rfl, rfl⟩
  | clause c => cases c <;> exact ⟨_, _, rfl, rfl⟩
  | arithmetic op => cases op <;> exact ⟨_, _, rfl, rfl⟩
  | space => exact ⟨_, _, rfl, rfl⟩

theorem takeWhile_toDigits (i : Nat) {rest : List Char}
    (h : ∀ c ∈ rest.head?, c.isDigit = false) :
    (Nat.toDigits 10 i ++ rest).takeWhile Char.isDigit = Nat.toDigits 10 i :=
  Numeral.takeWhile_append (fun _ hc => Numeral.isDigit_of_mem_toDigits hc) h

theorem head?_chars {rest : List Token} : ∀ c ∈ (chars rest).head?, c.isDigit = false := by
  intro c hc
  cases rest with
  | nil => cases hc
  | cons t rest =>
      obtain ⟨d, cs, htext, hd⟩ := exists_text_eq_cons t
      rw [chars_cons, htext] at hc
      cases hc
      exact hd

/-! ## The first token -/

def leadingNumber (cs : List Char) : Nat := Nat.ofDigitChars 10 (cs.takeWhile Char.isDigit) 0

/-- The token that starts the characters, by as many of them as tell the tokens apart. -/
def first? : List Char → Option Token
  | '#' :: rest => some (.nameAlias (leadingNumber rest))
  | ':' :: rest => some (.valueAlias (leadingNumber rest))
  | '[' :: rest => some (.index (leadingNumber rest))
  | '.' :: _ => some .dot
  | '(' :: _ => some .opening
  | ')' :: _ => some .closing
  | ',' :: _ => some .comma
  | 'N' :: _ => some .not
  | 'S' :: _ => some (.clause .set)
  | 'R' :: _ => some (.clause .remove)
  | 'A' :: _ => some (.clause .add)
  | 'D' :: _ => some (.clause .delete)
  | 's' :: _ => some (.call .size)
  | 'b' :: _ => some (.call (.test .beginsWith))
  | 'c' :: _ => some (.call (.test .contains))
  | 'l' :: _ => some (.call .listAppend)
  | 'i' :: _ => some (.call .ifNotExists)
  | 'a' :: rest =>
    match rest.drop 9 with
    | 'e' :: _ => some (.call (.presence .attributeExists))
    | 'n' :: _ => some (.call (.presence .attributeNotExists))
    | _ => some (.call (.test .attributeType))
  | ' ' :: '=' :: _ => some (.comparison .eq)
  | ' ' :: '<' :: '>' :: _ => some (.comparison .ne)
  | ' ' :: '<' :: '=' :: _ => some (.comparison .le)
  | ' ' :: '<' :: _ => some (.comparison .lt)
  | ' ' :: '>' :: '=' :: _ => some (.comparison .ge)
  | ' ' :: '>' :: _ => some (.comparison .gt)
  | ' ' :: 'B' :: _ => some .between
  | ' ' :: 'I' :: _ => some .within
  | ' ' :: 'A' :: 'N' :: _ => some (.connective .and)
  | ' ' :: 'O' :: _ => some (.connective .or)
  | ' ' :: '+' :: _ => some (.arithmetic .plus)
  | ' ' :: '-' :: _ => some (.arithmetic .minus)
  | ' ' :: _ => some .space
  | _ => none

theorem leadingNumber_toDigits (i : Nat) {rest : List Char}
    (h : ∀ c ∈ rest.head?, c.isDigit = false) :
    leadingNumber (Nat.toDigits 10 i ++ rest) = i := by
  rw [leadingNumber, takeWhile_toDigits i h, Nat.ofDigitChars_ten_toDigits]

/-- A blank is no part of the token after it. -/
theorem first?_space (rest : List Token) : first? (' ' :: chars rest) = some .space := by
  cases rest with
  | nil => rfl
  | cons t rest =>
      rw [chars_cons]
      cases t with
      | nameAlias i => rw [text_nameAlias]; rfl
      | valueAlias i => rw [text_valueAlias]; rfl
      | index i => rw [text_index]; rfl
      | comparison op => cases op <;> rfl
      | connective op => cases op <;> rfl
      | call function => rcases function with _ | (_ | _) | (_ | _ | _) | _ | _ <;> rfl
      | clause c => cases c <;> rfl
      | arithmetic op => cases op <;> rfl
      | _ => rfl

theorem first?_text (t : Token) (rest : List Token) :
    first? (t.text.toList ++ chars rest) = some t := by
  cases t with
  | nameAlias i =>
      rw [text_nameAlias]
      exact congrArg (fun n => some (nameAlias n)) (leadingNumber_toDigits i head?_chars)
  | valueAlias i =>
      rw [text_valueAlias]
      exact congrArg (fun n => some (valueAlias n)) (leadingNumber_toDigits i head?_chars)
  | index i =>
      rw [text_index, List.cons_append, List.append_assoc]
      exact congrArg (fun n => some (index n)) (leadingNumber_toDigits i (by simp))
  | comparison op => cases op <;> rfl
  | connective op => cases op <;> rfl
  | call function => rcases function with _ | (_ | _) | (_ | _ | _) | _ | _ <;> rfl
  | clause c => cases c <;> rfl
  | arithmetic op => cases op <;> rfl
  | space => exact first?_space rest
  | _ => rfl

/-- No two runs of tokens have the same text. -/
theorem texts_injective {tokens other : List Token} (h : texts tokens = texts other) :
    tokens = other := by
  have hchars : chars tokens = chars other := congrArg String.toList h
  clear h
  induction tokens generalizing other with
  | nil =>
      cases other with
      | nil => rfl
      | cons t rest =>
          obtain ⟨c, cs, htext, -⟩ := exists_text_eq_cons t
          rw [chars_cons, htext] at hchars
          cases hchars
  | cons t rest ih =>
      cases other with
      | nil =>
          obtain ⟨c, cs, htext, -⟩ := exists_text_eq_cons t
          rw [chars_cons, htext] at hchars
          cases hchars
      | cons u others =>
          rw [chars_cons, chars_cons] at hchars
          have hfirst : some t = some u := by
            rw [← first?_text t rest, hchars, first?_text]
          cases hfirst
          rw [ih (List.append_cancel_left hchars)]

end DynamoExpr.Token
