import DynamoExpr.Token

/-!
# Where a part ends

The tokens of a part are told from those that follow it by what may follow.  A path, for one, ends
where neither a point nor an index comes next.  Parts that are determined in this way make up
separated lists that are.
-/

namespace DynamoExpr

/-- What follows is nothing, or starts with a token that is allowed. -/
def FollowedBy (allowed : Token → Bool) (rest : List Token) : Prop :=
  ∀ t ∈ rest.head?, allowed t = true

/-- Equal tokens with allowed rests come from equal parts, and the rests are equal. -/
def Determined {α : Type} (tokens : α → List Token) (allowed : Token → Bool) : Prop :=
  ∀ {a b : α} {r s : List Token}, FollowedBy allowed r → FollowedBy allowed s →
    tokens a ++ r = tokens b ++ s → a = b ∧ r = s

namespace FollowedBy

variable {allowed more : Token → Bool} {rest : List Token}

theorem nil : FollowedBy allowed [] := fun _ h => by cases h

theorem cons {t : Token} (h : allowed t = true) : FollowedBy allowed (t :: rest) := by
  intro u hu
  cases hu
  exact h

theorem head {t : Token} (h : FollowedBy allowed (t :: rest)) : allowed t = true := h t rfl

theorem mono (h : FollowedBy allowed rest) (hmore : ∀ t, allowed t = true → more t = true) :
    FollowedBy more rest := fun t ht => hmore t (h t ht)

end FollowedBy

/-- Fewer rests are allowed. -/
theorem Determined.mono {α : Type} {tokens : α → List Token} {allowed fewer : Token → Bool}
    (h : Determined tokens allowed) (hfewer : ∀ t, fewer t = true → allowed t = true) :
    Determined tokens fewer :=
  fun hr hs heq => h (hr.mono hfewer) (hs.mono hfewer) heq

/-! ## Paths and operands -/

def Token.endsPath : Token → Bool
  | .dot => false
  | .index _ => false
  | _ => true

theorem PathStep.tokens_determined {steps others : List (PathStep Nat)} {r s : List Token}
    (hr : FollowedBy Token.endsPath r) (hs : FollowedBy Token.endsPath s)
    (h : steps.flatMap tokens ++ r = others.flatMap tokens ++ s) : steps = others ∧ r = s := by
  induction steps generalizing others with
  | nil =>
      cases others with
      | nil => exact ⟨rfl, h⟩
      | cons step rest =>
          rcases step with n | i
          · subst h
            cases hr.head
          · subst h
            cases hr.head
  | cons step rest ih =>
      cases others with
      | nil =>
          rcases step with n | i
          · subst h
            cases hs.head
          · subst h
            cases hs.head
      | cons other more =>
          rcases step with n | i <;> rcases other with m | j
          · simp only [List.flatMap_cons, tokens, List.cons_append, List.nil_append,
              List.cons.injEq, Token.nameAlias.injEq, true_and] at h
            obtain ⟨rfl, rfl⟩ := ih h.2
            exact ⟨by rw [h.1], rfl⟩
          · cases h
          · cases h
          · simp only [List.flatMap_cons, tokens, List.cons_append, List.nil_append,
              List.cons.injEq, Token.index.injEq] at h
            obtain ⟨rfl, rfl⟩ := ih h.2
            exact ⟨by rw [h.1], rfl⟩

theorem Path.tokens_determined : Determined Path.tokens Token.endsPath := by
  intro a b r s hr hs h
  rcases a with ⟨head, tail⟩
  rcases b with ⟨other, more⟩
  simp only [tokens, List.cons_append, List.cons.injEq, Token.nameAlias.injEq] at h
  obtain ⟨rfl, rfl⟩ := PathStep.tokens_determined hr hs h.2
  exact ⟨by rw [h.1], rfl⟩

theorem Operand.tokens_determined : Determined Operand.tokens Token.endsPath := by
  intro a b r s hr hs h
  cases a with
  | name p =>
      cases b with
      | name q =>
          obtain ⟨rfl, rfl⟩ := Path.tokens_determined hr hs h
          exact ⟨rfl, rfl⟩
      | value n => cases h
      | size q => cases h
  | value n =>
      cases b with
      | name q => cases h
      | value m =>
          cases h
          exact ⟨rfl, rfl⟩
      | size q => cases h
  | size p =>
      cases b with
      | name q => cases h
      | value n => cases h
      | size q =>
          simp only [tokens, List.cons_append, List.append_assoc, List.cons.injEq, true_and,
            List.nil_append] at h
          obtain ⟨rfl, hrest⟩ := Path.tokens_determined (.cons rfl) (.cons rfl) h
          cases hrest
          exact ⟨rfl, rfl⟩

/-! ## Separated lists -/

/-- The tokens of a first part and of more, each of these after a comma. -/
def Token.list {α : Type} (tokens : α → List Token) (first : α) (rest : List α) : List Token :=
  Token.separate .comma ((first :: rest).map tokens)

theorem Token.list_cons {α : Type} (tokens : α → List Token) (first second : α)
    (rest : List α) :
    Token.list tokens first (second :: rest) =
      tokens first ++ .comma :: Token.list tokens second rest := rfl

def Token.endsList (allowed : Token → Bool) (t : Token) : Bool := allowed t && t != .comma

theorem Token.list_determined {α : Type} {tokens : α → List Token} {allowed : Token → Bool}
    (h : Determined tokens allowed) (hcomma : allowed .comma = true) :
    Determined (fun parts : α × List α => Token.list tokens parts.1 parts.2)
      (Token.endsList allowed) := by
  have hends : ∀ t, Token.endsList allowed t = true → allowed t = true ∧ t ≠ .comma := by
    intro t ht
    simpa [Token.endsList] using ht
  intro a b r s hr hs heq
  rcases a with ⟨first, rest⟩
  rcases b with ⟨other, more⟩
  have hr' := hr.mono fun t ht => (hends t ht).1
  have hs' := hs.mono fun t ht => (hends t ht).1
  induction rest generalizing first other more with
  | nil =>
      cases more with
      | nil =>
          obtain ⟨rfl, rfl⟩ := h hr' hs' heq
          exact ⟨rfl, rfl⟩
      | cons second more =>
          simp only [Token.list_cons, List.append_assoc, List.cons_append] at heq
          obtain ⟨-, hrest⟩ := h hr' (.cons hcomma) heq
          subst hrest
          exact absurd rfl (hends _ hr.head).2
  | cons second rest ih =>
      cases more with
      | nil =>
          simp only [Token.list_cons, List.append_assoc, List.cons_append] at heq
          obtain ⟨-, hrest⟩ := h (.cons hcomma) hs' heq
          subst hrest
          exact absurd rfl (hends _ hs.head).2
      | cons third more =>
          simp only [Token.list_cons, List.append_assoc, List.cons_append] at heq
          obtain ⟨rfl, hrest⟩ := h (.cons hcomma) (.cons hcomma) heq
          obtain ⟨hpair, rfl⟩ := ih second third more (List.cons.inj hrest).2
          cases hpair
          exact ⟨rfl, rfl⟩

end DynamoExpr
