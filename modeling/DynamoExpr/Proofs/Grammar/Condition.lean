import DynamoExpr.Proofs.Alias.Dictionary
import DynamoExpr.Proofs.Grammar.Operand

/-!
# The grammar of conditions

NOT binds tighter than AND, and AND tighter than OR.  The derivation trees are given with the
texts that they derive, and no text has two of them.
-/

namespace DynamoExpr.Grammar

abbrev AliasOperand := Operand (Path Nat) Nat

inductive TestFunction where
  | presence (function : Presence)
  | test (function : PathTest)

def TestFunction.name : TestFunction → FunctionName
  | .presence function => .presence function
  | .test function => .test function

inductive Test where
  | compare (op : Comparison) (right : AliasOperand)
  | between (low high : AliasOperand)
  | within (first : AliasOperand) (rest : List AliasOperand)

mutual

inductive Disjunction where
  | last (only : Conjunction)
  | or (first : Conjunction) (rest : Disjunction)

inductive Conjunction where
  | last (only : Factor)
  | and (first : Factor) (rest : Conjunction)

inductive Factor where
  | not (inner : Disjunction)
  | group (inner : Disjunction)
  | operand (subject : AliasOperand) (test : Test)
  | call (function : TestFunction) (first : AliasOperand) (rest : List AliasOperand)

end

/-! ## Texts -/

def operandList (first : AliasOperand) (rest : List AliasOperand) : String :=
  ", ".intercalate ((first :: rest).map Operand.text)

def Test.text : Test → String
  | .compare op right => " " ++ op.sign ++ " " ++ right.text
  | .between low high => " BETWEEN " ++ low.text ++ " AND " ++ high.text
  | .within first rest => " IN (" ++ operandList first rest ++ ")"

mutual

def Disjunction.text : Disjunction → String
  | .last only => only.text
  | .or first rest => first.text ++ " OR " ++ rest.text

def Conjunction.text : Conjunction → String
  | .last only => only.text
  | .and first rest => first.text ++ " AND " ++ rest.text

def Factor.text : Factor → String
  | .not inner => "NOT (" ++ inner.text ++ ")"
  | .group inner => "(" ++ inner.text ++ ")"
  | .operand subject test => subject.text ++ test.text
  | .call function first rest => function.name.text ++ "(" ++ operandList first rest ++ ")"

end

/-! ## The conditions that trees stand for -/

def Test.condition? (dictionary : Dictionary) (subject : PlainOperand) :
    Test → Option PlainCondition
  | .compare op right => do
    let right ← dictionary.operand? right
    return .compare op subject right
  | .between low high => do
    let low ← dictionary.operand? low
    let high ← dictionary.operand? high
    return .between subject low high
  | .within first rest => do
    let candidates ← (first :: rest).mapM dictionary.operand?
    return .within subject candidates

/-- A call has a path, and a literal where the function takes one. -/
def TestFunction.condition? (dictionary : Dictionary) :
    TestFunction → AliasOperand → List AliasOperand → Option PlainCondition
  | .presence function, .name path, [] => do
    let path ← dictionary.path? path
    return .presence function path
  | .test function, .name path, [.value literal] => do
    let path ← dictionary.path? path
    let value ← dictionary.value? literal
    return .test function path value
  | _, _, _ => none

mutual

/-- The condition with the entries of the dictionary for the aliases. -/
def Disjunction.condition? (dictionary : Dictionary) : Disjunction → Option PlainCondition
  | .last only => only.condition? dictionary
  | .or first rest => do
    let left ← first.condition? dictionary
    let right ← rest.condition? dictionary
    return .join .or left right

def Conjunction.condition? (dictionary : Dictionary) : Conjunction → Option PlainCondition
  | .last only => only.condition? dictionary
  | .and first rest => do
    let left ← first.condition? dictionary
    let right ← rest.condition? dictionary
    return .join .and left right

def Factor.condition? (dictionary : Dictionary) : Factor → Option PlainCondition
  | .not inner => do
    let inner ← inner.condition? dictionary
    return .not inner
  | .group inner => inner.condition? dictionary
  | .operand subject test => do
    let subject ← dictionary.operand? subject
    test.condition? dictionary subject
  | .call function first rest => function.condition? dictionary first rest

end

/-! ## Tokens -/

def Test.tokens : Test → List Token
  | .compare op right => .comparison op :: right.tokens
  | .between low high => .between :: (low.tokens ++ .connective .and :: high.tokens)
  | .within first rest => .within :: (Token.list Operand.tokens first rest ++ [.closing])

mutual

def Disjunction.tokens : Disjunction → List Token
  | .last only => only.tokens
  | .or first rest => first.tokens ++ .connective .or :: rest.tokens

def Conjunction.tokens : Conjunction → List Token
  | .last only => only.tokens
  | .and first rest => first.tokens ++ .connective .and :: rest.tokens

def Factor.tokens : Factor → List Token
  | .not inner => .not :: (inner.tokens ++ [.closing])
  | .group inner => .opening :: (inner.tokens ++ [.closing])
  | .operand subject test => subject.tokens ++ test.tokens
  | .call function first rest =>
    .call function.name :: (Token.list Operand.tokens first rest ++ [.closing])

end

theorem texts_operandList (first : AliasOperand) (rest : List AliasOperand) :
    Token.texts (Token.list Operand.tokens first rest) = operandList first rest :=
  Token.texts_list Operand.texts_tokens first rest

theorem Test.texts_tokens (test : Test) : Token.texts test.tokens = test.text := by
  cases test with
  | compare op right => simp [tokens, text, Token.text, Operand.texts_tokens, String.append_assoc]
  | between low high => simp [tokens, text, Token.text, Operand.texts_tokens, String.append_assoc]
  | within first rest => simp [tokens, text, Token.text, texts_operandList, String.append_assoc]

mutual

/-- By recursion on the tree, one level calling the next. -/
theorem Disjunction.texts_tokens : ∀ d : Disjunction, Token.texts d.tokens = d.text
  | .last only => only.texts_tokens
  | .or first rest => by
      simp [Disjunction.tokens, Disjunction.text, Token.text, first.texts_tokens,
        rest.texts_tokens, String.append_assoc]

theorem Conjunction.texts_tokens : ∀ c : Conjunction, Token.texts c.tokens = c.text
  | .last only => only.texts_tokens
  | .and first rest => by
      simp [Conjunction.tokens, Conjunction.text, Token.text, first.texts_tokens,
        rest.texts_tokens, String.append_assoc]

theorem Factor.texts_tokens : ∀ f : Factor, Token.texts f.tokens = f.text
  | .not inner => by
      simp [Factor.tokens, Factor.text, Token.text, inner.texts_tokens, String.append_assoc]
  | .group inner => by
      simp [Factor.tokens, Factor.text, Token.text, inner.texts_tokens, String.append_assoc]
  | .operand subject test => by
      simp [Factor.tokens, Factor.text, subject.texts_tokens, test.texts_tokens]
  | .call function first rest => by
      simp [Factor.tokens, Factor.text, Token.text, texts_operandList, String.append_assoc]

end

/-! ## Unambiguity -/

def endsDisjunction : Token → Bool
  | .closing => true
  | _ => false

def endsConjunction : Token → Bool
  | .closing => true
  | .connective .or => true
  | _ => false

def endsFactor : Token → Bool
  | .closing => true
  | .connective _ => true
  | _ => false

theorem endsConjunction_of_endsDisjunction (t : Token) (h : endsDisjunction t = true) :
    endsConjunction t = true := by
  cases t with
  | closing => rfl
  | _ => cases h

theorem endsFactor_of_endsConjunction (t : Token) (h : endsConjunction t = true) :
    endsFactor t = true := by
  cases t with
  | closing => rfl
  | connective op => rfl
  | _ => cases h

theorem endsPath_of_endsFactor (t : Token) (h : endsFactor t = true) : t.endsPath = true := by
  cases t with
  | closing => rfl
  | connective op => rfl
  | _ => cases h

def startsOperand : Token → Bool
  | .nameAlias _ => true
  | .valueAlias _ => true
  | .call .size => true
  | _ => false

theorem exists_operand_tokens_eq_cons (operand : AliasOperand) :
    ∃ t rest, operand.tokens = t :: rest ∧ startsOperand t = true := by
  cases operand with
  | name path => exact ⟨_, _, rfl, rfl⟩
  | value n => exact ⟨_, _, rfl, rfl⟩
  | size path => exact ⟨_, _, rfl, rfl⟩

theorem operand_tokens_append_ne (operand : AliasOperand) {t : Token} {r s : List Token}
    (ht : startsOperand t = false) : operand.tokens ++ r ≠ t :: s := by
  obtain ⟨u, rest, htokens, hu⟩ := exists_operand_tokens_eq_cons operand
  intro h
  rw [htokens] at h
  cases h
  rw [ht] at hu
  cases hu

theorem operandList_determined :
    Determined (fun parts : AliasOperand × List AliasOperand =>
      Token.list Operand.tokens parts.1 parts.2) (Token.endsList Token.endsPath) :=
  Token.list_determined Operand.tokens_determined rfl

theorem operandList_closing {first other : AliasOperand} {rest more : List AliasOperand}
    {r s : List Token}
    (h : Token.list Operand.tokens first rest ++ .closing :: r =
      Token.list Operand.tokens other more ++ .closing :: s) :
    first = other ∧ rest = more ∧ r = s := by
  obtain ⟨hparts, hrest⟩ := @operandList_determined (first, rest) (other, more) _ _
    (.cons rfl) (.cons rfl) h
  cases hparts
  cases hrest
  exact ⟨rfl, rfl, rfl⟩

theorem Test.tokens_determined : Determined Test.tokens Token.endsPath := by
  intro a b r s hr hs h
  cases a with
  | compare op right =>
      cases b with
      | compare op' right' =>
          simp only [tokens, List.cons_append, List.cons.injEq, Token.comparison.injEq] at h
          rcases h with ⟨rfl, h⟩
          obtain ⟨rfl, rfl⟩ := Operand.tokens_determined hr hs h
          exact ⟨rfl, rfl⟩
      | between low' high' => cases h
      | within first' rest' => cases h
  | between low high =>
      cases b with
      | compare op' right' => cases h
      | between low' high' =>
          simp only [tokens, List.cons_append, List.append_assoc, List.cons.injEq, true_and] at h
          obtain ⟨rfl, hrest⟩ := Operand.tokens_determined (.cons rfl) (.cons rfl) h
          obtain ⟨rfl, rfl⟩ := Operand.tokens_determined hr hs (List.cons.inj hrest).2
          exact ⟨rfl, rfl⟩
      | within first' rest' => cases h
  | within first rest =>
      cases b with
      | compare op' right' => cases h
      | between low' high' => cases h
      | within first' rest' =>
          simp only [tokens, List.cons_append, List.append_assoc, List.cons.injEq, true_and,
            List.nil_append] at h
          obtain ⟨rfl, rfl, rfl⟩ := operandList_closing h
          exact ⟨rfl, rfl⟩

theorem exists_test_tokens_eq_cons (test : Test) :
    ∃ t rest, test.tokens = t :: rest ∧ t.endsPath = true := by
  cases test with
  | compare op right => exact ⟨_, _, rfl, rfl⟩
  | between low high => exact ⟨_, _, rfl, rfl⟩
  | within first rest => exact ⟨_, _, rfl, rfl⟩

theorem TestFunction.name_injective {f g : TestFunction} (h : f.name = g.name) : f = g := by
  cases f with
  | presence f =>
      cases g with
      | presence g =>
          cases h
          rfl
      | test g => cases h
  | test f =>
      cases g with
      | presence g => cases h
      | test g =>
          cases h
          rfl

theorem startsOperand_call (function : TestFunction) :
    startsOperand (.call function.name) = false := by
  cases function with
  | presence f => rfl
  | test f => rfl

mutual

/--
By recursion on the first tree.  What may follow grows from level to level, so that a chain ends
at the same place in both trees.
-/
theorem Disjunction.eq_of_tokens_append : ∀ (d e : Disjunction) {r s : List Token},
    FollowedBy endsDisjunction r → FollowedBy endsDisjunction s → d.tokens ++ r = e.tokens ++ s →
      d = e ∧ r = s
  | .last c, .last k, r, s, hr, hs, h => by
      obtain ⟨rfl, rfl⟩ := Conjunction.eq_of_tokens_append c k
        (hr.mono endsConjunction_of_endsDisjunction) (hs.mono endsConjunction_of_endsDisjunction) h
      exact ⟨rfl, rfl⟩
  | .last c, .or k more, r, s, hr, hs, h => by
      simp only [Disjunction.tokens, List.append_assoc, List.cons_append] at h
      obtain ⟨-, rfl⟩ := Conjunction.eq_of_tokens_append c k
        (hr.mono endsConjunction_of_endsDisjunction) (.cons rfl) h
      cases hr.head
  | .or c rest, .last k, r, s, hr, hs, h => by
      simp only [Disjunction.tokens, List.append_assoc, List.cons_append] at h
      obtain ⟨-, rfl⟩ := Conjunction.eq_of_tokens_append c k (.cons rfl)
        (hs.mono endsConjunction_of_endsDisjunction) h
      cases hs.head
  | .or c rest, .or k more, r, s, hr, hs, h => by
      simp only [Disjunction.tokens, List.append_assoc, List.cons_append] at h
      obtain ⟨rfl, hrest⟩ := Conjunction.eq_of_tokens_append c k (.cons rfl) (.cons rfl) h
      obtain ⟨rfl, rfl⟩ := Disjunction.eq_of_tokens_append rest more hr hs (List.cons.inj hrest).2
      exact ⟨rfl, rfl⟩

theorem Conjunction.eq_of_tokens_append : ∀ (c k : Conjunction) {r s : List Token},
    FollowedBy endsConjunction r → FollowedBy endsConjunction s → c.tokens ++ r = k.tokens ++ s →
      c = k ∧ r = s
  | .last f, .last g, r, s, hr, hs, h => by
      obtain ⟨rfl, rfl⟩ := Factor.eq_of_tokens_append f g
        (hr.mono endsFactor_of_endsConjunction) (hs.mono endsFactor_of_endsConjunction) h
      exact ⟨rfl, rfl⟩
  | .last f, .and g more, r, s, hr, hs, h => by
      simp only [Conjunction.tokens, List.append_assoc, List.cons_append] at h
      obtain ⟨-, rfl⟩ := Factor.eq_of_tokens_append f g
        (hr.mono endsFactor_of_endsConjunction) (.cons rfl) h
      cases hr.head
  | .and f rest, .last g, r, s, hr, hs, h => by
      simp only [Conjunction.tokens, List.append_assoc, List.cons_append] at h
      obtain ⟨-, rfl⟩ := Factor.eq_of_tokens_append f g (.cons rfl)
        (hs.mono endsFactor_of_endsConjunction) h
      cases hs.head
  | .and f rest, .and g more, r, s, hr, hs, h => by
      simp only [Conjunction.tokens, List.append_assoc, List.cons_append] at h
      obtain ⟨rfl, hrest⟩ := Factor.eq_of_tokens_append f g (.cons rfl) (.cons rfl) h
      obtain ⟨rfl, rfl⟩ := Conjunction.eq_of_tokens_append rest more hr hs (List.cons.inj hrest).2
      exact ⟨rfl, rfl⟩

theorem Factor.eq_of_tokens_append : ∀ (f g : Factor) {r s : List Token},
    FollowedBy endsFactor r → FollowedBy endsFactor s → f.tokens ++ r = g.tokens ++ s →
      f = g ∧ r = s
  | .not d, .not e, r, s, hr, hs, h => by
      simp only [Factor.tokens, List.cons_append, List.append_assoc, List.cons.injEq, true_and,
        List.nil_append] at h
      obtain ⟨rfl, hrest⟩ := Disjunction.eq_of_tokens_append d e (.cons rfl) (.cons rfl) h
      cases hrest
      exact ⟨rfl, rfl⟩
  | .group d, .group e, r, s, hr, hs, h => by
      simp only [Factor.tokens, List.cons_append, List.append_assoc, List.cons.injEq, true_and,
        List.nil_append] at h
      obtain ⟨rfl, hrest⟩ := Disjunction.eq_of_tokens_append d e (.cons rfl) (.cons rfl) h
      cases hrest
      exact ⟨rfl, rfl⟩
  | .operand o test, .operand p other, r, s, hr, hs, h => by
      obtain ⟨t, ts, htest, ht⟩ := exists_test_tokens_eq_cons test
      obtain ⟨u, us, hother, hu⟩ := exists_test_tokens_eq_cons other
      simp only [Factor.tokens, List.append_assoc] at h
      obtain ⟨rfl, hrest⟩ := Operand.tokens_determined (by rw [htest]; exact .cons ht)
        (by rw [hother]; exact .cons hu) h
      obtain ⟨rfl, rfl⟩ := Test.tokens_determined (hr.mono endsPath_of_endsFactor)
        (hs.mono endsPath_of_endsFactor) hrest
      exact ⟨rfl, rfl⟩
  | .call f first rest, .call g other more, r, s, hr, hs, h => by
      simp only [Factor.tokens, List.cons_append, List.append_assoc, List.cons.injEq,
        Token.call.injEq, List.nil_append] at h
      rcases h with ⟨hname, h⟩
      cases TestFunction.name_injective hname
      obtain ⟨rfl, rfl, rfl⟩ := operandList_closing h
      exact ⟨rfl, rfl⟩
  | .not d, .group e, r, s, hr, hs, h => by cases h
  | .not d, .call g other more, r, s, hr, hs, h => by cases h
  | .group d, .not e, r, s, hr, hs, h => by cases h
  | .group d, .call g other more, r, s, hr, hs, h => by cases h
  | .call f first rest, .not e, r, s, hr, hs, h => by cases h
  | .call f first rest, .group e, r, s, hr, hs, h => by cases h
  | .not d, .operand p other, r, s, hr, hs, h => by
      rw [Factor.tokens, Factor.tokens, List.append_assoc] at h
      exact absurd h.symm (operand_tokens_append_ne p rfl)
  | .group d, .operand p other, r, s, hr, hs, h => by
      rw [Factor.tokens, Factor.tokens, List.append_assoc] at h
      exact absurd h.symm (operand_tokens_append_ne p rfl)
  | .call f first rest, .operand p other, r, s, hr, hs, h => by
      rw [Factor.tokens, Factor.tokens, List.append_assoc] at h
      exact absurd h.symm (operand_tokens_append_ne p (startsOperand_call f))
  | .operand o test, .not e, r, s, hr, hs, h => by
      rw [Factor.tokens, Factor.tokens, List.append_assoc] at h
      exact absurd h (operand_tokens_append_ne o rfl)
  | .operand o test, .group e, r, s, hr, hs, h => by
      rw [Factor.tokens, Factor.tokens, List.append_assoc] at h
      exact absurd h (operand_tokens_append_ne o rfl)
  | .operand o test, .call g other more, r, s, hr, hs, h => by
      rw [Factor.tokens, Factor.tokens, List.append_assoc] at h
      exact absurd h (operand_tokens_append_ne o (startsOperand_call g))

end

/-- A text has at most one tree. -/
theorem Disjunction.text_injective {d e : Disjunction} (h : d.text = e.text) : d = e := by
  rw [← d.texts_tokens, ← e.texts_tokens] at h
  refine (Disjunction.eq_of_tokens_append d e (r := []) (s := []) .nil .nil ?_).1
  rw [List.append_nil, List.append_nil]
  exact Token.texts_injective h

end DynamoExpr.Grammar
