import DynamoExpr.Proofs.Alias.Dictionary
import DynamoExpr.Proofs.Grammar.Operand

/-!
# The grammar of updates

At most one clause of each kind, in fixed order.  A SET value is a term, or two terms with a sign
between them, and the arguments of a function are values again.  No text has two derivation trees.
-/

namespace DynamoExpr.Grammar

mutual

inductive Value where
  | single (only : Term)
  | arithmetic (op : Arithmetic) (left right : Term)

inductive Term where
  | name (path : Path Nat)
  | value (n : Nat)
  | listAppend (left right : Value)
  | ifNotExists (path : Path Nat) (fallback : Value)

end

/-- The actions of the four clauses; a clause without an action is absent. -/
structure Actions where
  sets : List (Path Nat × Value)
  removes : List (Path Nat)
  adds : List (Path Nat × Nat)
  deletes : List (Path Nat × Nat)

/-! ## Texts -/

def callText (name first second : String) : String := name ++ "(" ++ first ++ ", " ++ second ++ ")"

def arithmeticText (op : Arithmetic) (left right : String) : String :=
  match op with
  | .plus => left ++ " + " ++ right
  | .minus => left ++ " - " ++ right

mutual

def Value.text : Value → String
  | .single only => only.text
  | .arithmetic op left right => arithmeticText op left.text right.text

def Term.text : Term → String
  | .name path => path.text
  | .value n => ":" ++ toString n
  | .listAppend left right => callText "list_append" left.text right.text
  | .ifNotExists path fallback => callText "if_not_exists" path.text fallback.text

end

def setText (action : Path Nat × Value) : String := action.1.text ++ " = " ++ action.2.text

def changeText (action : Path Nat × Nat) : String :=
  action.1.text ++ " :" ++ toString action.2

def clauseText (keyword : String) (actions : List String) : List String :=
  if actions.isEmpty then [] else [keyword ++ " " ++ ", ".intercalate actions]

def Actions.text (actions : Actions) : String :=
  " ".intercalate <|
    clauseText "SET" (actions.sets.map setText)
      ++ clauseText "REMOVE" (actions.removes.map Path.text)
      ++ clauseText "ADD" (actions.adds.map changeText)
      ++ clauseText "DELETE" (actions.deletes.map changeText)

/-! ## The updates that trees stand for -/

mutual

def Value.setValue? (dictionary : Dictionary) : Value → Option PlainSetValue
  | .single only => only.setValue? dictionary
  | .arithmetic op left right => do
    let left ← left.setValue? dictionary
    let right ← right.setValue? dictionary
    return .arithmetic op left right

def Term.setValue? (dictionary : Dictionary) : Term → Option PlainSetValue
  | .name path => do
    let path ← dictionary.path? path
    return .operand (.name path)
  | .value n => do
    let value ← dictionary.value? n
    return .operand (.value value)
  | .listAppend left right => do
    let left ← left.setValue? dictionary
    let right ← right.setValue? dictionary
    return .listAppend left right
  | .ifNotExists path fallback => do
    let path ← dictionary.path? path
    let fallback ← fallback.setValue? dictionary
    return .ifNotExists path fallback

end

def readSet? (dictionary : Dictionary) (action : Path Nat × Value) :
    Option (AttributePath × PlainSetValue) := do
  let path ← dictionary.path? action.1
  let value ← action.2.setValue? dictionary
  return (path, value)

def readChange? (dictionary : Dictionary) (action : Path Nat × Nat) :
    Option (AttributePath × AttributeValue) := do
  let path ← dictionary.path? action.1
  let value ← dictionary.value? action.2
  return (path, value)

def Actions.update? (dictionary : Dictionary) (actions : Actions) : Option PlainUpdate := do
  let sets ← actions.sets.mapM (readSet? dictionary)
  let removes ← actions.removes.mapM dictionary.path?
  let adds ← actions.adds.mapM (readChange? dictionary)
  let deletes ← actions.deletes.mapM (readChange? dictionary)
  return ⟨sets, removes, adds, deletes⟩

/-! ## Tokens -/

mutual

def Value.tokens : Value → List Token
  | .single only => only.tokens
  | .arithmetic op left right => left.tokens ++ .arithmetic op :: right.tokens

def Term.tokens : Term → List Token
  | .name path => path.tokens
  | .value n => [.valueAlias n]
  | .listAppend left right =>
    .call .listAppend :: (left.tokens ++ .comma :: (right.tokens ++ [.closing]))
  | .ifNotExists path fallback =>
    .call .ifNotExists :: (path.tokens ++ .comma :: (fallback.tokens ++ [.closing]))

end

def setTokens (action : Path Nat × Value) : List Token :=
  action.1.tokens ++ .comparison .eq :: action.2.tokens

def changeTokens (action : Path Nat × Nat) : List Token :=
  action.1.tokens ++ [.space, .valueAlias action.2]

def Actions.clauses (actions : Actions) : List (List Token) :=
  Clause.set.tokens (actions.sets.map setTokens)
    ++ Clause.remove.tokens (actions.removes.map Path.tokens)
    ++ Clause.add.tokens (actions.adds.map changeTokens)
    ++ Clause.delete.tokens (actions.deletes.map changeTokens)

def Actions.tokens (actions : Actions) : List Token := Token.separate .space actions.clauses

mutual

/-- By recursion on the tree, values and terms calling each other. -/
theorem Value.texts_tokens : ∀ v : Value, Token.texts v.tokens = v.text
  | .single only => only.texts_tokens
  | .arithmetic op left right => by
      cases op <;>
        simp [Value.tokens, Value.text, arithmeticText, Token.text, left.texts_tokens,
          right.texts_tokens, String.append_assoc]

theorem Term.texts_tokens : ∀ t : Term, Token.texts t.tokens = t.text
  | .name path => path.texts_tokens
  | .value n => by simp [Term.tokens, Term.text, Token.text]
  | .listAppend left right => by
      simp [Term.tokens, Term.text, callText, Token.text, FunctionName.text, left.texts_tokens,
        right.texts_tokens, String.append_assoc]
  | .ifNotExists path fallback => by
      simp [Term.tokens, Term.text, callText, Token.text, FunctionName.text, path.texts_tokens,
        fallback.texts_tokens, String.append_assoc]

end

theorem texts_setTokens (action : Path Nat × Value) :
    Token.texts (setTokens action) = setText action := by
  simp [setTokens, setText, Token.text, Comparison.sign, Path.texts_tokens, Value.texts_tokens,
    String.append_assoc]

theorem texts_changeTokens (action : Path Nat × Nat) :
    Token.texts (changeTokens action) = changeText action := by
  have hmark : " " ++ ":" = " :" := by decide
  simp only [changeTokens, changeText, Token.texts_append, Token.texts_cons, Token.texts_nil,
    Token.text, Path.texts_tokens, String.append_empty, ← String.append_assoc]
  rw [@String.append_assoc _ " " ":", hmark]

theorem texts_clause {α : Type} {tokens : α → List Token} {text : α → String}
    (h : ∀ x, Token.texts (tokens x) = text x) (clause : Clause) (actions : List α) :
    (clause.tokens (actions.map tokens)).map Token.texts =
      clauseText clause.keyword (actions.map text) := by
  cases actions with
  | nil => rfl
  | cons first rest =>
      have hlist := Token.texts_list h first rest
      have htokens : clause.tokens ((first :: rest).map tokens) =
          [.clause clause :: Token.list tokens first rest] := rfl
      rw [htokens, List.map_cons, Token.texts_cons, hlist]
      rfl

theorem Actions.texts_tokens (actions : Actions) : Token.texts actions.tokens = actions.text := by
  rw [tokens, Token.texts_separate, clauses, List.map_append, List.map_append, List.map_append,
    texts_clause texts_setTokens, texts_clause Path.texts_tokens, texts_clause texts_changeTokens,
    texts_clause texts_changeTokens]
  rfl

/-! ## Unambiguity of values -/

def endsValue : Token → Bool
  | .dot => false
  | .index _ => false
  | .arithmetic _ => false
  | _ => true

theorem endsPath_of_endsValue (t : Token) (h : endsValue t = true) : t.endsPath = true := by
  cases t with
  | dot => cases h
  | index i => cases h
  | _ => rfl

mutual

/-- By recursion on the first tree.  A sign can only follow a term that is no whole value. -/
theorem Value.eq_of_tokens_append : ∀ (v w : Value) {r s : List Token},
    FollowedBy endsValue r → FollowedBy endsValue s → v.tokens ++ r = w.tokens ++ s →
      v = w ∧ r = s
  | .single t, .single u, r, s, hr, hs, h => by
      obtain ⟨rfl, rfl⟩ := Term.eq_of_tokens_append t u (hr.mono endsPath_of_endsValue)
        (hs.mono endsPath_of_endsValue) h
      exact ⟨rfl, rfl⟩
  | .single t, .arithmetic op left right, r, s, hr, hs, h => by
      simp only [Value.tokens, List.append_assoc, List.cons_append] at h
      obtain ⟨-, rfl⟩ := Term.eq_of_tokens_append t left (hr.mono endsPath_of_endsValue)
        (.cons rfl) h
      cases hr.head
  | .arithmetic op left right, .single t, r, s, hr, hs, h => by
      simp only [Value.tokens, List.append_assoc, List.cons_append] at h
      obtain ⟨-, rfl⟩ := Term.eq_of_tokens_append left t (.cons rfl)
        (hs.mono endsPath_of_endsValue) h
      cases hs.head
  | .arithmetic op left right, .arithmetic op' left' right', r, s, hr, hs, h => by
      simp only [Value.tokens, List.append_assoc, List.cons_append] at h
      obtain ⟨rfl, hrest⟩ := Term.eq_of_tokens_append left left' (.cons rfl) (.cons rfl) h
      obtain ⟨hop, hright⟩ := List.cons.inj hrest
      cases hop
      obtain ⟨rfl, rfl⟩ := Term.eq_of_tokens_append right right' (hr.mono endsPath_of_endsValue)
        (hs.mono endsPath_of_endsValue) hright
      exact ⟨rfl, rfl⟩

theorem Term.eq_of_tokens_append : ∀ (t u : Term) {r s : List Token},
    FollowedBy Token.endsPath r → FollowedBy Token.endsPath s → t.tokens ++ r = u.tokens ++ s →
      t = u ∧ r = s
  | .name p, .name q, r, s, hr, hs, h => by
      obtain ⟨rfl, rfl⟩ := Path.tokens_determined hr hs h
      exact ⟨rfl, rfl⟩
  | .value n, .value m, r, s, hr, hs, h => by
      cases h
      exact ⟨rfl, rfl⟩
  | .listAppend left right, .listAppend left' right', r, s, hr, hs, h => by
      simp only [Term.tokens, List.append_assoc, List.cons_append, List.cons.injEq, true_and,
        List.nil_append] at h
      obtain ⟨rfl, hrest⟩ := Value.eq_of_tokens_append left left' (.cons rfl) (.cons rfl) h
      obtain ⟨rfl, hend⟩ := Value.eq_of_tokens_append right right' (.cons rfl) (.cons rfl)
        (List.cons.inj hrest).2
      cases hend
      exact ⟨rfl, rfl⟩
  | .ifNotExists p v, .ifNotExists q w, r, s, hr, hs, h => by
      simp only [Term.tokens, List.append_assoc, List.cons_append, List.cons.injEq, true_and,
        List.nil_append] at h
      obtain ⟨rfl, hrest⟩ := Path.tokens_determined (.cons rfl) (.cons rfl) h
      obtain ⟨rfl, hend⟩ := Value.eq_of_tokens_append v w (.cons rfl) (.cons rfl)
        (List.cons.inj hrest).2
      cases hend
      exact ⟨rfl, rfl⟩
  | .name p, .value m, r, s, hr, hs, h => by cases h
  | .name p, .listAppend left right, r, s, hr, hs, h => by cases h
  | .name p, .ifNotExists q w, r, s, hr, hs, h => by cases h
  | .value n, .name q, r, s, hr, hs, h => by cases h
  | .value n, .listAppend left right, r, s, hr, hs, h => by cases h
  | .value n, .ifNotExists q w, r, s, hr, hs, h => by cases h
  | .listAppend left right, .name q, r, s, hr, hs, h => by cases h
  | .listAppend left right, .value m, r, s, hr, hs, h => by cases h
  | .listAppend left right, .ifNotExists q w, r, s, hr, hs, h => by cases h
  | .ifNotExists p v, .name q, r, s, hr, hs, h => by cases h
  | .ifNotExists p v, .value m, r, s, hr, hs, h => by cases h
  | .ifNotExists p v, .listAppend left right, r, s, hr, hs, h => by cases h

end

/-! ## Unambiguity of actions and clauses -/

theorem setTokens_determined : Determined setTokens endsValue := by
  intro a b r s hr hs h
  rcases a with ⟨p, v⟩
  rcases b with ⟨q, w⟩
  simp only [setTokens, List.append_assoc, List.cons_append] at h
  obtain ⟨rfl, hrest⟩ := Path.tokens_determined (.cons rfl) (.cons rfl) h
  obtain ⟨rfl, rfl⟩ := Value.eq_of_tokens_append v w hr hs (List.cons.inj hrest).2
  exact ⟨rfl, rfl⟩

theorem changeTokens_determined : Determined changeTokens endsValue := by
  intro a b r s hr hs h
  rcases a with ⟨p, n⟩
  rcases b with ⟨q, m⟩
  simp only [changeTokens, List.append_assoc, List.cons_append] at h
  obtain ⟨rfl, hrest⟩ := Path.tokens_determined (.cons rfl) (.cons rfl) h
  cases hrest
  exact ⟨rfl, rfl⟩

theorem removeTokens_determined : Determined Path.tokens endsValue :=
  Path.tokens_determined.mono endsPath_of_endsValue

/-- Nothing follows, or a clause of another kind with its blank. -/
def OtherClause (clause : Clause) (rest : List Token) : Prop :=
  rest = [] ∨ ∃ other more, other ≠ clause ∧ rest = .space :: .clause other :: more

/-- The tokens of a clause with a blank before it. -/
def leadClause (clause : Clause) (actions : List (List Token)) : List Token :=
  (clause.tokens actions).flatMap (.space :: ·)

theorem leadClause_cons {α : Type} (clause : Clause) (tokens : α → List Token) (first : α)
    (rest : List α) :
    leadClause clause ((first :: rest).map tokens) =
      .space :: .clause clause :: Token.list tokens first rest := by
  simp [leadClause, Clause.tokens, Token.list]

theorem OtherClause.append {clause other : Clause} {rest : List Token}
    (h : OtherClause clause rest) (hne : other ≠ clause) (actions : List (List Token)) :
    OtherClause clause (leadClause other actions ++ rest) := by
  cases actions with
  | nil => exact h
  | cons first more =>
      refine .inr ⟨other, Token.separate .comma (first :: more) ++ rest, hne, ?_⟩
      simp [leadClause, Clause.tokens]

theorem OtherClause.followedBy {clause : Clause} {rest : List Token}
    (h : OtherClause clause rest) : FollowedBy (Token.endsList endsValue) rest := by
  rcases h with rfl | ⟨other, more, -, rfl⟩
  · exact .nil
  · exact .cons rfl

theorem leadClause_determined {α : Type} {tokens : α → List Token}
    (h : Determined tokens endsValue) (clause : Clause) {actions others : List α}
    {r s : List Token} (hr : OtherClause clause r) (hs : OtherClause clause s)
    (heq : leadClause clause (actions.map tokens) ++ r =
      leadClause clause (others.map tokens) ++ s) :
    actions = others ∧ r = s := by
  cases actions with
  | nil =>
      cases others with
      | nil => exact ⟨rfl, heq⟩
      | cons first rest =>
          rw [leadClause_cons] at heq
          obtain rfl : r = _ := heq
          rcases hr with hr | ⟨other, more, hne, hr⟩
          · cases hr
          · cases hr
            exact absurd rfl hne
  | cons first rest =>
      rw [leadClause_cons] at heq
      cases others with
      | nil =>
          obtain rfl : _ = s := heq
          rcases hs with hs | ⟨other, more, hne, hs⟩
          · cases hs
          · cases hs
            exact absurd rfl hne
      | cons first' rest' =>
          rw [leadClause_cons] at heq
          obtain ⟨hparts, rfl⟩ := @Token.list_determined _ _ _ h rfl (first, rest) (first', rest')
            _ _ hr.followedBy hs.followedBy (List.cons.inj (List.cons.inj heq).2).2
          cases hparts
          exact ⟨rfl, rfl⟩

/-- With a blank before each part instead of between parts, all parts look alike. -/
theorem cons_separate {sep : Token} {part : List Token} (rest : List (List Token)) :
    sep :: Token.separate sep (part :: rest) = (part :: rest).flatMap (sep :: ·) := by
  induction rest generalizing part with
  | nil => simp [Token.separate]
  | cons next rest ih =>
      have hsplit : Token.separate sep (part :: next :: rest) =
          part ++ sep :: Token.separate sep (next :: rest) := rfl
      rw [hsplit, ih]
      rfl

theorem separate_ne_nil {sep : Token} {part : List Token} (h : part ≠ [])
    (rest : List (List Token)) : Token.separate sep (part :: rest) ≠ [] := by
  cases rest with
  | nil => exact h
  | cons next rest =>
      intro hnil
      exact h (List.append_eq_nil_iff.1 hnil).1

theorem flatMap_eq_of_separate_eq {sep : Token} {parts others : List (List Token)}
    (hparts : ∀ part ∈ parts, part ≠ []) (hothers : ∀ part ∈ others, part ≠ [])
    (h : Token.separate sep parts = Token.separate sep others) :
    parts.flatMap (sep :: ·) = others.flatMap (sep :: ·) := by
  cases parts with
  | nil =>
      cases others with
      | nil => rfl
      | cons part rest =>
          exact absurd h.symm (separate_ne_nil (hothers part (List.mem_cons_self ..)) rest)
  | cons part rest =>
      cases others with
      | nil => exact absurd h (separate_ne_nil (hparts part (List.mem_cons_self ..)) rest)
      | cons other more => rw [← cons_separate, ← cons_separate, h]

theorem clause_ne_nil {clause : Clause} {actions : List (List Token)} :
    ∀ part ∈ clause.tokens actions, part ≠ [] := by
  intro part hpart
  cases actions with
  | nil => cases hpart
  | cons first rest =>
      rw [List.mem_singleton.1 hpart]
      exact List.cons_ne_nil _ _

theorem Actions.clauses_ne_nil (actions : Actions) : ∀ part ∈ actions.clauses, part ≠ [] := by
  simp only [clauses, List.forall_mem_append]
  exact ⟨⟨⟨clause_ne_nil, clause_ne_nil⟩, clause_ne_nil⟩, clause_ne_nil⟩

theorem otherClause_delete {clause : Clause} (hne : Clause.delete ≠ clause)
    (deletes : List (List Token)) : OtherClause clause (leadClause .delete deletes) := by
  have hother := OtherClause.append (.inl rfl : OtherClause clause []) hne deletes
  rwa [List.append_nil] at hother

theorem otherClause_add {clause : Clause} (hadd : Clause.add ≠ clause)
    (hdelete : Clause.delete ≠ clause) (adds deletes : List (List Token)) :
    OtherClause clause (leadClause .add adds ++ leadClause .delete deletes) :=
  (otherClause_delete hdelete deletes).append hadd adds

/-- The clauses are told apart one after another, since each keyword starts one of them only. -/
theorem Actions.tokens_injective {a b : Actions} (h : a.tokens = b.tokens) : a = b := by
  have hlead := flatMap_eq_of_separate_eq a.clauses_ne_nil b.clauses_ne_nil h
  clear h
  rcases a with ⟨sets, removes, adds, deletes⟩
  rcases b with ⟨sets', removes', adds', deletes'⟩
  simp only [clauses, List.flatMap_append, List.append_assoc] at hlead
  have hset : ∀ removes adds deletes, OtherClause .set (leadClause .remove removes ++
      (leadClause .add adds ++ leadClause .delete deletes)) := fun removes adds deletes =>
    (otherClause_add (by decide) (by decide) adds deletes).append (by decide) removes
  have hremove : ∀ adds deletes, OtherClause .remove
      (leadClause .add adds ++ leadClause .delete deletes) :=
    otherClause_add (by decide) (by decide)
  have hadd : ∀ deletes, OtherClause .add (leadClause .delete deletes) :=
    otherClause_delete (by decide)
  obtain ⟨rfl, hrest⟩ := leadClause_determined setTokens_determined .set (hset _ _ _)
    (hset _ _ _) hlead
  obtain ⟨rfl, hrest'⟩ := leadClause_determined removeTokens_determined .remove (hremove _ _)
    (hremove _ _) hrest
  obtain ⟨rfl, hrest''⟩ := leadClause_determined changeTokens_determined .add (hadd _) (hadd _)
    hrest'
  have hnil : OtherClause .delete [] := .inl rfl
  obtain ⟨rfl, -⟩ := leadClause_determined changeTokens_determined .delete hnil hnil
    (congrArg (· ++ []) hrest'')
  rfl

/-- A text has at most one tree. -/
theorem Actions.text_injective {a b : Actions} (h : a.text = b.text) : a = b := by
  rw [← a.texts_tokens, ← b.texts_tokens] at h
  exact tokens_injective (Token.texts_injective h)

end DynamoExpr.Grammar
