import DynamoExpr.Proofs.Grammar.Operand
import DynamoExpr.Proofs.Tree.Plain

/-!
# The grammar of key conditions

A query takes `#i = :j`, and after it at most one condition on another key: a comparison other than
inequality, a range, or a leading text.  Aliased key conditions whose keys are single names have
these texts and no others.
-/

namespace DynamoExpr

/-! ## Texts as the grammar has them -/

def KeyComparison.sign : KeyComparison → String
  | .eq => "="
  | .lt => "<"
  | .le => "<="
  | .gt => ">"
  | .ge => ">="

def SortKeyCondition.text : SortKeyCondition Nat Nat → String
  | ⟨key, .compare op value⟩ =>
    "#" ++ toString key ++ " " ++ op.sign ++ " :" ++ toString value
  | ⟨key, .between low high⟩ =>
    "#" ++ toString key ++ " BETWEEN :" ++ toString low ++ " AND :" ++ toString high
  | ⟨key, .beginsWith leading⟩ =>
    "begins_with(#" ++ toString key ++ ", :" ++ toString leading ++ ")"

def KeyCondition.text (condition : KeyCondition Nat Nat) : String :=
  let partition := "#" ++ toString condition.key ++ " = :" ++ toString condition.value
  match condition.sort with
  | none => partition
  | some sort => partition ++ " AND " ++ sort.text

/-! ## Their tokens -/

theorem KeyComparison.sign_toComparison (op : KeyComparison) : op.toComparison.sign = op.sign := by
  cases op <;> rfl

/-- A path of one name has one alias. -/
theorem Path.texts_tokens_single (i : Nat) :
    Token.texts (Path.tokens ⟨i, []⟩) = "#" ++ toString i := by
  rw [Path.texts_tokens]
  simp [Path.text]

theorem SortKeyCondition.texts_tokens (condition : SortKeyCondition Nat Nat) :
    Token.texts (SortKeyCondition.tokens ⟨⟨condition.key, []⟩, condition.test⟩) =
      condition.text := by
  rcases condition with ⟨key, test⟩
  cases test with
  | compare op value =>
      change _ = "#" ++ toString key ++ " " ++ op.sign ++ " :" ++ toString value
      simp only [tokens, Token.texts_append, Token.texts_cons, Token.texts_nil, Token.text,
        Path.texts_tokens_single, KeyComparison.sign_toComparison, String.append_assoc,
        String.append_empty]
      rfl
  | between low high =>
      change _ = "#" ++ toString key ++ " BETWEEN :" ++ toString low ++ " AND :" ++ toString high
      simp only [tokens, Token.texts_append, Token.texts_cons, Token.texts_nil, Token.text,
        Path.texts_tokens_single, String.append_assoc, String.append_empty]
      rfl
  | beginsWith leading =>
      change _ = "begins_with(#" ++ toString key ++ ", :" ++ toString leading ++ ")"
      simp only [tokens, Token.texts_append, Token.texts_cons, Token.texts_nil, Token.text,
        FunctionName.text, Path.texts_tokens_single, String.append_assoc, String.append_empty]
      rfl

theorem SortKeyTest.map_id {β : Type} (test : SortKeyTest β) : test.map id = test := by
  cases test <;> rfl

theorem KeyCondition.texts_tokens (condition : KeyCondition Nat Nat) :
    Token.texts (condition.map (Path.mk · []) id).tokens = condition.text := by
  rcases condition with ⟨key, value, sort⟩
  have hpartition : Token.texts (Path.tokens ⟨key, []⟩ ++ [.comparison .eq, .valueAlias value]) =
      "#" ++ toString key ++ " = :" ++ toString value := by
    simp [Path.texts_tokens_single, Token.text, Comparison.sign, ← String.toList_inj]
  cases sort with
  | none => exact hpartition
  | some sort =>
      change Token.texts (Path.tokens ⟨key, []⟩ ++ [.comparison .eq, .valueAlias value] ++
        .connective .and :: SortKeyCondition.tokens ⟨⟨sort.key, []⟩, sort.test.map id⟩) = _
      rw [Token.texts_append, Token.texts_cons, hpartition, SortKeyTest.map_id,
        sort.texts_tokens, ← String.append_assoc]
      rfl

end DynamoExpr
