import DynamoExpr.Proofs.Token.Text
import DynamoExpr.Proofs.Token.Unique

/-!
# The grammar of operands

A path is `#n` and then any number of `.#n` and `[i]`.  An operand is a path, `:n`, or
`size(path)`.  Aliased paths and operands are the derivation trees of these two.
-/

namespace DynamoExpr

/-! ## Texts as the grammar has them -/

def PathStep.text : PathStep Nat → String
  | .attribute n => ".#" ++ toString n
  | .index i => "[" ++ toString i ++ "]"

def Path.text (path : Path Nat) : String :=
  "#" ++ toString path.head ++ String.join (path.tail.map PathStep.text)

def Operand.text : Operand (Path Nat) Nat → String
  | .name path => path.text
  | .value n => ":" ++ toString n
  | .size path => "size(" ++ path.text ++ ")"

/-! ## Their tokens -/

namespace Token

@[simp] theorem texts_nil : texts [] = "" := rfl

@[simp] theorem texts_cons (t : Token) (rest : List Token) :
    texts (t :: rest) = t.text ++ texts rest := by
  simp [texts, String.join_cons]

@[simp] theorem texts_append (first second : List Token) :
    texts (first ++ second) = texts first ++ texts second := by
  simp [texts, String.join_append]

theorem texts_separate (sep : Token) (parts : List (List Token)) :
    texts (separate sep parts) = sep.text.intercalate (parts.map texts) := by
  induction parts with
  | nil => simp [separate]
  | cons part rest ih =>
      cases rest with
      | nil => simp [separate]
      | cons next rest =>
          have hsplit : separate sep (part :: next :: rest) =
              part ++ sep :: separate sep (next :: rest) := rfl
          rw [hsplit, texts_append, texts_cons, ih]
          simp only [List.map_cons, String.intercalate_cons_cons, String.append_assoc]

theorem texts_list {α : Type} {tokens : α → List Token} {text : α → String}
    (h : ∀ x, texts (tokens x) = text x) (first : α) (rest : List α) :
    texts (Token.list tokens first rest) = ", ".intercalate ((first :: rest).map text) := by
  have htexts : ((first :: rest).map tokens).map texts = (first :: rest).map text := by
    rw [List.map_map]
    exact List.map_congr_left fun x _ => h x
  unfold Token.list
  rw [texts_separate, htexts]
  rfl

end Token

theorem PathStep.texts_tokens (step : PathStep Nat) : Token.texts step.tokens = step.text := by
  rcases step with n | i
  · simp [tokens, text, Token.text, ← String.append_assoc]
  · simp [tokens, text, Token.text]

theorem PathStep.texts_flatMap_tokens (steps : List (PathStep Nat)) :
    Token.texts (steps.flatMap tokens) = String.join (steps.map text) := by
  induction steps with
  | nil => rfl
  | cons step rest ih =>
      rw [List.flatMap_cons, Token.texts_append, step.texts_tokens, ih, List.map_cons,
        String.join_cons]

theorem Path.texts_tokens (path : Path Nat) : Token.texts path.tokens = path.text := by
  unfold tokens
  rw [Token.texts_cons, PathStep.texts_flatMap_tokens]
  rfl

theorem Path.text_injective {path other : Path Nat} (h : path.text = other.text) :
    path = other := by
  rw [← texts_tokens, ← texts_tokens] at h
  have htokens := Token.texts_injective h
  exact (tokens_determined .nil .nil (congrArg (· ++ []) htokens)).1

theorem Operand.texts_tokens (operand : Operand (Path Nat) Nat) :
    Token.texts operand.tokens = operand.text := by
  cases operand with
  | name path => exact path.texts_tokens
  | value n => simp [tokens, text, Token.text]
  | size path => simp [tokens, text, Token.text, FunctionName.text, path.texts_tokens,
      String.append_assoc]

end DynamoExpr
