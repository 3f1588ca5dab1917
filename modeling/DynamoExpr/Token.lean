import DynamoExpr.Tree

/-!
# Tokens

The text of an expression is a run of tokens, each with the blanks that belong to it.  The tokens
of an aliased tree follow from the tree alone.
-/

namespace DynamoExpr

inductive FunctionName where
  | size
  | presence (function : Presence)
  | test (function : PathTest)
  | listAppend
  | ifNotExists
deriving DecidableEq

def FunctionName.text : FunctionName → String
  | .size => "size"
  | .presence .attributeExists => "attribute_exists"
  | .presence .attributeNotExists => "attribute_not_exists"
  | .test .attributeType => "attribute_type"
  | .test .beginsWith => "begins_with"
  | .test .contains => "contains"
  | .listAppend => "list_append"
  | .ifNotExists => "if_not_exists"

inductive Clause where
  | set
  | remove
  | add
  | delete
deriving DecidableEq

def Clause.keyword : Clause → String
  | .set => "SET"
  | .remove => "REMOVE"
  | .add => "ADD"
  | .delete => "DELETE"

inductive Token where
  | nameAlias (i : Nat)
  | valueAlias (i : Nat)
  | dot
  | index (i : Nat)
  | comparison (op : Comparison)
  | between
  | within
  | connective (op : Connective)
  | not
  | call (function : FunctionName)
  | opening
  | closing
  | comma
  | clause (clause : Clause)
  | arithmetic (op : Arithmetic)
  | space
deriving DecidableEq

def Token.text : Token → String
  | .nameAlias i => "#" ++ toString i
  | .valueAlias i => ":" ++ toString i
  | .dot => "."
  | .index i => "[" ++ toString i ++ "]"
  | .comparison op => " " ++ op.sign ++ " "
  | .between => " BETWEEN "
  | .within => " IN ("
  | .connective .and => " AND "
  | .connective .or => " OR "
  | .not => "NOT ("
  | .call function => function.text ++ "("
  | .opening => "("
  | .closing => ")"
  | .comma => ", "
  | .clause c => c.keyword ++ " "
  | .arithmetic .plus => " + "
  | .arithmetic .minus => " - "
  | .space => " "

def Token.texts (tokens : List Token) : String := String.join (tokens.map Token.text)

/-- The tokens of several parts, with a token between each two of them. -/
def Token.separate (separator : Token) : List (List Token) → List Token
  | [] => []
  | [part] => part
  | part :: rest => part ++ separator :: Token.separate separator rest

def PathStep.tokens : PathStep Nat → List Token
  | .attribute name => [.dot, .nameAlias name]
  | .index i => [.index i]

def Path.tokens (path : Path Nat) : List Token :=
  .nameAlias path.head :: path.tail.flatMap PathStep.tokens

def Operand.tokens : Operand (Path Nat) Nat → List Token
  | .name path => path.tokens
  | .value literal => [.valueAlias literal]
  | .size path => .call .size :: path.tokens ++ [.closing]

namespace Condition

/-- The condition is a join by another operator than this one. -/
def joinsOtherwise {ν β : Type} (op : Connective) : Condition ν β → Bool
  | .join other _ _ => other ≠ op
  | _ => false

/-- The tokens, in parentheses where that is asked for. -/
def enclosed (wrap : Bool) (tokens : List Token) : List Token :=
  if wrap then .opening :: tokens ++ [.closing] else tokens

/--
The tokens of a condition.  A chain of one operator stands flat; a side that joins by the other
operator stands in parentheses, and so does what NOT applies to.
-/
def tokens : Condition (Path Nat) Nat → List Token
  | .compare op left right => left.tokens ++ .comparison op :: right.tokens
  | .between value low high =>
    value.tokens ++ .between :: low.tokens ++ .connective .and :: high.tokens
  | .within value candidates =>
    value.tokens ++ .within :: Token.separate .comma (candidates.map Operand.tokens) ++ [.closing]
  | .presence function path => .call (.presence function) :: path.tokens ++ [.closing]
  | .test function path literal =>
    .call (.test function) :: path.tokens ++ [.comma, .valueAlias literal, .closing]
  | .join op left right =>
    enclosed (left.joinsOtherwise op) left.tokens ++ .connective op
      :: enclosed (right.joinsOtherwise op) right.tokens
  | .not inner => .not :: inner.tokens ++ [.closing]

end Condition

def SortKeyCondition.tokens (condition : SortKeyCondition (Path Nat) Nat) : List Token :=
  match condition.test with
  | .compare op value =>
    condition.key.tokens ++ [.comparison op.toComparison, .valueAlias value]
  | .between low high =>
    condition.key.tokens ++ [.between, .valueAlias low, .connective .and, .valueAlias high]
  | .beginsWith leading =>
    .call (.test .beginsWith) :: condition.key.tokens ++ [.comma, .valueAlias leading, .closing]

def KeyCondition.tokens (condition : KeyCondition (Path Nat) Nat) : List Token :=
  let partition := condition.key.tokens ++ [.comparison .eq, .valueAlias condition.value]
  match condition.sort with
  | none => partition
  | some sort => partition ++ .connective .and :: sort.tokens

def Projection.tokens (projection : Projection (Path Nat)) : List Token :=
  Token.separate .comma (projection.names.map Path.tokens)

def SetValue.tokens : SetValue (Path Nat) Nat → List Token
  | .operand o => o.tokens
  | .arithmetic op left right => left.tokens ++ .arithmetic op :: right.tokens
  | .listAppend left right =>
    .call .listAppend :: left.tokens ++ .comma :: right.tokens ++ [.closing]
  | .ifNotExists path fallback =>
    .call .ifNotExists :: path.tokens ++ .comma :: fallback.tokens ++ [.closing]

/-- The tokens of a clause; none where it has no action. -/
def Clause.tokens (clause : Clause) (actions : List (List Token)) : List (List Token) :=
  if actions.isEmpty then [] else [.clause clause :: Token.separate .comma actions]

/-- The tokens of an update, its clauses in fixed order. -/
def Update.tokens (update : Update (Path Nat) Nat) : List Token :=
  let assign (action : Path Nat × SetValue (Path Nat) Nat) : List Token :=
    action.1.tokens ++ .comparison .eq :: action.2.tokens
  let change (action : Path Nat × Nat) : List Token :=
    action.1.tokens ++ [.space, .valueAlias action.2]
  Token.separate .space <|
    Clause.set.tokens (update.sets.map assign)
      ++ Clause.remove.tokens (update.removes.map Path.tokens)
      ++ Clause.add.tokens (update.adds.map change)
      ++ Clause.delete.tokens (update.deletes.map change)

end DynamoExpr
