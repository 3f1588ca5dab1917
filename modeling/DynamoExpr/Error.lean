import DynamoExpr.Data
import DynamoExpr.Path
import DynamoExpr.Value.Storable

/-!
# Errors of expressions

The five kinds of expression, and why one cannot be built.
-/

namespace DynamoExpr

inductive ExpressionKind where
  | condition
  | filter
  | keyCondition
  | projection
  | update
deriving DecidableEq

def ExpressionKind.memberName : ExpressionKind → String
  | .condition => "ConditionExpression"
  | .filter => "FilterExpression"
  | .keyCondition => "KeyConditionExpression"
  | .projection => "ProjectionExpression"
  | .update => "UpdateExpression"

/-- All kinds, in the order in which trees are aliased. -/
def ExpressionKind.all : List ExpressionKind :=
  [.condition, .filter, .keyCondition, .projection, .update]

inductive LiteralClause where
  | add
  | delete
deriving DecidableEq

def LiteralClause.keyword : LiteralClause → String
  | .add => "ADD"
  | .delete => "DELETE"

inductive ParameterFault where
  | name (error : NameError)
  | emptyIn
  | longIn (limit count : Nat)
  | listMember
  | sameKey
  | emptyProjection
  | emptyUpdate
  | actionType (clause : LiteralClause) (type : AttributeType)
  | sizeInUpdate
  | nestedArithmetic
  | tooLong (kind : ExpressionKind) (length limit : Nat)
  | storage (fault : StorageFault)
  | data (fault : DataFault)
deriving DecidableEq

def ParameterFault.message : ParameterFault → String
  | .name error => error.message
  | .emptyIn => "IN requires at least one candidate"
  | .longIn limit count =>
    "IN accepts at most " ++ toString limit ++ " candidates, got " ++ toString count
  | .listMember => "list operands may only contain literal values"
  | .sameKey => "partition key and sort key conditions must name different attributes"
  | .emptyProjection => "projection must name at least one attribute"
  | .emptyUpdate => "update must contain at least one action"
  | .actionType clause type =>
    clause.keyword ++ " does not accept a value of type " ++ type.key
  | .sizeInUpdate => "size() cannot be used in an update expression"
  | .nestedArithmetic => "a SET value allows a single '+' or '-'"
  | .tooLong kind length limit =>
    kind.memberName ++ " is " ++ toString length ++ " bytes long, the limit is " ++ toString limit
  | .storage fault => fault.message
  | .data fault => "unsupported value: " ++ fault.message

inductive ExpressionError where
  | invalid (fault : ParameterFault)
  /-- There is no tree to build from. -/
  | unset
deriving DecidableEq

def ExpressionError.message : ExpressionError → String
  | .invalid fault => "invalid parameter: " ++ fault.message
  | .unset => "unset parameter: ExpressionBuilder"

end DynamoExpr
