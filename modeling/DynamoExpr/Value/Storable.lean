import DynamoExpr.Numeral.Decimal
import DynamoExpr.Text
import DynamoExpr.Value.Basic

/-!
# Storable values

The values that a table accepts: every number text, at every depth, is a decimal that is finite as
a double, every set has members and none twice, and there is no null value other than true.
-/

namespace DynamoExpr

inductive StorageFault where
  | nullFalse
  | number (text : String)
  | emptySet (type : AttributeType)
  | repeatedMember (type : AttributeType)
deriving DecidableEq

def memberWord : AttributeType → String
  | .stringSet => "string"
  | .numberSet => "number"
  | _ => "binary"

def StorageFault.message : StorageFault → String
  | .nullFalse => "null value must be \x7b\"NULL\": true\x7d"
  | .number text => "invalid number value " ++ Text.quote text
  | .emptySet type => memberWord type ++ " set value must not be empty"
  | .repeatedMember type => memberWord type ++ " set value contains duplicate members"

namespace AttributeValue

/-- The magnitude from which rounding to a double gives infinity. -/
def numberLimit : Nat := Nat.pow 2 1024 - Nat.pow 2 970

/-- The text, blanks at its ends aside, is a decimal numeral below the limit. -/
def isFiniteNumber (text : String) : Bool :=
  match Numeral.Decimal.read? (Text.trim text.toList) with
  | some d => d.below numberLimit
  | none => false

def checkNumber (text : String) : Except StorageFault Unit :=
  if isFiniteNumber text then .ok () else .error (.number text)

/-- Checks that a set has members, and none of them twice. -/
def checkSet {α : Type} [DecidableEq α] (type : AttributeType) (members : List α) :
    Except StorageFault Unit :=
  if members = [] then .error (.emptySet type)
  else if members.Nodup then .ok ()
  else .error (.repeatedMember type)

mutual

/-- Checks that the value can be stored, from its first part to its last. -/
def check : AttributeValue → Except StorageFault Unit
  | .number text => checkNumber text
  | .stringSet members => checkSet .stringSet members
  | .numberSet members => do
    checkSet .numberSet members
    members.forM checkNumber
  | .binarySet members => checkSet .binarySet members
  | .list items => checkItems items
  | .map fields => (Fields.ascending (checkFields fields)).forM fun field => field.2
  | .null false => .error .nullFalse
  | _ => .ok ()

def checkItems : List AttributeValue → Except StorageFault Unit
  | [] => .ok ()
  | item :: rest => do
    check item
    checkItems rest

def checkFields : List (String × AttributeValue) → List (String × Except StorageFault Unit)
  | [] => []
  | (name, value) :: rest => (name, check value) :: checkFields rest

end

end AttributeValue

end DynamoExpr
