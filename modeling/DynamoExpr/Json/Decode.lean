import DynamoExpr.Base64
import DynamoExpr.Json.Basic
import DynamoExpr.Text
import DynamoExpr.Value.Basic

/-!
# Refusals of JSON values

Why a JSON value does not stand for the thing that was asked for, and the wording of that.
-/

namespace DynamoExpr

inductive Expectation where
  | text
  | sequence
  | boolean
  | map
  | attributeValue
  | typeName
  | singleKey
  | unit
  | config
  | limit
deriving DecidableEq

def Expectation.words : Expectation → String
  | .text => "a string"
  | .sequence => "a sequence"
  | .boolean => "a boolean"
  | .map => "a map"
  | .attributeValue => "a DynamoDB AttributeValue object with exactly one type key"
  | .typeName => "string or map"
  | .singleKey => "map with a single key"
  | .unit => "unit"
  | .config => "struct ExpressionConfig"
  | .limit => "usize"

def Json.words : Json → String
  | .null => "null"
  | .bool value => "boolean `" ++ toString value ++ "`"
  | .num (.int value) => "integer `" ++ toString value ++ "`"
  | .num number => "floating point `" ++ number.text ++ "`"
  | .str text => "string " ++ Text.quote text
  | .arr _ => "sequence"
  | .obj _ => "map"

inductive DecodeError where
  /-- A value of the wrong kind. -/
  | kind (found : Json) (expected : Expectation)
  /-- A value of the right kind that is out of range. -/
  | range (found : Json) (expected : Expectation)
  /-- An attribute value with no key, or with a second one. -/
  | keyCount
  /-- A key that is no type key of an attribute value. -/
  | unknownKey (key : String)
  /-- A name that is no attribute type. -/
  | unknownType (name : String)
  /-- An array with more items than are read. -/
  | surplus (count : Nat)
  /-- Binary data that is not Base64. -/
  | binary (fault : Base64.Fault)

/-- The type keys in the order in which a refused key is answered. -/
def wireKeys : List AttributeType :=
  [.string, .number, .binary, .stringSet, .numberSet, .binarySet, .boolean, .null, .list, .map]

def keyList (types : List AttributeType) : String :=
  ", ".intercalate (types.map fun type => "`" ++ type.key ++ "`")

def DecodeError.message : DecodeError → String
  | .kind found expected => "invalid type: " ++ found.words ++ ", expected " ++ expected.words
  | .range found expected => "invalid value: " ++ found.words ++ ", expected " ++ expected.words
  | .keyCount => "AttributeValue must have exactly one key"
  | .unknownKey key => "unknown field `" ++ key ++ "`, expected one of " ++ keyList wireKeys
  | .unknownType name =>
    "unknown variant `" ++ name ++ "`, expected one of " ++ keyList AttributeType.all
  | .surplus count =>
    "invalid length " ++ toString count ++ ", expected fewer elements in array"
  | .binary fault => fault.message

namespace Json

def text : Json → Except DecodeError String
  | .str value => .ok value
  | other => .error (.kind other .text)

def boolean : Json → Except DecodeError Bool
  | .bool value => .ok value
  | other => .error (.kind other .boolean)

def texts : Json → Except DecodeError (List String)
  | .arr items => items.mapM text
  | other => .error (.kind other .sequence)

end Json

end DynamoExpr
