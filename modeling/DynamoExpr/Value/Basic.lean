import DynamoExpr.Json.Basic
import DynamoExpr.Text

/-!
# Attribute values

The values a table stores, their types, their construction from plain data, and a one-line display.
-/

namespace DynamoExpr

inductive AttributeType where
  | string
  | stringSet
  | number
  | numberSet
  | binary
  | binarySet
  | boolean
  | null
  | list
  | map
deriving DecidableEq

namespace AttributeType

def key : AttributeType → String
  | .string => "S"
  | .stringSet => "SS"
  | .number => "N"
  | .numberSet => "NS"
  | .binary => "B"
  | .binarySet => "BS"
  | .boolean => "BOOL"
  | .null => "NULL"
  | .list => "L"
  | .map => "M"

def all : List AttributeType :=
  [.string, .stringSet, .number, .numberSet, .binary, .binarySet, .boolean, .null, .list, .map]

def ofKey? (key : String) : Option AttributeType :=
  all.find? fun type => type.key = key

def isSet : AttributeType → Bool
  | .stringSet | .numberSet | .binarySet => true
  | _ => false

end AttributeType

/--
A stored value.  Numbers are kept as their text, sets as their members in the order given.  The
fields of a map may stand in any order; of several with one name the last one counts.
-/
inductive AttributeValue where
  | string (text : String)
  | number (text : String)
  | binary (bytes : List UInt8)
  | stringSet (members : List String)
  | numberSet (members : List String)
  | binarySet (members : List (List UInt8))
  | boolean (value : Bool)
  | null (value : Bool)
  | list (items : List AttributeValue)
  | map (fields : List (String × AttributeValue))

namespace AttributeValue

def type : AttributeValue → AttributeType
  | .string _ => .string
  | .number _ => .number
  | .binary _ => .binary
  | .stringSet _ => .stringSet
  | .numberSet _ => .numberSet
  | .binarySet _ => .binarySet
  | .boolean _ => .boolean
  | .null _ => .null
  | .list _ => .list
  | .map _ => .map

def ofInt (value : Int) : AttributeValue := .number (toString value)

/-- A floating-point number: the shortest digits that read back, without an exponent. -/
def ofFloat (format : Numeral.BinaryFormat) (value : Numeral.Binary) : AttributeValue :=
  .number (Numeral.Layout.plain.text format value)

/-- An optional value; absence is the null value. -/
def ofOption (value : Option AttributeValue) : AttributeValue := value.getD (.null true)

def ofFields (fields : List (String × AttributeValue)) : AttributeValue :=
  .map (Fields.ascending fields)

def ofType (type : AttributeType) : AttributeValue := .string type.key

mutual

/-- A JSON value: objects become maps, arrays lists, and numbers keep their JSON text. -/
def ofJson : Json → AttributeValue
  | .null => .null true
  | .bool value => .boolean value
  | .num (.int value) => .number (toString value)
  | .num (.float negative magnitude) =>
    .number (Numeral.Layout.json.text .double (.finite negative magnitude))
  | .str text => .string text
  | .arr items => .list (ofJsonItems items)
  | .obj members => .map (Fields.ascending (ofJsonMembers members))

def ofJsonItems : List Json → List AttributeValue
  | [] => []
  | item :: rest => ofJson item :: ofJsonItems rest

def ofJsonMembers : List (String × Json) → List (String × AttributeValue)
  | [] => []
  | (name, payload) :: rest => (name, ofJson payload) :: ofJsonMembers rest

end

/-!
## Display

A one-line description: the type key, then the payload, or how much of it there is.
-/

def braced (type : AttributeType) (payload : String) : String :=
  "\x7b" ++ type.key ++ ": " ++ payload ++ "\x7d"

def display : AttributeValue → String
  | .string text => braced .string text
  | .number text => braced .number text
  | .binary bytes => braced .binary (toString bytes.length ++ " bytes")
  | .stringSet members => braced .stringSet (Text.quoteList members)
  | .numberSet members => braced .numberSet (Text.quoteList members)
  | .binarySet members => braced .binarySet (toString members.length ++ " items")
  | .boolean value => braced .boolean (toString value)
  | .null value => braced .null (toString value)
  | .list items => braced .list (toString items.length ++ " items")
  | .map fields => braced .map (toString (Fields.ascending fields).length ++ " keys")

end AttributeValue

end DynamoExpr
