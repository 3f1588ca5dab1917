import DynamoExpr.Json.Decode

/-!
# The wire format of attribute values

An attribute value is written as an object with one member: its type key and its payload.  Reading
accepts exactly these objects.  Inside the object of a map the names are free, and of a repeated
one the last entry counts.
-/

namespace DynamoExpr

namespace AttributeValue

mutual

/-- The wire form of the value; the fields of a map go by ascending name. -/
def toJson : AttributeValue → Json
  | .string text => .obj [("S", .str text)]
  | .number text => .obj [("N", .str text)]
  | .binary bytes => .obj [("B", .str (Base64.encode bytes))]
  | .stringSet members => .obj [("SS", .arr (members.map .str))]
  | .numberSet members => .obj [("NS", .arr (members.map .str))]
  | .binarySet members => .obj [("BS", .arr (members.map fun b => .str (Base64.encode b)))]
  | .boolean value => .obj [("BOOL", .bool value)]
  | .null value => .obj [("NULL", .bool value)]
  | .list items => .obj [("L", .arr (itemsToJson items))]
  | .map fields => .obj [("M", .obj (Fields.ascending (fieldsToJson fields)))]

def itemsToJson : List AttributeValue → List Json
  | [] => []
  | item :: rest => toJson item :: itemsToJson rest

def fieldsToJson : List (String × AttributeValue) → List (String × Json)
  | [] => []
  | (name, value) :: rest => (name, toJson value) :: fieldsToJson rest

end

def readBinary (text : String) : Except DecodeError (List UInt8) :=
  (Base64.decode text).mapError .binary

mutual

/--
Reads a value from its wire form.  The payload of the first member is read before a second member
is refused.
-/
def fromJson : Json → Except DecodeError AttributeValue
  | .obj [] => .error .keyCount
  | .obj ((key, payload) :: rest) =>
    match AttributeType.ofKey? key with
    | none => .error (.unknownKey key)
    | some type => do
      let value ← fromPayload type payload
      if rest.isEmpty then .ok value else .error .keyCount
  | other => .error (.kind other .attributeValue)

def fromPayload (type : AttributeType) (payload : Json) : Except DecodeError AttributeValue :=
  match type with
  | .string => payload.text.map .string
  | .number => payload.text.map .number
  | .binary => do return .binary (← readBinary (← payload.text))
  | .stringSet => payload.texts.map .stringSet
  | .numberSet => payload.texts.map .numberSet
  | .binarySet => do return .binarySet (← (← payload.texts).mapM readBinary)
  | .boolean => payload.boolean.map .boolean
  | .null => payload.boolean.map .null
  | .list =>
    match payload with
    | .arr items => do return .list (← itemsFromJson items)
    | other => .error (.kind other .sequence)
  | .map =>
    match payload with
    | .obj members => do return .map (Fields.ascending (← fieldsFromJson members))
    | other => .error (.kind other .map)

def itemsFromJson : List Json → Except DecodeError (List AttributeValue)
  | [] => .ok []
  | item :: rest => do
    let value ← fromJson item
    let values ← itemsFromJson rest
    .ok (value :: values)

/-- Reads the members in order, those that a later one replaces as well. -/
def fieldsFromJson : List (String × Json) → Except DecodeError (List (String × AttributeValue))
  | [] => .ok []
  | (name, payload) :: rest => do
    let value ← fromJson payload
    let values ← fieldsFromJson rest
    .ok ((name, value) :: values)

end

end AttributeValue

/-- Reads an attribute type: its key, or an object with the key as its one name and null in it. -/
def AttributeType.fromJson : Json → Except DecodeError AttributeType
  | .str name => named name
  | .obj [(name, payload)] => do
    let type ← named name
    match payload with
    | .null => .ok type
    | other => .error (.kind other .unit)
  | .obj members => .error (.range (.obj members) .singleKey)
  | other => .error (.kind other .typeName)
where
  /-- The type of a key. -/
  named (name : String) : Except DecodeError AttributeType :=
    match AttributeType.ofKey? name with
    | some type => .ok type
    | none => .error (.unknownType name)

end DynamoExpr
