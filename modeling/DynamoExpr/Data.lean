import DynamoExpr.Value.Basic

/-!
# Plain data and its conversion

Data as a program offers it for storing.  It becomes an attribute value by way of JSON.  Nothing is
coerced: data with a number that is not finite, in keys or in values, is refused before anything is
converted.
-/

namespace DynamoExpr

inductive Data where
  | bool (value : Bool)
  | int (value : Int)
  /-- A number of 32 bits. -/
  | single (value : Numeral.Binary)
  /-- A number of 64 bits. -/
  | double (value : Numeral.Binary)
  | text (value : String)
  | bytes (value : List UInt8)
  /-- No data: an empty option, or a type with one value. -/
  | absent
  /-- A filled option. -/
  | present (inner : Data)
  /-- Data under a type name of its own, which leaves no trace. -/
  | wrapped (inner : Data)
  | seq (items : List Data)
  | map (entries : List (Data × Data))
  | record (fields : List (String × Data))
  /-- An alternative by its name alone. -/
  | tag (name : String)
  /-- An alternative by its name, with data. -/
  | tagged (name : String) (inner : Data)
  /-- Data that cannot be had, for the reason given. -/
  | failing (reason : String)
  | json (value : Json)

inductive DataFault where
  | notFinite (number : Numeral.Binary)
  | intRange
  | keyKind
  | keyNotFinite
  | custom (reason : String)
deriving DecidableEq

def DataFault.message : DataFault → String
  | .notFinite number => "non-finite number " ++ Numeral.Layout.plain.text .double number
  | .intRange => "number out of range"
  | .keyKind => "key must be a string"
  | .keyNotFinite => "float key must be finite (got NaN or +/-inf)"
  | .custom reason => reason

end DynamoExpr

namespace DynamoExpr.Data

/-! ## The check for finite numbers -/

def finiteNumber (number : Numeral.Binary) : Except DataFault Unit :=
  if number.isFinite then .ok () else .error (.notFinite number)

mutual

/-- Checks that every number in the data is finite, keys included, and that all of it can be had. -/
def checkFinite : Data → Except DataFault Unit
  | .single value => finiteNumber value
  | .double value => finiteNumber value
  | .present inner => checkFinite inner
  | .wrapped inner => checkFinite inner
  | .seq items => checkItems items
  | .map entries => checkEntries entries
  | .record fields => checkFields fields
  | .tagged _ inner => checkFinite inner
  | .failing reason => .error (.custom reason)
  | _ => .ok ()

def checkItems : List Data → Except DataFault Unit
  | [] => .ok ()
  | item :: rest => do
    checkFinite item
    checkItems rest

/-- Checks the entries in order, each key before its value. -/
def checkEntries : List (Data × Data) → Except DataFault Unit
  | [] => .ok ()
  | (key, value) :: rest => do
    checkFinite key
    checkFinite value
    checkEntries rest

def checkFields : List (String × Data) → Except DataFault Unit
  | [] => .ok ()
  | (_, value) :: rest => do
    checkFinite value
    checkFields rest

end

/-! ## Conversion -/

def floatKey (layout : Numeral.Layout) (format : Numeral.BinaryFormat)
    (number : Numeral.Binary) : Except DataFault String :=
  if number.isFinite then .ok (layout.text format number) else .error .keyNotFinite

/-- The key text of a JSON value, which is a string, a boolean or a number. -/
def jsonKey : Json → Except DataFault String
  | .str name => .ok name
  | .bool value => .ok (toString value)
  | .num number => .ok number.text
  | _ => .error .keyKind

def keyText : Data → Except DataFault String
  | .bool value => .ok (toString value)
  | .int value => .ok (toString value)
  | .single value => floatKey .jsonKey .single value
  | .double value => floatKey .json .double value
  | .text value => .ok value
  | .tag name => .ok name
  | .wrapped inner => keyText inner
  | .json value => jsonKey value
  | .failing reason => .error (.custom reason)
  | _ => .error .keyKind

/-- A whole number of 64 bits, signed or unsigned. -/
def intJson (value : Int) : Except DataFault Json :=
  if -(Nat.pow 2 63 : Nat) <= value ∧ value < (Nat.pow 2 64 : Nat) then .ok (.num (.int value)) else .error .intRange

/-- A number of 64 bits; one without a finite value is null. -/
def floatJson : Numeral.Binary → Json
  | .finite negative magnitude => .num (.float negative magnitude)
  | _ => .null

mutual

/-- The data as JSON: bytes as an array of numbers, alternatives with data as an object of one. -/
def toJson : Data → Except DataFault Json
  | .bool value => .ok (.bool value)
  | .int value => intJson value
  | .single value => .ok (floatJson (Numeral.widen value))
  | .double value => .ok (floatJson value)
  | .text value => .ok (.str value)
  | .bytes value => .ok (.arr (value.map fun byte => .num (.int byte.toNat)))
  | .absent => .ok .null
  | .present inner => toJson inner
  | .wrapped inner => toJson inner
  | .seq items => (itemsToJson items).map .arr
  | .map entries => (entriesToJson entries).map fun members => .obj (Fields.ascending members)
  | .record fields => (fieldsToJson fields).map fun members => .obj (Fields.ascending members)
  | .tag name => .ok (.str name)
  | .tagged name inner => (toJson inner).map fun payload => .obj [(name, payload)]
  | .failing reason => .error (.custom reason)
  | .json value => .ok value

def itemsToJson : List Data → Except DataFault (List Json)
  | [] => .ok []
  | item :: rest => do
    let value ← toJson item
    let values ← itemsToJson rest
    .ok (value :: values)

def entriesToJson : List (Data × Data) → Except DataFault (List (String × Json))
  | [] => .ok []
  | (key, value) :: rest => do
    let name ← keyText key
    let payload ← toJson value
    let members ← entriesToJson rest
    .ok ((name, payload) :: members)

def fieldsToJson : List (String × Data) → Except DataFault (List (String × Json))
  | [] => .ok []
  | (name, value) :: rest => do
    let payload ← toJson value
    let members ← fieldsToJson rest
    .ok ((name, payload) :: members)

end

def toValue (data : Data) : Except DataFault AttributeValue := do
  checkFinite data
  let json ← toJson data
  .ok (AttributeValue.ofJson json)

end DynamoExpr.Data
