import DynamoExpr.Numeral.Shortest

/-!
# JSON values and their text

JSON values with the members of an object in the order of the text, repeated names included.  The
last field of a name is the one that counts, and the normal form has the names ascending, each one
once.  The compact text of a value has no blanks, members in their order, and an escape only for the
quote, the backslash and the controls.
-/

/-! ## Named fields -/

namespace DynamoExpr.Fields

/-- Puts a field in its place by name; it replaces one of the same name. -/
def insert {α : Type} (name : String) (x : α) : List (String × α) → List (String × α)
  | [] => [(name, x)]
  | (other, y) :: rest =>
    if name < other then (name, x) :: (other, y) :: rest
    else if name = other then (name, x) :: rest
    else (other, y) :: insert name x rest

/-- The fields by ascending name; of several with one name the last. -/
def ascending {α : Type} (fields : List (String × α)) : List (String × α) :=
  fields.foldl (fun sorted field => insert field.1 field.2 sorted) []

end DynamoExpr.Fields

namespace DynamoExpr

/-! ## Values -/

/-- A JSON number: a whole number, or a double. -/
inductive JsonNumber where
  | int (value : Int)
  | float (negative : Bool) (magnitude : Numeral.Magnitude)
deriving DecidableEq

def JsonNumber.text : JsonNumber → String
  | .int value => toString value
  | .float negative magnitude => Numeral.Layout.json.text .double (.finite negative magnitude)

inductive Json where
  | null
  | bool (value : Bool)
  | num (value : JsonNumber)
  | str (value : String)
  | arr (items : List Json)
  | obj (members : List (String × Json))

namespace Json

mutual

/-- The value with the members of every object by ascending name, the last of each name kept. -/
def ascending : Json → Json
  | .arr items => .arr (ascendingItems items)
  | .obj members => .obj (Fields.ascending (ascendingMembers members))
  | other => other

def ascendingItems : List Json → List Json
  | [] => []
  | item :: rest => ascending item :: ascendingItems rest

def ascendingMembers : List (String × Json) → List (String × Json)
  | [] => []
  | (name, payload) :: rest => (name, ascending payload) :: ascendingMembers rest

end

/-! ## The compact text -/

def escapeChar (c : Char) : List Char :=
  if c = '"' then ['\\', '"']
  else if c = '\\' then ['\\', '\\']
  else if c = '\x08' then ['\\', 'b']
  else if c = '\x0c' then ['\\', 'f']
  else if c = '\n' then ['\\', 'n']
  else if c = '\r' then ['\\', 'r']
  else if c = '\t' then ['\\', 't']
  else if c.toNat < 0x20 then
    ['\\', 'u', '0', '0'] ++ (if c.toNat < 0x10 then ['0'] else []) ++ Nat.toDigits 16 c.toNat
  else [c]

def quoted (text : String) : String :=
  String.ofList ('"' :: text.toList.flatMap escapeChar ++ ['"'])

mutual

def compact : Json → String
  | .null => "null"
  | .bool true => "true"
  | .bool false => "false"
  | .num value => value.text
  | .str value => quoted value
  | .arr items => "[" ++ ",".intercalate (compactItems items) ++ "]"
  | .obj members => "\x7b" ++ ",".intercalate (compactMembers members) ++ "\x7d"

def compactItems : List Json → List String
  | [] => []
  | item :: rest => compact item :: compactItems rest

def compactMembers : List (String × Json) → List String
  | [] => []
  | (name, payload) :: rest =>
    (quoted name ++ ":" ++ compact payload) :: compactMembers rest

end

end Json

end DynamoExpr
