import DynamoExpr.Json.Reader
import DynamoExpr.Value.Wire

/-!
# Attribute values as text

The wire format as text.  A text that is no wire form is answered with the first fault in it from
left to right, be it a value that is refused or the place where the text stops being JSON.
-/

/-!
## Scanning JSON text

Steps over a JSON text from left to right, in which a refusal stands where the text brings it: a
value can be refused before the text behind it is known to be JSON.
-/

namespace DynamoExpr

inductive TextFault where
  /-- The text is not JSON, or nests too deep. -/
  | malformed
  /-- The text brings a value that is refused. -/
  | refused (error : DecodeError)

/-- A step over the head of a text, which leaves the rest of it or ends at the first fault. -/
abbrev Scan := StateT (List Char) (Except TextFault)

namespace Scan

def malformed {α : Type} : Scan α := throw .malformed

def accept {α : Type} (found : Except DecodeError α) : Scan α := fun text =>
  match found with
  | .ok value => .ok (value, text)
  | .error error => .error (.refused error)

def reading {α : Type} (read : List Char → Option (α × List Char)) : Scan α := fun text =>
  match read text with
  | some found => .ok found
  | none => .error .malformed

/-- Steps over the mark if it comes next, and says whether it does. -/
def tryMark (mark : Char) : Scan Bool := fun text =>
  match Json.skipBlank text with
  | [] => .ok (false, text)
  | c :: rest => if c = mark then .ok (true, rest) else .ok (false, text)

def expectMark (mark : Char) : Scan Unit := do
  unless ← tryMark mark do malformed

/-- Steps over a scalar of the wanted kind.  A container is refused at its opening mark. -/
def scalar {α : Type} (decode : Json → Except DecodeError α) : Scan α := do
  accept (decode (← reading Json.readHead).outline)

/-- Steps over one element or more, up to the closing mark. -/
def elements {α : Type} (closing : Char) (element : Scan α) : Nat → Scan (List α)
  | 0 => malformed
  | fuel + 1 => do
    let first ← element
    if ← tryMark closing then return [first]
    expectMark ','
    return first :: (← elements closing element fuel)

/-- Steps over the elements of an opened container and its closing mark. -/
def container {α : Type} (closing : Char) (element : Scan α) : Scan (List α) := do
  if ← tryMark closing then return []
  elements closing element (← get).length

def texts (depth : Nat) : Scan (List String) := do
  match ← reading Json.readHead, depth with
  | .array, _ + 1 => container ']' (scalar Json.text)
  | .array, 0 => malformed
  | other, _ => accept (.error (.kind other.outline .sequence))

end Scan

end DynamoExpr

/-! ## Scanning the wire form -/

namespace DynamoExpr.AttributeValue

open Scan

mutual

/--
Steps over the wire form of a value; `depth` more containers may be opened.  A key is refused
before its payload is looked at, a second key as soon as it is read.
-/
def scanValue (depth : Nat) : Scan Unit := do
  match ← reading Json.readHead, depth with
  | .object, depth + 1 =>
    if ← tryMark '\x7d' then accept (.error .keyCount)
    let key ← reading Json.readString
    match AttributeType.ofKey? key with
    | none => accept (.error (.unknownKey key))
    | some type =>
      expectMark ':'
      scanPayload depth type
      unless ← tryMark '\x7d' do
        expectMark ','
        let _ ← reading Json.readString
        accept (.error .keyCount)
  | .object, 0 => malformed
  | other, _ => accept (.error (.kind other.outline .attributeValue))

/-- Steps over the payload of a type.  The members of a set of binaries are decoded at its end. -/
def scanPayload (depth : Nat) (type : AttributeType) : Scan Unit := do
  match type with
  | .string | .number => let _ ← scalar Json.text
  | .binary => let _ ← scalar fun payload => payload.text.bind readBinary
  | .boolean | .null => let _ ← scalar Json.boolean
  | .stringSet | .numberSet => let _ ← texts depth
  | .binarySet => let _ ← accept ((← texts depth).mapM readBinary)
  | .list =>
    match ← reading Json.readHead, depth with
    | .array, depth + 1 => let _ ← container ']' (scanValue depth)
    | .array, 0 => malformed
    | other, _ => accept (.error (.kind other.outline .sequence))
  | .map =>
    match ← reading Json.readHead, depth with
    | .object, depth + 1 =>
      let _ ← container '\x7d' do
        let _ ← reading Json.readString
        expectMark ':'
        scanValue depth
    | .object, 0 => malformed
    | other, _ => accept (.error (.kind other.outline .map))

end

/-- The first fault in a text that is not JSON. -/
def firstFault (text : String) : TextFault :=
  match (scanValue Json.depthLimit).run text.toList with
  | .error fault => fault
  | .ok _ => .malformed

def fromText (text : String) : Except TextFault AttributeValue :=
  match Json.read? text with
  | some json => (fromJson json).mapError .refused
  | none => .error (firstFault text)

end DynamoExpr.AttributeValue
