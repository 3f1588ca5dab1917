import DynamoExpr.Json.Number

/-!
# Reading JSON text

A reader that accepts exactly the JSON grammar, with a bound on how deep containers nest.
-/

namespace DynamoExpr.Json

/-- The four characters that may stand between the tokens. -/
def isBlank (c : Char) : Bool := c == ' ' || c == '\n' || c == '\t' || c == '\r'

def skipBlank (text : List Char) : List Char := text.dropWhile isBlank

def hexDigit? (c : Char) : Option Nat :=
  if c.isDigit then some (c.toNat - '0'.toNat)
  else if 'a' <= c ∧ c <= 'f' then some (c.toNat - 'a'.toNat + 10)
  else if 'A' <= c ∧ c <= 'F' then some (c.toNat - 'A'.toNat + 10)
  else none

def hexQuad? (a b c d : Char) : Option Nat := do
  let a ← hexDigit? a
  let b ← hexDigit? b
  let c ← hexDigit? c
  let d ← hexDigit? d
  some (((a * 16 + b) * 16 + c) * 16 + d)

/-- The character that a backslash and one letter stand for. -/
def escaped? (c : Char) : Option Char :=
  if c = '"' ∨ c = '\\' ∨ c = '/' then some c
  else if c = 'b' then some '\x08'
  else if c = 'f' then some '\x0c'
  else if c = 'n' then some '\n'
  else if c = 'r' then some '\r'
  else if c = 't' then some '\t'
  else none

def isHighSurrogate (n : Nat) : Bool := 0xd800 <= n && n <= 0xdbff

def isLowSurrogate (n : Nat) : Bool := 0xdc00 <= n && n <= 0xdfff

/--
Reads the characters of a string up to its closing quote.  A surrogate counts only as a half of a
pair, and a control character has to be escaped.
-/
def readChars : List Char → Option (List Char × List Char)
  | [] => none
  | '"' :: rest => some ([], rest)
  | '\\' :: 'u' :: a :: b :: c :: d :: rest => do
    let first ← hexQuad? a b c d
    if isLowSurrogate first then none
    else if isHighSurrogate first then
      match rest with
      | '\\' :: 'u' :: e :: f :: g :: h :: rest => do
        let second ← hexQuad? e f g h
        if isLowSurrogate second then
          let (chars, after) ← readChars rest
          some (Char.ofNat (0x10000 + (first - 0xd800) * 0x400 + (second - 0xdc00)) :: chars, after)
        else none
      | _ => none
    else
      let (chars, after) ← readChars rest
      some (Char.ofNat first :: chars, after)
  | '\\' :: c :: rest => do
    let char ← escaped? c
    let (chars, after) ← readChars rest
    some (char :: chars, after)
  | c :: rest =>
    if c.toNat < 0x20 ∨ c = '\\' then none
    else do
      let (chars, after) ← readChars rest
      some (c :: chars, after)

/-- The text after the word, if it starts with it. -/
def dropWord? (word : String) (text : List Char) : Option (List Char) :=
  if word.toList.isPrefixOf text then some (text.drop word.length) else none

/-- What a text begins with: a whole scalar, or the mark that opens a container. -/
inductive Head where
  | scalar (value : Json)
  | array
  | object

/-- The value as far as its head shows it: a container has no members yet. -/
def Head.outline : Head → Json
  | .scalar value => value
  | .array => .arr []
  | .object => .obj []

def readString (text : List Char) : Option (String × List Char) :=
  match skipBlank text with
  | '"' :: rest => (readChars rest).map fun (chars, after) => (String.ofList chars, after)
  | _ => none

/-- Reads a scalar, or only the opening mark of a container. -/
def readHead (text : List Char) : Option (Head × List Char) :=
  match skipBlank text with
  | '[' :: rest => some (.array, rest)
  | '\x7b' :: rest => some (.object, rest)
  | '"' :: _ => (readString text).map fun (value, after) => (.scalar (.str value), after)
  | 'n' :: rest => (dropWord? "ull" rest).map fun after => (.scalar .null, after)
  | 't' :: rest => (dropWord? "rue" rest).map fun after => (.scalar (.bool true), after)
  | 'f' :: rest => (dropWord? "alse" rest).map fun after => (.scalar (.bool false), after)
  | other => (JsonNumber.read other).map fun (number, after) => (.scalar (.num number), after)

mutual

/-- Reads the value at the head of the text; `depth` more containers may be opened. -/
def readValue (fuel depth : Nat) (text : List Char) : Option (Json × List Char) :=
  match fuel with
  | 0 => none
  | fuel + 1 =>
    match readHead text, depth with
    | some (.scalar value, rest), _ => some (value, rest)
    | some (.array, rest), depth + 1 =>
      match skipBlank rest with
      | ']' :: after => some (.arr [], after)
      | _ => (readItems fuel depth rest).map fun (items, after) => (.arr items, after)
    | some (.object, rest), depth + 1 =>
      match skipBlank rest with
      | '\x7d' :: after => some (.obj [], after)
      | _ => (readMembers fuel depth rest).map fun (members, after) => (.obj members, after)
    | _, _ => none

/-- Reads one item or more, up to the closing bracket. -/
def readItems (fuel depth : Nat) (text : List Char) : Option (List Json × List Char) :=
  match fuel with
  | 0 => none
  | fuel + 1 =>
    match readValue fuel depth text with
    | none => none
    | some (item, afterItem) =>
      match skipBlank afterItem with
      | ']' :: after => some ([item], after)
      | ',' :: rest =>
        (readItems fuel depth rest).map fun (items, after) => (item :: items, after)
      | _ => none

def readMembers (fuel depth : Nat) (text : List Char) :
    Option (List (String × Json) × List Char) :=
  match fuel with
  | 0 => none
  | fuel + 1 =>
    match readString text with
    | none => none
    | some (name, afterName) =>
      match skipBlank afterName with
      | ':' :: rest =>
        match readValue fuel depth rest with
        | none => none
        | some (payload, afterPayload) =>
          match skipBlank afterPayload with
          | '\x7d' :: after => some ([(name, payload)], after)
          | ',' :: rest =>
            (readMembers fuel depth rest).map fun (members, after) =>
              ((name, payload) :: members, after)
          | _ => none
      | _ => none

end

/-- How many containers may be open at once. -/
def depthLimit : Nat := 127

/-- Reads the whole text as one value; `none` where it is not JSON or nests too deep. -/
def read? (text : String) : Option Json :=
  let chars := text.toList
  match readValue (2 * chars.length + 2) depthLimit chars with
  | some (value, rest) => if skipBlank rest = [] then some value else none
  | none => none

end DynamoExpr.Json
