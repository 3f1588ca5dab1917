/-!
# Base64

The standard alphabet with padding.  Writing pads the last group to four symbols; reading accepts
exactly what writing produces and reports the first fault with its byte offset.
-/

namespace DynamoExpr.Base64

/-- The symbols in the order of their values. -/
def alphabet : List Char :=
  "ABCDEFGHIJKLMNOPQRSTUVWXYZabcdefghijklmnopqrstuvwxyz0123456789+/".toList

def symbol (value : Nat) : Char := alphabet.getD value '='

def padding : UInt8 := 61

/-- Writes bytes as text, three at a time. -/
def encodeChars : List UInt8 → List Char
  | a :: b :: c :: rest =>
    let group := (a.toNat * 256 + b.toNat) * 256 + c.toNat
    symbol (group / 262144) :: symbol (group / 4096 % 64) :: symbol (group / 64 % 64)
      :: symbol (group % 64) :: encodeChars rest
  | [a, b] =>
    let group := (a.toNat * 256 + b.toNat) * 4
    [symbol (group / 4096), symbol (group / 64 % 64), symbol (group % 64), '=']
  | [a] =>
    let group := a.toNat * 16
    [symbol (group / 64), symbol (group % 64), '=', '=']
  | [] => []

def encode (bytes : List UInt8) : String := String.ofList (encodeChars bytes)

inductive Fault where
  /-- A byte that is no symbol, or padding out of its place. -/
  | symbol (byte : UInt8) (offset : Nat)
  /-- A last group of a single symbol; the length is that of the symbols. -/
  | length (symbols : Nat)
  /-- A last symbol with bits that belong to no byte. -/
  | lastSymbol (byte : UInt8) (offset : Nat)
  /-- A last group that is not filled up to four. -/
  | padding
deriving DecidableEq

def Fault.message : Fault → String
  | .symbol byte offset =>
    "Invalid symbol " ++ toString byte.toNat ++ ", offset " ++ toString offset ++ "."
  | .length symbols => "Invalid input length: " ++ toString symbols
  | .lastSymbol byte offset =>
    "Invalid last symbol " ++ toString byte.toNat ++ ", offset " ++ toString offset ++ "."
  | .padding => "Invalid padding"

def value? (byte : UInt8) : Option Nat :=
  let n := byte.toNat
  if 65 <= n ∧ n <= 90 then some (n - 65)
  else if 97 <= n ∧ n <= 122 then some (n - 97 + 26)
  else if 48 <= n ∧ n <= 57 then some (n - 48 + 52)
  else if n = 43 then some 62
  else if n = 47 then some 63
  else none

def valueAt (byte : UInt8) (offset : Nat) : Except Fault Nat :=
  match value? byte with
  | some value => .ok value
  | none => .error (.symbol byte offset)

/--
Reads the symbols of the last group and counts its padding.  Padding stands at the third place
or later, and no symbol follows it; a symbol that does is reported at the first padding.
-/
def readLast (start index : Nat) (firstPadding : Option Nat) :
    List UInt8 → Except Fault (List Nat × Nat)
  | [] => .ok ([], 0)
  | byte :: rest =>
    if byte = padding then
      if index < 2 then .error (.symbol byte (start + index))
      else do
        let (values, count) ← readLast start (index + 1) (firstPadding.or (some index)) rest
        .ok (values, count + 1)
    else
      match firstPadding with
      | some place => .error (.symbol padding (start + place))
      | none => do
        let value ← valueAt byte (start + index)
        let (values, count) ← readLast start (index + 1) none rest
        .ok (value :: values, count)

/-- The bytes of the last group's symbols; bits left over have to be zero. -/
def lastBytes (start : Nat) (group : List UInt8) : List Nat → Except Fault (List UInt8)
  | [a, b, c, d] =>
    let bits := ((a * 64 + b) * 64 + c) * 64 + d
    .ok [UInt8.ofNat (bits / 65536), UInt8.ofNat (bits / 256 % 256), UInt8.ofNat (bits % 256)]
  | [a, b, c] =>
    let bits := (a * 64 + b) * 64 + c
    if c % 4 = 0 then .ok [UInt8.ofNat (bits / 4 / 256), UInt8.ofNat (bits / 4 % 256)]
    else .error (.lastSymbol (group.getD 2 padding) (start + 2))
  | [a, b] =>
    if b % 16 = 0 then .ok [UInt8.ofNat ((a * 64 + b) / 16)]
    else .error (.lastSymbol (group.getD 1 padding) (start + 1))
  | _ => .ok []

/-- Reads the last group, of at most four bytes. -/
def decodeLast (start : Nat) (group : List UInt8) : Except Fault (List UInt8) := do
  let (values, count) ← readLast start 0 none group
  if group ≠ [] ∧ values.length < 2 then .error (.length (start + values.length))
  else if (values.length + count) % 4 ≠ 0 then .error .padding
  else lastBytes start group values

/-- Reads groups of four symbols; the last group is the one with nothing after it. -/
def decodeFrom (start : Nat) : List UInt8 → Except Fault (List UInt8)
  | a :: b :: c :: d :: e :: rest => do
    let first ← valueAt a start
    let second ← valueAt b (start + 1)
    let third ← valueAt c (start + 2)
    let fourth ← valueAt d (start + 3)
    let bits := ((first * 64 + second) * 64 + third) * 64 + fourth
    let bytes ← decodeFrom (start + 4) (e :: rest)
    .ok (UInt8.ofNat (bits / 65536) :: UInt8.ofNat (bits / 256 % 256)
      :: UInt8.ofNat (bits % 256) :: bytes)
  | group => decodeLast start group

/-- A single byte after the last full group that is neither symbol nor padding. -/
def strayEnd? (bytes : List UInt8) : Option Fault :=
  match bytes.getLast? with
  | some byte =>
    if bytes.length % 4 = 1 ∧ byte ≠ padding ∧ (value? byte).isNone then
      some (.symbol byte (bytes.length - 1))
    else none
  | none => none

/-- Reads text as bytes.  A stray byte at the end is reported before all else. -/
def decode (text : String) : Except Fault (List UInt8) :=
  let bytes := text.toList.flatMap String.utf8EncodeChar
  match strayEnd? bytes with
  | some fault => .error fault
  | none => decodeFrom 0 bytes

end DynamoExpr.Base64
