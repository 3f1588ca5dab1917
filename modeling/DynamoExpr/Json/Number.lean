import DynamoExpr.Json.Basic
import DynamoExpr.Numeral.Decimal

/-!
# JSON numbers

The value of a JSON numeral.  A numeral without point and exponent is a whole number as long as
it fits into 64 bits, signed or unsigned.  Any other is a double, found from the leading digits
that fit into 64 bits and one scaling by a power of ten.
-/

namespace DynamoExpr.JsonNumber

open Numeral

/-- A numeral taken apart: the digits before and after the point, and the exponent. -/
structure Parts where
  negative : Bool
  whole : List Char
  fraction : List Char
  exponent : Int
  /-- It has neither point nor exponent. -/
  isWhole : Bool

/-- Extends the number by the digits, one by one, as long as it stays below `2 ^ 64`; counts them. -/
def absorb (value : Nat) : List Char → Nat × Nat
  | [] => (value, 0)
  | digit :: rest =>
    let next := 10 * value + digitsValue [digit]
    if next < Nat.pow 2 64 then
      let (final, taken) := absorb next rest
      (final, taken + 1)
    else (value, 0)

def powerOfTen (n : Nat) : Option Magnitude := BinaryFormat.double.nearest? (Nat.pow 10 n) 1

/--
The number times a power of ten, rounded at each step; `none` where it is too large.  Up to 308
one multiplication or division does it, below that two divisions.
-/
def scale? (number : Nat) (exponent : Int) : Option Magnitude :=
  let double := BinaryFormat.double
  if number = 0 then double.nearest? 0 1
  else if 308 < exponent then none
  else do
    let start ← double.nearest? number 1
    if 0 <= exponent then double.mul? start (← powerOfTen exponent.toNat)
    else if -308 <= exponent then double.div? start (← powerOfTen (-exponent).toNat)
    else if -616 <= exponent then
      let lower ← double.div? start (← powerOfTen 308)
      double.div? lower (← powerOfTen (-exponent - 308).toNat)
    else double.nearest? 0 1

def Parts.float? (parts : Parts) : Option JsonNumber :=
  let (leading, taken) := absorb 0 parts.whole
  let (significand, places) := absorb leading parts.fraction
  let exponent : Int := parts.exponent + (parts.whole.length - taken : Nat) - places
  (scale? significand exponent).map (.float parts.negative)

/-- The number that a numeral stands for; `none` where it is beyond the doubles. -/
def Parts.value? (parts : Parts) : Option JsonNumber :=
  let magnitude := digitsValue parts.whole
  if parts.isWhole ∧ ¬ parts.negative ∧ magnitude < Nat.pow 2 64 then some (.int magnitude)
  else if parts.isWhole ∧ parts.negative ∧ 0 < magnitude ∧ magnitude <= Nat.pow 2 63 then
    some (.int (-(magnitude : Int)))
  else parts.float?

/-- The digits at the head of the text, at least one, and the rest. -/
def readDigits (text : List Char) : Option (List Char × List Char) :=
  match text.takeWhile Char.isDigit with
  | [] => none
  | digits => some (digits, text.dropWhile Char.isDigit)

/-- The digits before the point: a single zero, or digits that start with another one. -/
def readWhole (text : List Char) : Option (List Char × List Char) := do
  let (digits, rest) ← readDigits text
  if digits.length = 1 ∨ digits.head? ≠ some '0' then some (digits, rest) else none

def readFraction : List Char → Option (List Char × List Char)
  | '.' :: rest => readDigits rest
  | text => some ([], text)

def readPower (text : List Char) : Option (Int × List Char) :=
  match text with
  | [] => some (0, [])
  | mark :: rest =>
    if mark = 'e' ∨ mark = 'E' then do
      let (digits, after) ← readDigits (dropSign rest)
      let size : Int := digitsValue digits
      some (if rest.head? = some '-' then -size else size, after)
    else some (0, mark :: rest)

def read (text : List Char) : Option (JsonNumber × List Char) := do
  let negative := text.head? = some '-'
  let (whole, afterWhole) ← readWhole (if negative then text.tail else text)
  let (fraction, afterFraction) ← readFraction afterWhole
  let (exponent, rest) ← readPower afterFraction
  let isWhole := afterWhole.length = rest.length
  let number ← Parts.value? ⟨negative, whole, fraction, exponent, isWhole⟩
  some (number, rest)

end DynamoExpr.JsonNumber
