/-!
# Decimal numerals

A decimal magnitude, the plain grammar in which it is written, and the exact comparison of such a
magnitude with a whole number.
-/

namespace DynamoExpr.Numeral

/-- The magnitude `digits * 10 ^ exponent`. -/
structure Decimal where
  digits : Nat
  exponent : Int
deriving DecidableEq

/-- The number that a run of ASCII digits denotes; leading zeros are allowed. -/
def digitsValue (digits : List Char) : Nat :=
  digits.foldl (fun value digit => 10 * value + (digit.toNat - '0'.toNat)) 0

def dropSign : List Char → List Char
  | [] => []
  | c :: rest => if c = '+' ∨ c = '-' then rest else c :: rest

/-- The exponent part: nothing, or `e` or `E`, an optional sign and at least one digit. -/
def readExponent : List Char → Option Int
  | [] => some 0
  | mark :: rest =>
    let digits := dropSign rest
    if (mark = 'e' ∨ mark = 'E') ∧ digits ≠ [] ∧ digits.all Char.isDigit then
      if rest.head? = some '-' then some (-(digitsValue digits : Int))
      else some (digitsValue digits)
    else none

/--
Reads the whole text as a numeral: an optional sign, digits with an optional point and at least
one digit in all, and an optional exponent.  The sign is checked and dropped.
-/
def Decimal.read? (text : List Char) : Option Decimal :=
  let body := dropSign text
  let whole := body.takeWhile Char.isDigit
  let afterWhole := body.dropWhile Char.isDigit
  let pointed := afterWhole.head? = some '.'
  let tail := if pointed then afterWhole.tail else afterWhole
  let fraction := if pointed then tail.takeWhile Char.isDigit else []
  let afterFraction := if pointed then tail.dropWhile Char.isDigit else tail
  if whole ++ fraction = [] then none
  else (readExponent afterFraction).map fun exponent =>
    ⟨digitsValue (whole ++ fraction), exponent - fraction.length⟩

/--
The magnitude is less than the limit.  Beyond the binary length of the limit, or of the digits,
a power of ten decides by itself, so no power is larger than the numbers compared.
-/
def Decimal.below (limit : Nat) (d : Decimal) : Bool :=
  if d.digits = 0 then 0 < limit
  else if 0 <= d.exponent then
    d.exponent.toNat <= limit.log2 && d.digits * Nat.pow 10 d.exponent.toNat < limit
  else if d.digits.log2 < (-d.exponent).toNat then 0 < limit
  else d.digits < limit * Nat.pow 10 (-d.exponent).toNat

end DynamoExpr.Numeral
