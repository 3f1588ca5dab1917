/-!
# Binary floating-point numbers

The two interchange formats, the reading of a number from its bits, and rounding to the nearest
number of a format.
-/

namespace DynamoExpr.Numeral

/-- The magnitude `mantissa * 2 ^ exponent`. -/
structure Magnitude where
  mantissa : Nat
  exponent : Int
deriving DecidableEq

/-- The field widths of an interchange format; one sign bit stands above them. -/
structure BinaryFormat where
  fractionBits : Nat
  exponentBits : Nat
deriving DecidableEq

def BinaryFormat.single : BinaryFormat := ⟨23, 8⟩

def BinaryFormat.double : BinaryFormat := ⟨52, 11⟩

def BinaryFormat.leastExponent (f : BinaryFormat) : Int :=
  2 - (Nat.pow 2 (f.exponentBits - 1) : Nat) - f.fractionBits

def BinaryFormat.greatestExponent (f : BinaryFormat) : Int :=
  f.leastExponent + (Nat.pow 2 f.exponentBits - 3 : Nat)

/-- A number of a format.  The mantissa of a finite one fills its field unless it is subnormal. -/
inductive Binary where
  | finite (negative : Bool) (magnitude : Magnitude)
  | infinite (negative : Bool)
  | notANumber
deriving DecidableEq

def Binary.isFinite : Binary → Bool
  | .finite .. => true
  | _ => false

def BinaryFormat.decode (f : BinaryFormat) (bits : Nat) : Binary :=
  let fraction := bits % Nat.pow 2 f.fractionBits
  let biased := bits / Nat.pow 2 f.fractionBits % Nat.pow 2 f.exponentBits
  let negative := bits / Nat.pow 2 (f.fractionBits + f.exponentBits) % 2 == 1
  if biased = Nat.pow 2 f.exponentBits - 1 then
    if fraction = 0 then .infinite negative else .notANumber
  else if biased = 0 then .finite negative ⟨fraction, f.leastExponent⟩
  else
    .finite negative
      ⟨Nat.pow 2 f.fractionBits + fraction, f.leastExponent + (biased - 1 : Nat)⟩

/-- The whole number nearest to the quotient; a half goes to the even neighbour. -/
def roundDiv (num den : Nat) : Nat :=
  let quotient := num / den
  let twice := 2 * (num % den)
  if den < twice ∨ (twice = den ∧ quotient % 2 = 1) then quotient + 1 else quotient

/-- The exponent of the greatest power of two that is at most the positive quotient. -/
def binaryOrder (num den : Nat) : Int :=
  let guess : Int := (num.log2 : Int) - den.log2
  if den * Nat.pow 2 guess.toNat <= num * Nat.pow 2 (-guess).toNat then guess else guess - 1

/--
The number of the format nearest to the quotient, ties to the even mantissa; `none` where that
lies beyond the greatest finite number.
-/
def BinaryFormat.nearest? (f : BinaryFormat) (num den : Nat) : Option Magnitude :=
  if num = 0 then some ⟨0, f.leastExponent⟩
  else
    let exponent := max f.leastExponent (binaryOrder num den - f.fractionBits)
    let mantissa :=
      roundDiv (num * Nat.pow 2 (-exponent).toNat) (den * Nat.pow 2 exponent.toNat)
    let rounded : Magnitude :=
      if mantissa = Nat.pow 2 (f.fractionBits + 1) then ⟨Nat.pow 2 f.fractionBits, exponent + 1⟩
      else ⟨mantissa, exponent⟩
    if f.greatestExponent < rounded.exponent then none else some rounded

def BinaryFormat.mul? (f : BinaryFormat) (a b : Magnitude) : Option Magnitude :=
  let exponent := a.exponent + b.exponent
  f.nearest? (a.mantissa * b.mantissa * Nat.pow 2 exponent.toNat) (Nat.pow 2 (-exponent).toNat)

/-- The quotient by a positive number, rounded to the format. -/
def BinaryFormat.div? (f : BinaryFormat) (a b : Magnitude) : Option Magnitude :=
  let exponent := a.exponent - b.exponent
  f.nearest? (a.mantissa * Nat.pow 2 exponent.toNat) (b.mantissa * Nat.pow 2 (-exponent).toNat)

/-- The same number in the wide format, where every number of the narrow one has a place. -/
def widen : Binary → Binary
  | .finite negative a =>
    match BinaryFormat.double.nearest? (a.mantissa * Nat.pow 2 a.exponent.toNat)
        (Nat.pow 2 (-a.exponent).toNat) with
    | some wide => .finite negative wide
    | none => .infinite negative
  | .infinite negative => .infinite negative
  | .notANumber => .notANumber

end DynamoExpr.Numeral
