import DynamoExpr.Numeral.Binary
import DynamoExpr.Numeral.Decimal

/-!
# Shortest decimals and their layout

The shortest decimal that reads back as a given binary number: the coarsest decimal grid that has
a point among the reals which round to the number, and on that grid the nearer of the number's
two neighbours.  How it is set out as text is one record; the program has two of them, and a narrow
variant of the second for object keys.
-/

namespace DynamoExpr.Numeral

/-- Which neighbour is taken where the number lies midway between them. -/
inductive Tie where
  | up
  | even
deriving DecidableEq

/--
The decimal lies among the reals that round to the number.  These reach half a step up, and half
a step down, which is a quarter where the mantissa is the least of its exponent.  The ends belong
to them when the mantissa is even.
-/
def readsBack (f : BinaryFormat) (a : Magnitude) (d : Decimal) : Bool :=
  let narrow := a.mantissa = Nat.pow 2 f.fractionBits ∧ f.leastExponent < a.exponent
  let low := if narrow then 4 * a.mantissa - 1 else 4 * a.mantissa - 2
  let high := 4 * a.mantissa + 2
  let unit := a.exponent - 2
  let num := d.digits * Nat.pow 10 d.exponent.toNat * Nat.pow 2 (-unit).toNat
  let den := Nat.pow 10 (-d.exponent).toNat * Nat.pow 2 unit.toNat
  if a.mantissa % 2 = 0 then low * den <= num && num <= high * den
  else low * den < num && num < high * den

/-- The number, in units of the grid `10 ^ exponent`, as a quotient. -/
def inGrid (a : Magnitude) (exponent : Int) : Nat × Nat :=
  (a.mantissa * Nat.pow 2 a.exponent.toNat * Nat.pow 10 (-exponent).toNat,
    Nat.pow 2 (-a.exponent).toNat * Nat.pow 10 exponent.toNat)

/-- The neighbour on the grid that reads back; of two the nearer one. -/
def onGrid? (f : BinaryFormat) (tie : Tie) (a : Magnitude) (exponent : Int) : Option Decimal :=
  let (num, den) := inGrid a exponent
  let below : Decimal := ⟨num / den, exponent⟩
  let above : Decimal := ⟨num / den + 1, exponent⟩
  let twice := 2 * (num % den)
  let preferAbove := den < twice
    ∨ (twice = den ∧ (tie = .up ∨ (num / den) % 2 = 1))
  match readsBack f a below && below.digits != 0, readsBack f a above with
  | true, true => some (if preferAbove then above else below)
  | true, false => some below
  | false, true => some above
  | false, false => none

/-- Tries the grid, then finer ones, as many as allowed. -/
def shortestFrom (f : BinaryFormat) (tie : Tie) (a : Magnitude) : Nat → Int → Decimal
  | 0, exponent => ⟨(inGrid a exponent).1 / (inGrid a exponent).2, exponent⟩
  | grids + 1, exponent =>
    match onGrid? f tie a exponent with
    | some d => d
    | none => shortestFrom f tie a grids (exponent - 1)

/-- An exponent above every grid that can have a point for the number. -/
def coarsestExponent (a : Magnitude) : Int :=
  (a.mantissa.log2 + a.exponent + 2) * 30103 / 100000 + 2

/--
The shortest decimal that reads back as the number.  A grid with as many digits as the mantissa
has bits would be fine enough, so the count of grids tried always suffices.
-/
def shortest (f : BinaryFormat) (tie : Tie) (a : Magnitude) : Decimal :=
  if a.mantissa = 0 then ⟨0, 0⟩
  else shortestFrom f tie a (f.fractionBits + 4) (coarsestExponent a)

/-! ## Layouts -/

structure Layout where
  /-- The neighbour taken for a number midway between two shortest decimals. -/
  tie : Tie
  /-- The orders of magnitude written without an exponent; `none` for all of them. -/
  positional : Option (Int × Int)
  /-- What follows a whole number. -/
  wholeMark : String
deriving DecidableEq

/-- Numbers as attribute values write them: never an exponent, and no point on a whole number. -/
def Layout.plain : Layout := ⟨.up, none, ""⟩

/-- Numbers as JSON writes them: with a point or an exponent always. -/
def Layout.json : Layout := ⟨.even, some (-5, 15), ".0"⟩

/-- Numbers of the narrow format as JSON writes them in object keys. -/
def Layout.jsonKey : Layout := ⟨.even, some (-6, 12), ".0"⟩

def zeros (n : Nat) : List Char := List.replicate n '0'

def positionalText (wholeMark : String) (d : Decimal) : List Char :=
  let digits := Nat.toDigits 10 d.digits
  let places := (-d.exponent).toNat
  if 0 <= d.exponent then digits ++ zeros d.exponent.toNat ++ wholeMark.toList
  else if places < digits.length then
    digits.take (digits.length - places) ++ '.' :: digits.drop (digits.length - places)
  else '0' :: '.' :: zeros (places - digits.length) ++ digits

/-- The decimal with one digit before the point, and an exponent with its sign. -/
def scientificText (d : Decimal) : List Char :=
  let digits := Nat.toDigits 10 d.digits
  let order : Int := d.exponent + digits.length - 1
  let fraction := if digits.length = 1 then [] else '.' :: digits.tail
  digits.take 1 ++ fraction ++ 'e' :: (if order < 0 then '-' else '+')
    :: Nat.toDigits 10 order.natAbs

def Layout.decimalText (layout : Layout) (d : Decimal) : List Char :=
  let order : Int := d.exponent + (Nat.toDigits 10 d.digits).length - 1
  match layout.positional with
  | none => positionalText layout.wholeMark d
  | some (least, greatest) =>
    if d.digits = 0 ∨ (least <= order ∧ order <= greatest) then
      positionalText layout.wholeMark d
    else scientificText d

/-- The number as the layout sets it out, with a minus sign where its sign bit is set. -/
def Layout.text (layout : Layout) (f : BinaryFormat) (b : Binary) : String :=
  let sign (negative : Bool) : List Char := if negative then ['-'] else []
  match b with
  | .finite negative a =>
    String.ofList (sign negative ++ layout.decimalText (shortest f layout.tie a))
  | .infinite negative => String.ofList (sign negative ++ ['i', 'n', 'f'])
  | .notANumber => "NaN"

end DynamoExpr.Numeral
