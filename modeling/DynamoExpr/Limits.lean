import DynamoExpr.Json.Decode
import DynamoExpr.Numeral.Decimal
import DynamoExpr.Text

/-!
# Limits

The two limits on expressions, and their reading from JSON and from settings given as texts.
-/

namespace DynamoExpr

structure Limits where
  /-- The longest text of one expression, in bytes. -/
  expressionLength : Nat := 4096
  /-- The most candidates that an IN list may have. -/
  inOperands : Nat := 100
deriving DecidableEq

namespace Limits

/-- One more than the greatest limit. -/
def bound : Nat := Nat.pow 2 64

def limitFromJson : Json → Except DecodeError Nat
  | .num (.int value) =>
    if 0 <= value ∧ value < bound then .ok value.toNat
    else .error (.range (.num (.int value)) .limit)
  | other => .error (.kind other .limit)

/-- Reads the members in order.  Unknown members are passed over. -/
def fromMembers (limits : Limits) : List (String × Json) → Except DecodeError Limits
  | [] => .ok limits
  | (name, payload) :: rest =>
    if name = "maxExpressionLength" then do
      let value ← limitFromJson payload
      fromMembers { limits with expressionLength := value } rest
    else if name = "maxInOperands" then do
      let value ← limitFromJson payload
      fromMembers { limits with inOperands := value } rest
    else fromMembers limits rest

/--
Reads limits from JSON: an object by member names, or an array by position.  What is absent keeps
its default.
-/
def fromJson : Json → Except DecodeError Limits
  | .obj members => fromMembers {} members
  | .arr [] => .ok {}
  | .arr [length] => do return { expressionLength := ← limitFromJson length }
  | .arr (length :: operands :: rest) => do
    let length ← limitFromJson length
    let operands ← limitFromJson operands
    if rest = [] then .ok ⟨length, operands⟩ else .error (.surplus (rest.length + 2))
  | other => .error (.kind other .config)

def toJson (limits : Limits) : Json :=
  .obj [("maxExpressionLength", .num (.int limits.expressionLength)),
    ("maxInOperands", .num (.int limits.inOperands))]

/-- The limit that a setting gives: a positive number, with an optional plus sign. -/
def setting? (text : String) : Option Nat :=
  let trimmed := Text.trim text.toList
  let digits := if trimmed.head? = some '+' then trimmed.tail else trimmed
  let value := Numeral.digitsValue digits
  if digits ≠ [] ∧ digits.all Char.isDigit ∧ 0 < value ∧ value < bound then some value else none

/-- The limits by settings; one that is absent or gives no limit leaves the default. -/
def fromSettings (length operands : Option String) : Limits :=
  let standard : Limits := {}
  ⟨(length.bind setting?).getD standard.expressionLength,
    (operands.bind setting?).getD standard.inOperands⟩

end Limits

end DynamoExpr
