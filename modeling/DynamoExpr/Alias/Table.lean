import DynamoExpr.Error
import DynamoExpr.Tree

/-!
# The alias table

The names and the values that the trees of one expression refer to, in two lanes.  A lane is a list
of distinct entries in the order in which each was seen first, and the place of an entry is its
number, so all trees share one numbering.  A step that fails keeps what was entered before it.
-/

namespace DynamoExpr.Lane

variable {α : Type} [BEq α]

/-- The number of the entry that equals `x`. -/
def number? (x : α) (lane : List α) : Option Nat := lane.findIdx? (· == x)

/-- The number of `x`, which is added at the end where no entry equals it, and the lane after that. -/
def enter (x : α) (lane : List α) : Nat × List α :=
  match number? x lane with
  | some i => (i, lane)
  | none => (lane.length, lane ++ [x])

end DynamoExpr.Lane

namespace DynamoExpr

structure Aliases where
  names : List String := []
  values : List AttributeValue := []

/-- A computation that enters aliases and may fail, the table surviving a failure. -/
abbrev Aliasing := ExceptT ExpressionError (StateM Aliases)

namespace Aliases

def name (name : String) : Aliasing Nat := do
  let table ← get
  let (i, names) := Lane.enter name table.names
  set { table with names := names }
  return i

/--
The alias number of a value.  A value that equals an entry has its number; any other is checked and
then entered, and one that fails the check changes nothing.
-/
def value (value : AttributeValue) : Aliasing Nat := do
  let table ← get
  match Lane.number? value table.values with
  | some i => return i
  | none =>
    match value.check with
    | .error fault => throw (.invalid (.storage fault))
    | .ok _ =>
      set { table with values := table.values ++ [value] }
      return table.values.length

def path (path : AttributePath) : Aliasing (Path Nat) := path.traverse name

def nameRef : NameRef → Aliasing (Path Nat)
  | .path p => path p
  | .faulty error => throw (.invalid (.name error))

/-- The alias number of a literal; a list counts as the one list value that it denotes. -/
def literal (literal : Literal) : Aliasing Nat :=
  match literal.value? with
  | some v => value v
  | none => throw (.invalid .listMember)

def operand : SourceOperand → Aliasing (Operand (Path Nat) Nat)
  | .name path => do return .name (← nameRef path)
  | .value l => do return .value (← literal l)
  | .size path => do return .size (← nameRef path)

end Aliases

end DynamoExpr
