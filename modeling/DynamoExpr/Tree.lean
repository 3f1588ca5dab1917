import DynamoExpr.Path
import DynamoExpr.Value.Equality

/-!
# Expression trees

The trees of the five kinds of expression: conditions and filters, key conditions, projections and
updates.  Trees are parametric in how a path and a literal are given: by the user as `NameRef` and
`Literal`, after aliasing as paths of alias numbers and alias numbers.  A projection has its paths
and an update its actions, four lists of them, in the order in which they were given.
-/

namespace DynamoExpr

/-! ## Operands -/

inductive Operand (ν β : Type) where
  | name (path : ν)
  | value (literal : β)
  | size (path : ν)
deriving BEq

/-- A literal: a value, or a list written out operand by operand. -/
inductive Literal where
  | value (value : AttributeValue)
  | list (members : List (Operand NameRef Literal))

namespace Literal

mutual

/-- The value of a literal, a list becoming one list value; `none` where a member is a path. -/
def value? : Literal → Option AttributeValue
  | .value v => some v
  | .list members => (membersValue? members).map .list

def membersValue? : List (Operand NameRef Literal) → Option (List AttributeValue)
  | [] => some []
  | .value literal :: rest => do
    let first ← value? literal
    let others ← membersValue? rest
    some (first :: others)
  | .name _ :: _ => none
  | .size _ :: _ => none

end

mutual

def equal : Literal → Literal → Bool
  | .value a, .value b => a == b
  | .list a, .list b => equalMembers a b
  | _, _ => false

def equalMembers : List (Operand NameRef Literal) → List (Operand NameRef Literal) → Bool
  | [], [] => true
  | .value a :: as, .value b :: bs => equal a b && equalMembers as bs
  | .name a :: as, .name b :: bs => a == b && equalMembers as bs
  | .size a :: as, .size b :: bs => a == b && equalMembers as bs
  | _, _ => false

end

instance : BEq Literal := ⟨equal⟩

def type : Literal → AttributeType
  | .value v => v.type
  | .list _ => .list

end Literal

abbrev SourceOperand := Operand NameRef Literal

/-! ## Conditions -/

inductive Comparison where
  | eq
  | ne
  | lt
  | le
  | gt
  | ge
deriving DecidableEq

def Comparison.sign : Comparison → String
  | .eq => "="
  | .ne => "<>"
  | .lt => "<"
  | .le => "<="
  | .gt => ">"
  | .ge => ">="

inductive Connective where
  | and
  | or
deriving DecidableEq

/-- A function of a path alone. -/
inductive Presence where
  | attributeExists
  | attributeNotExists
deriving DecidableEq

inductive PathTest where
  | attributeType
  | beginsWith
  | contains
deriving DecidableEq

inductive Condition (ν β : Type) where
  | compare (op : Comparison) (left right : Operand ν β)
  | between (value low high : Operand ν β)
  | within (value : Operand ν β) (candidates : List (Operand ν β))
  | presence (function : Presence) (path : ν)
  | test (function : PathTest) (path : ν) (literal : β)
  | join (op : Connective) (left right : Condition ν β)
  | not (inner : Condition ν β)
deriving BEq

abbrev SourceCondition := Condition NameRef Literal

/-!
## Key conditions

The conditions of a query: the partition key equals a value, and at most one condition on the sort
key, by a comparison other than inequality, a range, or a leading text.
-/

/-- A comparison that a sort key admits. -/
inductive KeyComparison where
  | eq
  | lt
  | le
  | gt
  | ge
deriving DecidableEq

def KeyComparison.toComparison : KeyComparison → Comparison
  | .eq => .eq
  | .lt => .lt
  | .le => .le
  | .gt => .gt
  | .ge => .ge

inductive SortKeyTest (β : Type) where
  | compare (op : KeyComparison) (value : β)
  | between (low high : β)
  | beginsWith (leading : β)
deriving BEq

structure SortKeyCondition (ν β : Type) where
  key : ν
  test : SortKeyTest β
deriving BEq

structure KeyCondition (ν β : Type) where
  key : ν
  value : β
  sort : Option (SortKeyCondition ν β)
deriving BEq

abbrev SourceSortKeyCondition := SortKeyCondition NameRef AttributeValue

abbrev SourceKeyCondition := KeyCondition NameRef AttributeValue

/-! ### How a key condition is made -/

structure KeyName where
  ref : NameRef

/-- A key equals a value.  This is the one condition for a partition key, and one for a sort key. -/
structure KeyEquality where
  key : NameRef
  value : AttributeValue

namespace KeyName

/-- The key attribute with the name, which is taken as it stands. -/
def named (name : String) : KeyName := ⟨.ofKey name⟩

def equal (key : KeyName) (value : AttributeValue) : KeyEquality := ⟨key.ref, value⟩

def compare (key : KeyName) (op : KeyComparison) (value : AttributeValue) :
    SourceSortKeyCondition :=
  ⟨key.ref, .compare op value⟩

def between (key : KeyName) (low high : AttributeValue) : SourceSortKeyCondition :=
  ⟨key.ref, .between low high⟩

def beginsWith (key : KeyName) (leading : String) : SourceSortKeyCondition :=
  ⟨key.ref, .beginsWith (.string leading)⟩

end KeyName

namespace KeyEquality

def onSortKey (equality : KeyEquality) : SourceSortKeyCondition :=
  ⟨equality.key, .compare .eq equality.value⟩

def alone (equality : KeyEquality) : SourceKeyCondition :=
  ⟨equality.key, equality.value, none⟩

def and (equality : KeyEquality) (sort : SourceSortKeyCondition) : SourceKeyCondition :=
  ⟨equality.key, equality.value, some sort⟩

end KeyEquality

/-! ## Projections -/

structure Projection (ν : Type) where
  names : List ν
deriving BEq

abbrev SourceProjection := Projection NameRef

def Projection.addNames {ν : Type} (projection : Projection ν) (names : List ν) : Projection ν :=
  ⟨projection.names ++ names⟩

def Projection.ofFirst {ν : Type} (first : ν) (rest : List ν) : Projection ν := ⟨first :: rest⟩

/-! ## Updates -/

inductive Arithmetic where
  | plus
  | minus
deriving DecidableEq

inductive SetValue (ν β : Type) where
  | operand (operand : Operand ν β)
  | arithmetic (op : Arithmetic) (left right : SetValue ν β)
  | listAppend (left right : SetValue ν β)
  | ifNotExists (path : ν) (fallback : SetValue ν β)
deriving BEq

def SetValue.isArithmetic {ν β : Type} : SetValue ν β → Bool
  | .arithmetic .. => true
  | _ => false

structure Update (ν β : Type) where
  sets : List (ν × SetValue ν β) := []
  removes : List ν := []
  adds : List (ν × β) := []
  deletes : List (ν × β) := []
deriving BEq

abbrev SourceUpdate := Update NameRef Literal

namespace Update

variable {ν β : Type}

def set (update : Update ν β) (target : ν) (value : SetValue ν β) : Update ν β :=
  { update with sets := update.sets ++ [(target, value)] }

def remove (update : Update ν β) (target : ν) : Update ν β :=
  { update with removes := update.removes ++ [target] }

def add (update : Update ν β) (target : ν) (value : β) : Update ν β :=
  { update with adds := update.adds ++ [(target, value)] }

def delete (update : Update ν β) (target : ν) (value : β) : Update ν β :=
  { update with deletes := update.deletes ++ [(target, value)] }

def isEmpty (update : Update ν β) : Bool :=
  update.sets.isEmpty && update.removes.isEmpty && update.adds.isEmpty && update.deletes.isEmpty

end Update

end DynamoExpr
