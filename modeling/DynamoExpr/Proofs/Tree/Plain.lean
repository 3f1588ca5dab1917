import DynamoExpr.Tree

/-!
# Plain trees

A plain tree has attribute paths for its names and attribute values for its literals: what the
user meant, with lists folded and nothing left to check.  Its leaves are the names and the values
in it from left to right, which is the order of the text.
-/

namespace DynamoExpr

inductive Leaf where
  | name (name : String)
  | value (value : AttributeValue)

def Leaf.name? : Leaf → Option String
  | .name n => some n
  | .value _ => none

def Leaf.value? : Leaf → Option AttributeValue
  | .name _ => none
  | .value v => some v

abbrev PlainOperand := Operand AttributePath AttributeValue

abbrev PlainCondition := Condition AttributePath AttributeValue

abbrev PlainKeyCondition := KeyCondition AttributePath AttributeValue

abbrev PlainProjection := Projection AttributePath

abbrev PlainSetValue := SetValue AttributePath AttributeValue

abbrev PlainUpdate := Update AttributePath AttributeValue

variable {ν μ β γ : Type}

/-! ## Change of names and literals -/

def PathStep.map (f : ν → μ) : PathStep ν → PathStep μ
  | .attribute name => .attribute (f name)
  | .index i => .index i

def Path.map (f : ν → μ) (path : Path ν) : Path μ := ⟨f path.head, path.tail.map (PathStep.map f)⟩

def Operand.map (f : ν → μ) (g : β → γ) : Operand ν β → Operand μ γ
  | .name path => .name (f path)
  | .value literal => .value (g literal)
  | .size path => .size (f path)

def Condition.map (f : ν → μ) (g : β → γ) : Condition ν β → Condition μ γ
  | .compare op left right => .compare op (left.map f g) (right.map f g)
  | .between value low high => .between (value.map f g) (low.map f g) (high.map f g)
  | .within value candidates => .within (value.map f g) (candidates.map (Operand.map f g))
  | .presence function path => .presence function (f path)
  | .test function path literal => .test function (f path) (g literal)
  | .join op left right => .join op (left.map f g) (right.map f g)
  | .not inner => .not (inner.map f g)

def SortKeyTest.map (g : β → γ) : SortKeyTest β → SortKeyTest γ
  | .compare op value => .compare op (g value)
  | .between low high => .between (g low) (g high)
  | .beginsWith leading => .beginsWith (g leading)

def KeyCondition.map (f : ν → μ) (g : β → γ) (tree : KeyCondition ν β) : KeyCondition μ γ :=
  ⟨f tree.key, g tree.value, tree.sort.map fun sort => ⟨f sort.key, sort.test.map g⟩⟩

def Projection.map (f : ν → μ) (tree : Projection ν) : Projection μ := ⟨tree.names.map f⟩

def SetValue.map (f : ν → μ) (g : β → γ) : SetValue ν β → SetValue μ γ
  | .operand source => .operand (source.map f g)
  | .arithmetic op left right => .arithmetic op (left.map f g) (right.map f g)
  | .listAppend left right => .listAppend (left.map f g) (right.map f g)
  | .ifNotExists path fallback => .ifNotExists (f path) (fallback.map f g)

def Update.map (f : ν → μ) (g : β → γ) (tree : Update ν β) : Update μ γ where
  sets := tree.sets.map fun action => (f action.1, action.2.map f g)
  removes := tree.removes.map f
  adds := tree.adds.map fun action => (f action.1, g action.2)
  deletes := tree.deletes.map fun action => (f action.1, g action.2)

/-! ## Leaves -/

def PathStep.leaves : PathStep String → List Leaf
  | .attribute name => [.name name]
  | .index _ => []

def Path.leaves (path : AttributePath) : List Leaf :=
  .name path.head :: path.tail.flatMap PathStep.leaves

def Operand.leaves : PlainOperand → List Leaf
  | .name path => path.leaves
  | .value literal => [.value literal]
  | .size path => path.leaves

def Condition.leaves : PlainCondition → List Leaf
  | .compare _ left right => left.leaves ++ right.leaves
  | .between value low high => value.leaves ++ low.leaves ++ high.leaves
  | .within value candidates => value.leaves ++ candidates.flatMap Operand.leaves
  | .presence _ path => path.leaves
  | .test _ path literal => path.leaves ++ [.value literal]
  | .join _ left right => left.leaves ++ right.leaves
  | .not inner => inner.leaves

def SortKeyTest.leaves : SortKeyTest AttributeValue → List Leaf
  | .compare _ value => [.value value]
  | .between low high => [.value low, .value high]
  | .beginsWith leading => [.value leading]

def SortKeyCondition.leaves (condition : SortKeyCondition AttributePath AttributeValue) :
    List Leaf :=
  condition.key.leaves ++ condition.test.leaves

def KeyCondition.leaves (tree : PlainKeyCondition) : List Leaf :=
  tree.key.leaves ++ [.value tree.value] ++ tree.sort.elim [] SortKeyCondition.leaves

def Projection.leaves (tree : PlainProjection) : List Leaf := tree.names.flatMap Path.leaves

def SetValue.leaves : PlainSetValue → List Leaf
  | .operand source => source.leaves
  | .arithmetic _ left right => left.leaves ++ right.leaves
  | .listAppend left right => left.leaves ++ right.leaves
  | .ifNotExists path fallback => path.leaves ++ fallback.leaves

def Update.leaves (tree : PlainUpdate) : List Leaf :=
  (tree.sets.flatMap fun action => action.1.leaves ++ action.2.leaves)
    ++ tree.removes.flatMap Path.leaves
    ++ (tree.adds.flatMap fun action => action.1.leaves ++ [.value action.2])
    ++ (tree.deletes.flatMap fun action => action.1.leaves ++ [.value action.2])

end DynamoExpr
