import DynamoExpr.Alias.Table
import DynamoExpr.Limits
import DynamoExpr.Tree

/-!
# Aliased trees

Each kind of tree with aliases in place of names and literals.  Aliases are entered in the order
in which the text of the tree will show them, and the tree is checked on the way.
-/

namespace DynamoExpr

def refuse {α : Type} (fault : ParameterFault) : Aliasing α := throw (.invalid fault)

/-- Aliases a condition.  The length of a candidate list is checked before its operands. -/
def Condition.aliased (limits : Limits) :
    SourceCondition → Aliasing (Condition (Path Nat) Nat)
  | .compare op left right => do
    let left ← Aliases.operand left
    let right ← Aliases.operand right
    return .compare op left right
  | .between value low high => do
    let value ← Aliases.operand value
    let low ← Aliases.operand low
    let high ← Aliases.operand high
    return .between value low high
  | .within value candidates => do
    if candidates.isEmpty then refuse .emptyIn
    if limits.inOperands < candidates.length then
      refuse (.longIn limits.inOperands candidates.length)
    let value ← Aliases.operand value
    let candidates ← candidates.mapM Aliases.operand
    return .within value candidates
  | .presence function path => do
    let path ← Aliases.nameRef path
    return .presence function path
  | .test function path literal => do
    let path ← Aliases.nameRef path
    let literal ← Aliases.literal literal
    return .test function path literal
  | .join op left right => do
    let left ← Condition.aliased limits left
    let right ← Condition.aliased limits right
    return .join op left right
  | .not inner => do
    let inner ← Condition.aliased limits inner
    return .not inner

def SortKeyTest.aliased : SortKeyTest AttributeValue → Aliasing (SortKeyTest Nat)
  | .compare op value => do
    let value ← Aliases.value value
    return .compare op value
  | .between low high => do
    let low ← Aliases.value low
    let high ← Aliases.value high
    return .between low high
  | .beginsWith leading => do
    let leading ← Aliases.value leading
    return .beginsWith leading

/-- Aliases a key condition.  That its keys differ is checked first. -/
def KeyCondition.aliased (tree : SourceKeyCondition) :
    Aliasing (KeyCondition (Path Nat) Nat) := do
  if (tree.sort.map SortKeyCondition.key) = some tree.key then refuse .sameKey
  let key ← Aliases.nameRef tree.key
  let value ← Aliases.value tree.value
  match tree.sort with
  | none => return ⟨key, value, none⟩
  | some sort =>
    let sortKey ← Aliases.nameRef sort.key
    let test ← sort.test.aliased
    return ⟨key, value, some ⟨sortKey, test⟩⟩

/-- Aliases paths in order, each one once; `seen` are those before. -/
def Projection.aliasNames (seen : List AttributePath) :
    List NameRef → Aliasing (List (Path Nat))
  | [] => return []
  | .faulty error :: _ => refuse (.name error)
  | .path path :: rest => do
    if path ∈ seen then Projection.aliasNames seen rest
    else
      let first ← Aliases.path path
      let others ← Projection.aliasNames (path :: seen) rest
      return first :: others

/-- Aliases a projection.  A path requested again is left out. -/
def Projection.aliased (tree : SourceProjection) : Aliasing (Projection (Path Nat)) := do
  if tree.names.isEmpty then refuse .emptyProjection
  let names ← Projection.aliasNames [] tree.names
  return ⟨names⟩

def SetValue.aliased : SetValue NameRef Literal → Aliasing (SetValue (Path Nat) Nat)
  | .operand (.size _) => refuse .sizeInUpdate
  | .operand source => do
    let aliased ← Aliases.operand source
    return .operand aliased
  | .arithmetic op left right => do
    if left.isArithmetic || right.isArithmetic then refuse .nestedArithmetic
    let left ← SetValue.aliased left
    let right ← SetValue.aliased right
    return .arithmetic op left right
  | .listAppend left right => do
    let left ← SetValue.aliased left
    let right ← SetValue.aliased right
    return .listAppend left right
  | .ifNotExists path fallback => do
    let path ← Aliases.nameRef path
    let fallback ← SetValue.aliased fallback
    return .ifNotExists path fallback

def LiteralClause.accepts : LiteralClause → AttributeType → Bool
  | .add, type => type = .number || type.isSet
  | .delete, type => type.isSet

/-- Aliases an action with a literal.  The type of the literal is checked before its target. -/
def LiteralClause.aliasAction (clause : LiteralClause) (action : NameRef × Literal) :
    Aliasing (Path Nat × Nat) := do
  if !clause.accepts action.2.type then refuse (.actionType clause action.2.type)
  let target ← Aliases.nameRef action.1
  let literal ← Aliases.literal action.2
  return (target, literal)

/-- Aliases a SET action, its target before its value. -/
def SetValue.aliasAction (action : NameRef × SetValue NameRef Literal) :
    Aliasing (Path Nat × SetValue (Path Nat) Nat) := do
  let target ← Aliases.nameRef action.1
  let value ← action.2.aliased
  return (target, value)

def Update.aliased (tree : SourceUpdate) : Aliasing (Update (Path Nat) Nat) := do
  if tree.isEmpty then refuse .emptyUpdate
  let sets ← tree.sets.mapM SetValue.aliasAction
  let removes ← tree.removes.mapM Aliases.nameRef
  let adds ← tree.adds.mapM LiteralClause.add.aliasAction
  let deletes ← tree.deletes.mapM LiteralClause.delete.aliasAction
  return ⟨sets, removes, adds, deletes⟩

end DynamoExpr
