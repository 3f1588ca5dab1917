import DynamoExpr.Alias.Trees
import DynamoExpr.Proofs.Tree.Plain

/-!
# Checked trees

The plain tree that the user meant, or the first fault of the tree from left to right.  No alias
table is involved: what is wrong with a tree is found in the tree and the limits alone.
-/

namespace DynamoExpr

def NameRef.checked : NameRef → Except ParameterFault AttributePath
  | .path p => .ok p
  | .faulty error => .error (.name error)

def AttributeValue.checked (value : AttributeValue) : Except ParameterFault AttributeValue :=
  match value.check with
  | .ok _ => .ok value
  | .error fault => .error (.storage fault)

def Literal.checked (literal : Literal) : Except ParameterFault AttributeValue :=
  match literal.value? with
  | some v => v.checked
  | none => .error .listMember

def Operand.checked : SourceOperand → Except ParameterFault PlainOperand
  | .name path => do return .name (← path.checked)
  | .value literal => do return .value (← literal.checked)
  | .size path => do return .size (← path.checked)

def unlessFault {α : Type} (bad : Prop) [Decidable bad] (fault : ParameterFault)
    (next : Except ParameterFault α) : Except ParameterFault α :=
  if bad then .error fault else next

def Condition.checked (limits : Limits) :
    SourceCondition → Except ParameterFault PlainCondition
  | .compare op left right => do
    let left ← left.checked
    let right ← right.checked
    return .compare op left right
  | .between value low high => do
    let value ← value.checked
    let low ← low.checked
    let high ← high.checked
    return .between value low high
  | .within value candidates =>
    unlessFault candidates.isEmpty .emptyIn <|
    unlessFault (limits.inOperands < candidates.length)
        (.longIn limits.inOperands candidates.length) do
      let value ← value.checked
      let candidates ← candidates.mapM Operand.checked
      return .within value candidates
  | .presence function path => do
    let path ← path.checked
    return .presence function path
  | .test function path literal => do
    let path ← path.checked
    let literal ← literal.checked
    return .test function path literal
  | .join op left right => do
    let left ← left.checked limits
    let right ← right.checked limits
    return .join op left right
  | .not inner => do
    let inner ← inner.checked limits
    return .not inner

def SortKeyTest.checked :
    SortKeyTest AttributeValue → Except ParameterFault (SortKeyTest AttributeValue)
  | .compare op value => do
    let value ← value.checked
    return .compare op value
  | .between low high => do
    let low ← low.checked
    let high ← high.checked
    return .between low high
  | .beginsWith leading => do
    let leading ← leading.checked
    return .beginsWith leading

def KeyCondition.checked (tree : SourceKeyCondition) : Except ParameterFault PlainKeyCondition :=
  unlessFault (tree.sort.map SortKeyCondition.key = some tree.key) .sameKey <|
    match tree.sort with
    | none => do
      let key ← tree.key.checked
      let value ← tree.value.checked
      return ⟨key, value, none⟩
    | some sort => do
      let key ← tree.key.checked
      let value ← tree.value.checked
      let sortKey ← sort.key.checked
      let test ← sort.test.checked
      return ⟨key, value, some ⟨sortKey, test⟩⟩

/-- The paths in order, each one once. -/
def Projection.checked (tree : SourceProjection) : Except ParameterFault PlainProjection :=
  unlessFault tree.names.isEmpty .emptyProjection do
    let paths ← tree.names.mapM NameRef.checked
    return ⟨paths.eraseDups⟩

def SetValue.checked : SetValue NameRef Literal → Except ParameterFault PlainSetValue
  | .operand (.size _) => .error .sizeInUpdate
  | .operand source => do
    let plain ← source.checked
    return .operand plain
  | .arithmetic op left right =>
    unlessFault (left.isArithmetic || right.isArithmetic) .nestedArithmetic do
      let left ← left.checked
      let right ← right.checked
      return .arithmetic op left right
  | .listAppend left right => do
    let left ← left.checked
    let right ← right.checked
    return .listAppend left right
  | .ifNotExists path fallback => do
    let path ← path.checked
    let fallback ← fallback.checked
    return .ifNotExists path fallback

def SetValue.checkedAction (action : NameRef × SetValue NameRef Literal) :
    Except ParameterFault (AttributePath × PlainSetValue) := do
  let target ← action.1.checked
  let value ← action.2.checked
  return (target, value)

def LiteralClause.checkedAction (clause : LiteralClause) (action : NameRef × Literal) :
    Except ParameterFault (AttributePath × AttributeValue) :=
  unlessFault (!clause.accepts action.2.type) (.actionType clause action.2.type) do
    let target ← action.1.checked
    let literal ← action.2.checked
    return (target, literal)

def Update.checked (tree : SourceUpdate) : Except ParameterFault PlainUpdate :=
  unlessFault tree.isEmpty .emptyUpdate do
    let sets ← tree.sets.mapM SetValue.checkedAction
    let removes ← tree.removes.mapM NameRef.checked
    let adds ← tree.adds.mapM LiteralClause.add.checkedAction
    let deletes ← tree.deletes.mapM LiteralClause.delete.checkedAction
    return ⟨sets, removes, adds, deletes⟩

end DynamoExpr
