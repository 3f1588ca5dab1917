import DynamoExpr.Alias.Trees
import DynamoExpr.Token
import DynamoExpr.Value.Wire

/-!
# The builder

A builder holds at most one tree of each kind.  Building aliases the trees in the order of their
kinds with one table, and gives their texts together with what the aliases stand for.
-/

namespace DynamoExpr

/-! ## Expressions -/

/-- A built expression: a text for each kind of tree there was, and the aliased names and values. -/
structure Expression where
  condition : Option String
  filter : Option String
  keyCondition : Option String
  projection : Option String
  update : Option String
  aliases : Aliases

namespace Expression

def get (expression : Expression) : ExpressionKind → Option String
  | .condition => expression.condition
  | .filter => expression.filter
  | .keyCondition => expression.keyCondition
  | .projection => expression.projection
  | .update => expression.update

/-- The aliases of names with the names they stand for, in the order of their numbers. -/
def names (expression : Expression) : List (String × String) :=
  expression.aliases.names.mapIdx fun i name => ((Token.nameAlias i).text, name)

/-- The aliases of values with the values they stand for, in the order of their numbers. -/
def values (expression : Expression) : List (String × AttributeValue) :=
  expression.aliases.values.mapIdx fun i value => ((Token.valueAlias i).text, value)

/-- A member for a map of aliases, by ascending alias; none where the map is empty. -/
def aliasMember (name : String) (fields : List (String × Json)) : List (String × Json) :=
  if fields.isEmpty then [] else [(name, .obj (Fields.ascending fields))]

/-- The request members: the texts there are, then the two maps of aliases. -/
def toJson (expression : Expression) : Json :=
  let texts := ExpressionKind.all.filterMap fun kind =>
    (expression.get kind).map fun text => (kind.memberName, Json.str text)
  let names := expression.names.map fun (key, name) => (key, Json.str name)
  let values := expression.values.map fun (key, value) => (key, value.toJson)
  .obj (texts ++ aliasMember "ExpressionAttributeNames" names
    ++ aliasMember "ExpressionAttributeValues" values)

instance : BEq Expression where
  beq a b := ExpressionKind.all.all (fun kind => a.get kind == b.get kind)
    && a.aliases.names == b.aliases.names && a.aliases.values == b.aliases.values

end Expression

/-! ## Builders -/

structure Builder where
  limits : Limits := {}
  condition : Option SourceCondition := none
  filter : Option SourceCondition := none
  keyCondition : Option SourceKeyCondition := none
  projection : Option SourceProjection := none
  update : Option SourceUpdate := none

namespace Builder

def withLimits (builder : Builder) (limits : Limits) : Builder :=
  { builder with limits := limits }

def withCondition (builder : Builder) (tree : SourceCondition) : Builder :=
  { builder with condition := some tree }

def withFilter (builder : Builder) (tree : SourceCondition) : Builder :=
  { builder with filter := some tree }

def withKeyCondition (builder : Builder) (tree : SourceKeyCondition) : Builder :=
  { builder with keyCondition := some tree }

def withProjection (builder : Builder) (tree : SourceProjection) : Builder :=
  { builder with projection := some tree }

def withUpdate (builder : Builder) (tree : SourceUpdate) : Builder :=
  { builder with update := some tree }

def isEmpty (builder : Builder) : Bool :=
  builder.condition.isNone && builder.filter.isNone && builder.keyCondition.isNone
    && builder.projection.isNone && builder.update.isNone

/-- The text of a tree, once it is aliased, if it keeps the limit. -/
def write (limits : Limits) (kind : ExpressionKind) (tokens : Aliasing (List Token)) :
    Aliasing String := do
  let text := Token.texts (← tokens)
  if limits.expressionLength < text.utf8ByteSize then
    refuse (.tooLong kind text.utf8ByteSize limits.expressionLength)
  return text

def writeCondition (limits : Limits) (kind : ExpressionKind) (tree : SourceCondition) :
    Aliasing String :=
  write limits kind do return (← tree.aliased limits).tokens

def writeKeyCondition (limits : Limits) (tree : SourceKeyCondition) : Aliasing String :=
  write limits .keyCondition do return (← tree.aliased).tokens

def writeProjection (limits : Limits) (tree : SourceProjection) : Aliasing String :=
  write limits .projection do return (← tree.aliased).tokens

def writeUpdate (limits : Limits) (tree : SourceUpdate) : Aliasing String :=
  write limits .update do return (← tree.aliased).tokens

def writeAll (builder : Builder) : Aliasing (Aliases → Expression) := do
  let condition ← builder.condition.mapM (writeCondition builder.limits .condition)
  let filter ← builder.filter.mapM (writeCondition builder.limits .filter)
  let keyCondition ← builder.keyCondition.mapM (writeKeyCondition builder.limits)
  let projection ← builder.projection.mapM (writeProjection builder.limits)
  let update ← builder.update.mapM (writeUpdate builder.limits)
  return Expression.mk condition filter keyCondition projection update

/-- Builds the expression; the first fault in the order of kinds is the error. -/
def build (builder : Builder) : Except ExpressionError Expression :=
  if builder.isEmpty then .error .unset
  else
    match builder.writeAll.run.run {} with
    | (.ok finish, aliases) => .ok (finish aliases)
    | (.error error, _) => .error error

end Builder

end DynamoExpr
