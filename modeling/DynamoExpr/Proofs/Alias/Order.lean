import DynamoExpr.Proofs.Alias.Table
import DynamoExpr.Proofs.Token.Scan

/-!
# The order of aliases in a text

The tokens of a numbered tree show the numbers of its leaves, in the order of the leaves.  Hence
the table is filled in the order of the text, however a tree is written.
-/

namespace DynamoExpr

def Leaf.number? (table : Aliases) : AliasKind → Leaf → Option Nat
  | .name, .name n => some (table.nameNumber n)
  | .value, .value v => some (table.valueNumber v)
  | _, _ => none

theorem Leaf.number?_name (table : Aliases) (leaf : Leaf) :
    Leaf.number? table .name leaf = leaf.name?.map (Lane.place · table.names) := by
  cases leaf <;> rfl

theorem Leaf.number?_value (table : Aliases) (leaf : Leaf) :
    Leaf.number? table .value leaf = leaf.value?.map (Lane.place · table.values) := by
  cases leaf <;> rfl

/-- The aliases among the tokens are the numbers of the leaves, in order. -/
def Shows (table : Aliases) (tokens : List Token) (leaves : List Leaf) : Prop :=
  ∀ kind, tokens.filterMap (Token.number? kind) = leaves.filterMap (Leaf.number? table kind)

def ShowsParts (table : Aliases) (parts : List (List Token)) (leaves : List Leaf) : Prop :=
  ∀ kind, parts.flatMap (List.filterMap (Token.number? kind)) =
    leaves.filterMap (Leaf.number? table kind)

variable {table : Aliases} {tokens more : List Token} {leaves others : List Leaf}
  {parts rest : List (List Token)}

namespace Shows

theorem append (h : Shows table tokens leaves) (h' : Shows table more others) :
    Shows table (tokens ++ more) (leaves ++ others) := by
  intro kind
  rw [List.filterMap_append, List.filterMap_append, h kind, h' kind]

/-- A token in front that is no alias. -/
theorem cons {t : Token} (h : Shows table tokens leaves) (ht : ∀ kind, t.number? kind = none) :
    Shows table (t :: tokens) leaves := by
  intro kind
  rw [List.filterMap_cons_none (ht kind), h kind]

/-- A token behind that is no alias. -/
theorem concat {t : Token} (h : Shows table tokens leaves) (ht : ∀ kind, t.number? kind = none) :
    Shows table (tokens ++ [t]) leaves := by
  intro kind
  rw [List.filterMap_append, List.filterMap_cons_none (ht kind), List.filterMap_nil,
    List.append_nil, h kind]

theorem value (v : AttributeValue) :
    Shows table [.valueAlias (table.valueNumber v)] [.value v] := by
  intro kind
  cases kind <;> rfl

theorem separate {sep : Token} (h : ShowsParts table parts leaves)
    (hsep : ∀ kind, sep.number? kind = none) :
    Shows table (Token.separate sep parts) leaves := by
  intro kind
  rw [← h kind]
  clear h
  induction parts with
  | nil => rfl
  | cons part rest ih =>
      cases rest with
      | nil => simp [Token.separate]
      | cons next rest =>
          have hsplit : Token.separate sep (part :: next :: rest) =
              part ++ sep :: Token.separate sep (next :: rest) := rfl
          rw [hsplit, List.filterMap_append, List.filterMap_cons_none (hsep kind), ih,
            ← List.flatMap_cons]

theorem enclosed (h : Shows table tokens leaves) (wrap : Bool) :
    Shows table (Condition.enclosed wrap tokens) leaves := by
  cases wrap with
  | false => exact h
  | true => exact (h.cons fun _ => rfl).concat fun _ => rfl

end Shows

namespace ShowsParts

theorem nil : ShowsParts table [] [] := fun _ => rfl

theorem append (h : ShowsParts table parts leaves) (h' : ShowsParts table rest others) :
    ShowsParts table (parts ++ rest) (leaves ++ others) := by
  intro kind
  rw [List.flatMap_append, List.filterMap_append, h kind, h' kind]

theorem single (h : Shows table tokens leaves) : ShowsParts table [tokens] leaves := by
  intro kind
  rw [← h kind, List.flatMap_cons, List.flatMap_nil, List.append_nil]

theorem map {α : Type} {part : α → List Token} {leaves : α → List Leaf} {xs : List α}
    (h : ∀ x ∈ xs, Shows table (part x) (leaves x)) :
    ShowsParts table (xs.map part) (xs.flatMap leaves) := by
  induction xs with
  | nil => exact nil
  | cons x rest ih =>
      obtain ⟨hx, hrest⟩ := List.forall_mem_cons.1 h
      exact (single hx).append (ih hrest)

/-- A clause without an action has no text. -/
theorem clause {k : Clause} (h : ShowsParts table parts leaves) :
    ShowsParts table (k.tokens parts) leaves := by
  cases parts with
  | nil => exact h
  | cons part rest => exact single ((Shows.separate h fun _ => rfl).cons fun _ => rfl)

end ShowsParts

/-! ## Trees -/

theorem PathStep.shows (step : PathStep String) :
    Shows table (step.map table.nameNumber).tokens step.leaves := by
  intro kind
  rcases step with n | i
  · cases kind <;> rfl
  · cases kind <;> rfl

theorem Path.shows (path : AttributePath) :
    Shows table (table.numberPath path).tokens path.leaves := by
  have hhead : Shows table [.nameAlias (table.nameNumber path.head)] [.name path.head] := by
    intro kind
    cases kind <;> rfl
  have htail : Shows table ((path.tail.map (PathStep.map table.nameNumber)).flatMap
      PathStep.tokens) (path.tail.flatMap PathStep.leaves) := by
    induction path.tail with
    | nil => exact fun _ => rfl
    | cons step rest ih => exact step.shows.append ih
  exact hhead.append htail

theorem Operand.shows (operand : PlainOperand) :
    Shows table (operand.map table.numberPath table.valueNumber).tokens operand.leaves := by
  cases operand with
  | name path => exact path.shows
  | value v => exact .value v
  | size path => exact (path.shows.cons fun _ => rfl).concat fun _ => rfl

theorem Condition.shows (condition : PlainCondition) :
    Shows table (condition.map table.numberPath table.valueNumber).tokens condition.leaves := by
  induction condition with
  | compare op left right => exact left.shows.append (right.shows.cons fun _ => rfl)
  | between value low high =>
      exact (value.shows.append (low.shows.cons fun _ => rfl)).append
        (high.shows.cons fun _ => rfl)
  | within value candidates =>
      have hcandidates : ShowsParts table
          ((candidates.map (Operand.map table.numberPath table.valueNumber)).map Operand.tokens)
          (candidates.flatMap Operand.leaves) := by
        rw [List.map_map]
        exact .map fun candidate _ => candidate.shows
      exact (value.shows.append ((Shows.separate hcandidates fun _ => rfl).cons
        fun _ => rfl)).concat fun _ => rfl
  | presence function path => exact (path.shows.cons fun _ => rfl).concat fun _ => rfl
  | test function path v =>
      exact (path.shows.cons fun _ => rfl).append
        (((Shows.value v).concat fun _ => rfl).cons fun _ => rfl)
  | join op left right hleft hright =>
      exact (hleft.enclosed _).append ((hright.enclosed _).cons fun _ => rfl)
  | not inner hinner => exact (hinner.cons fun _ => rfl).concat fun _ => rfl

theorem SortKeyCondition.shows (condition : SortKeyCondition AttributePath AttributeValue) :
    Shows table (SortKeyCondition.mk (table.numberPath condition.key)
      (condition.test.map table.valueNumber)).tokens condition.leaves := by
  rcases condition with ⟨key, test⟩
  cases test with
  | compare op v => exact key.shows.append ((Shows.value v).cons fun _ => rfl)
  | between low high =>
      exact key.shows.append (((Shows.value low).append ((Shows.value high).cons
        fun _ => rfl)).cons fun _ => rfl)
  | beginsWith leading =>
      exact (key.shows.cons fun _ => rfl).append
        (((Shows.value leading).concat fun _ => rfl).cons fun _ => rfl)

theorem KeyCondition.shows (tree : PlainKeyCondition) :
    Shows table (tree.map table.numberPath table.valueNumber).tokens tree.leaves := by
  rcases tree with ⟨key, value, sort⟩
  have hpartition : Shows table ((table.numberPath key).tokens ++
      [.comparison .eq, .valueAlias (table.valueNumber value)]) (key.leaves ++ [.value value]) :=
    key.shows.append ((Shows.value value).cons fun _ => rfl)
  cases sort with
  | none =>
      intro kind
      rw [leaves, Option.elim_none, List.append_nil]
      exact hpartition kind
  | some sort => exact hpartition.append (sort.shows.cons fun _ => rfl)

theorem Projection.shows (tree : PlainProjection) :
    Shows table (tree.map table.numberPath).tokens tree.leaves := by
  have hnames : ShowsParts table ((tree.names.map table.numberPath).map Path.tokens)
      (tree.names.flatMap Path.leaves) := by
    rw [List.map_map]
    exact .map fun path _ => path.shows
  exact Shows.separate hnames fun _ => rfl

theorem SetValue.shows (value : PlainSetValue) :
    Shows table (value.map table.numberPath table.valueNumber).tokens value.leaves := by
  induction value with
  | operand source => exact source.shows
  | arithmetic op left right hleft hright => exact hleft.append (hright.cons fun _ => rfl)
  | listAppend left right hleft hright =>
      exact ((hleft.cons fun _ => rfl).append (hright.cons fun _ => rfl)).concat fun _ => rfl
  | ifNotExists path fallback hfallback =>
      exact ((path.shows.cons fun _ => rfl).append (hfallback.cons fun _ => rfl)).concat
        fun _ => rfl

theorem Update.shows (tree : PlainUpdate) :
    Shows table (tree.map table.numberPath table.valueNumber).tokens tree.leaves := by
  have hsets : ShowsParts table
      (Clause.set.tokens (tree.sets.map fun action => (table.numberPath action.1).tokens ++
        .comparison .eq :: (action.2.map table.numberPath table.valueNumber).tokens))
      (tree.sets.flatMap fun action => action.1.leaves ++ action.2.leaves) :=
    .clause (.map fun action _ => action.1.shows.append (action.2.shows.cons fun _ => rfl))
  have hremoves : ShowsParts table
      (Clause.remove.tokens (tree.removes.map fun path => (table.numberPath path).tokens))
      (tree.removes.flatMap Path.leaves) :=
    .clause (.map fun path _ => path.shows)
  have hchanges : ∀ (clause : Clause) (actions : List (AttributePath × AttributeValue)),
      ShowsParts table
        (clause.tokens (actions.map fun action => (table.numberPath action.1).tokens ++
          [.space, .valueAlias (table.valueNumber action.2)]))
        (actions.flatMap fun action => action.1.leaves ++ [.value action.2]) :=
    fun clause actions => .clause (.map fun action _ =>
      action.1.shows.append ((Shows.value action.2).cons fun _ => rfl))
  have hall := ((hsets.append hremoves).append (hchanges .add tree.adds)).append
    (hchanges .delete tree.deletes)
  simp only [Update.map, Update.tokens, List.map_map]
  exact Shows.separate hall fun _ => rfl

end DynamoExpr
