import DynamoExpr.Proofs.Builder.Stages
import DynamoExpr.Proofs.Tree.Alike

/-!
# Grouping of chains

A condition shows its surroundings no more than its tokens and the connective that it joins by.
Joining what two conditions show is associative, and aliases are entered from left to right however
a chain is grouped, so conditions that differ in their grouping are written alike.
-/

namespace DynamoExpr

variable {ν β : Type}

/-- The same condition up to the grouping of chains of one connective, at any depth. -/
abbrev Condition.Regroups : Condition ν β → Condition ν β → Prop := Condition.Like Eq

theorem Operand.Like.eq {a b : Operand ν β} (h : a.Like Eq b) : a = b := by
  cases h with
  | name path => rfl
  | value h => rw [h]
  | size path => rfl

theorem Condition.AtomLike.eq {a b : Condition ν β} (h : a.AtomLike Eq b) : a = b := by
  cases h with
  | compare op hleft hright => rw [hleft.eq, hright.eq]
  | between hvalue hlow hhigh => rw [hvalue.eq, hlow.eq, hhigh.eq]
  | within hvalue hcandidates =>
      have heq := hcandidates.imp fun _ _ h => Operand.Like.eq h
      rw [List.forall₂_eq_eq_eq] at heq
      rw [hvalue.eq, heq]
  | presence function path => rfl
  | test function path h => rw [h]

namespace Condition

/-! ## What a condition shows -/

/-- The tokens of a condition and the connective that it joins by. -/
structure Shown where
  tokens : List Token
  connective? : Option Connective

namespace Shown

/-- The tokens as a side of the connective. -/
def side (op : Connective) (shown : Shown) : List Token :=
  enclosed (shown.connective?.any (· ≠ op)) shown.tokens

def join (op : Connective) (left right : Shown) : Shown :=
  ⟨left.side op ++ .connective op :: right.side op, some op⟩

/-- A side that joins by the same connective stands without parentheses. -/
theorem side_join (op : Connective) (left right : Shown) :
    (join op left right).side op = left.side op ++ .connective op :: right.side op := by
  simp [side, join, enclosed]

theorem join_assoc (op : Connective) (a b c : Shown) :
    join op (join op a b) c = join op a (join op b c) := by
  have htokens : (join op a b).side op ++ .connective op :: c.side op =
      a.side op ++ .connective op :: (join op b c).side op := by
    rw [side_join, side_join, List.append_assoc, List.cons_append]
  exact congrArg (Shown.mk · (some op)) htokens

end Shown

def shown (condition : Condition (Path Nat) Nat) : Shown where
  tokens := condition.tokens
  connective? := match condition with
    | .join op _ _ => some op
    | _ => none

theorem side_shown (op : Connective) (condition : Condition (Path Nat) Nat) :
    condition.shown.side op = enclosed (condition.joinsOtherwise op) condition.tokens := by
  cases condition <;> rfl

theorem shown_join (op : Connective) (left right : Condition (Path Nat) Nat) :
    (join op left right).shown = .join op left.shown right.shown := by
  rw [Shown.join, side_shown, side_shown]
  rfl

/-! ## Aliasing what is shown -/

def aliasShown (limits : Limits) (tree : SourceCondition) : Aliasing Shown := do
  return (← tree.aliased limits).shown

section Alias

variable {limits : Limits}

theorem aliasShown_join (op : Connective) (left right : SourceCondition) :
    (join op left right).aliasShown limits =
      (do return .join op (← left.aliasShown limits) (← right.aliasShown limits)) := by
  simp only [aliasShown, aliased, bind_assoc, pure_bind, shown_join]

/-- NOT encloses what it applies to, whatever that joins by. -/
theorem aliasShown_not (inner : SourceCondition) :
    (not inner).aliasShown limits =
      (do return ⟨.not :: (← inner.aliasShown limits).tokens ++ [.closing], none⟩) := by
  simp only [aliasShown, aliased, bind_assoc, pure_bind]
  rfl

theorem aliasShown_assoc (op : Connective) (a b c : SourceCondition) :
    (join op (join op a b) c).aliasShown limits = (join op a (join op b c)).aliasShown limits := by
  simp only [aliasShown_join, bind_assoc, pure_bind, Shown.join_assoc]

/-- The induction is on how the conditions are related; each rotation is an associativity. -/
theorem Regroups.aliasShown_eq {tree other : SourceCondition} (h : tree.Regroups other) :
    tree.aliasShown limits = other.aliasShown limits := by
  induction h with
  | atom h => rw [h.eq]
  | join op _ _ hleft hright => rw [aliasShown_join, aliasShown_join, hleft, hright]
  | not _ hinner => rw [aliasShown_not, aliasShown_not, hinner]
  | assoc op a b c => exact aliasShown_assoc op a b c
  | symm _ h => exact h.symm
  | trans _ _ h k => exact h.trans k

theorem tokens_eq_of_aliasShown (tree : SourceCondition) :
    (SourceTree.condition tree).tokens limits =
      (do return (← tree.aliasShown limits).tokens) := by
  simp only [SourceTree.tokens, aliasShown, bind_assoc, pure_bind]
  rfl

theorem Regroups.write_eq {tree other : SourceCondition} (h : tree.Regroups other)
    (kind : ExpressionKind) :
    (SourceTree.condition tree).write limits kind =
      (SourceTree.condition other).write limits kind := by
  rw [SourceTree.write, SourceTree.write, tokens_eq_of_aliasShown, tokens_eq_of_aliasShown,
    h.aliasShown_eq]

end Alias

end Condition

/--
A builder cannot tell two groupings of its condition or of its filter apart: it builds the same
expression with both, or fails with the same error.
-/
theorem Builder.build_regrouped {tree other : SourceCondition} (h : tree.Regroups other)
    (builder : Builder) :
    (builder.withCondition tree).build = (builder.withCondition other).build ∧
      (builder.withFilter tree).build = (builder.withFilter other).build := by
  constructor
  · refine build_congr rfl fun kind => ?_
    cases kind with
    | condition => exact congrArg (some <$> ·) (h.write_eq .condition)
    | filter => rfl
    | keyCondition => rfl
    | projection => rfl
    | update => rfl
  · refine build_congr rfl fun kind => ?_
    cases kind with
    | condition => rfl
    | filter => exact congrArg (some <$> ·) (h.write_eq .filter)
    | keyCondition => rfl
    | projection => rfl
    | update => rfl

def Condition.lessThan (left right : String) : SourceCondition :=
  .compare .lt (.name (.path ⟨left, []⟩)) (.name (.path ⟨right, []⟩))

/-- A chain of AND with a chain of OR under NOT and another in parentheses, grouped to the left. -/
def Condition.leftward : SourceCondition :=
  .join .and
    (.join .and
      (.not (.join .or (.join .or (lessThan "a" "b") (lessThan "b" "c")) (lessThan "c" "a")))
      (.join .or (.join .or (lessThan "b" "a") (lessThan "d" "a")) (lessThan "a" "d")))
    (lessThan "b" "d")

def Condition.rightward : SourceCondition :=
  .join .and (.not (.join .or (lessThan "a" "b") (.join .or (lessThan "b" "c") (lessThan "c" "a"))))
    (.join .and (.join .or (lessThan "b" "a") (.join .or (lessThan "d" "a") (lessThan "a" "d")))
      (lessThan "b" "d"))

theorem Condition.leftward_regroups_rightward : leftward.Regroups rightward :=
  .trans (.assoc .and _ _ _)
    (.join .and (.not (.assoc .or _ _ _)) (.join .and (.assoc .or _ _ _) (.refl (fun _ => rfl) _)))

theorem Builder.rightward_build_regrouped :
    Condition.leftward.Regroups Condition.rightward ∧
      (({} : Builder).withCondition Condition.rightward).build = .ok
        { condition := some
            "NOT (#0 < #1 OR #1 < #2 OR #2 < #0) AND (#1 < #0 OR #3 < #0 OR #0 < #3) AND #1 < #3",
          filter := none, keyCondition := none, projection := none, update := none,
          aliases := ⟨["a", "b", "c", "d"], []⟩ } ∧
      (({ limits := ⟨9, 0⟩ } : Builder).withFilter Condition.rightward).build =
        .error (.invalid (.tooLong .filter 83 9)) := by
  have h := Condition.leftward_regroups_rightward
  refine ⟨h, ?_, ?_⟩
  · rw [← (build_regrouped h {}).1]
    rfl
  · rw [← (build_regrouped h { limits := ⟨9, 0⟩ }).2]
    rfl

end DynamoExpr
