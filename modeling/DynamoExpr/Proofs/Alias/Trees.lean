import DynamoExpr.Proofs.Alias.Table

/-!
# Aliasing whole trees

Each kind of tree is aliased as its check says: with the first fault of the tree, or with the
leaves of the plain tree entered in the order of the text.
-/

namespace DynamoExpr

open Aliases

theorem Condition.enters (limits : Limits) (tree : SourceCondition) :
    Enters (tree.aliased limits) (tree.checked limits) Condition.leaves
      (fun table plain => plain.map table.numberPath table.valueNumber) := by
  induction tree with
  | compare op left right =>
      exact (operand_enters left).map₂ (operand_enters right) (Condition.compare op)
        (Condition.compare op) (fun _ _ => rfl) (fun _ _ _ => rfl)
  | between value low high =>
      exact (operand_enters value).map₃ (operand_enters low) (operand_enters high)
        Condition.between Condition.between (fun _ _ _ => rfl) (fun _ _ _ _ => rfl)
  | within value candidates =>
      have hcandidates := Enters.mapM operand_enters candidates
      exact (((operand_enters value).map₂ hcandidates Condition.within Condition.within
        (fun _ _ => rfl) (fun _ _ _ => rfl)).unlessFault _ _).unlessFault _ _
  | presence function path =>
      exact (nameRef_enters path).map (Condition.presence function) (Condition.presence function)
        (fun _ => rfl) (fun _ _ => rfl)
  | test function path literal =>
      exact (nameRef_enters path).map₂ (literal_enters literal) (Condition.test function)
        (Condition.test function) (fun _ _ => rfl) (fun _ _ _ => rfl)
  | join op left right hleft hright =>
      exact hleft.map₂ hright (Condition.join op) (Condition.join op) (fun _ _ => rfl)
        (fun _ _ _ => rfl)
  | not inner hinner =>
      exact hinner.map Condition.not Condition.not (fun _ => rfl) (fun _ _ => rfl)

theorem SortKeyTest.enters (test : SortKeyTest AttributeValue) :
    Enters test.aliased test.checked SortKeyTest.leaves
      (fun table plain => plain.map table.valueNumber) := by
  cases test with
  | compare op value =>
      exact (value_enters value).map (SortKeyTest.compare op) (SortKeyTest.compare op)
        (fun _ => rfl) (fun _ _ => rfl)
  | between low high =>
      exact (value_enters low).map₂ (value_enters high) SortKeyTest.between SortKeyTest.between
        (fun _ _ => rfl) (fun _ _ _ => rfl)
  | beginsWith leading =>
      exact (value_enters leading).map SortKeyTest.beginsWith SortKeyTest.beginsWith
        (fun _ => rfl) (fun _ _ => rfl)

theorem KeyCondition.enters (tree : SourceKeyCondition) :
    Enters tree.aliased tree.checked KeyCondition.leaves
      (fun table plain => plain.map table.numberPath table.valueNumber) := by
  rcases tree with ⟨key, value, sort⟩
  unfold KeyCondition.aliased KeyCondition.checked
  refine Enters.unlessFault ?_ _ _
  cases sort with
  | none =>
      exact (nameRef_enters key).map₂ (value_enters value) (KeyCondition.mk · · none)
        (KeyCondition.mk · · none) (fun _ _ => by simp [KeyCondition.leaves]) (fun _ _ _ => rfl)
  | some sort =>
      exact (nameRef_enters key).map₄ (value_enters value) (nameRef_enters sort.key)
        (SortKeyTest.enters sort.test)
        (fun key value sortKey test => KeyCondition.mk key value (some ⟨sortKey, test⟩))
        (fun key value sortKey test => KeyCondition.mk key value (some ⟨sortKey, test⟩))
        (fun _ _ _ _ => by simp [KeyCondition.leaves, SortKeyCondition.leaves])
        (fun _ _ _ _ _ => rfl)

theorem eraseDups_filter_cons {p : AttributePath} {seen : List AttributePath} (hp : p ∉ seen)
    (paths : List AttributePath) :
    ((p :: paths).filter (!seen.contains ·)).eraseDups =
      p :: (paths.filter (!(p :: seen).contains ·)).eraseDups := by
  have hkeep : ∀ q : AttributePath,
      (!(q == p) && !seen.contains q) = !(p :: seen).contains q := by
    intro q
    rw [List.contains_cons, Bool.not_or]
  rw [List.filter_cons_of_pos (by simpa using hp), List.eraseDups_cons, List.filter_filter]
  simp only [hkeep]

namespace Projection

/-- The paths that are not among those seen before, each one once. -/
def freshPaths (seen : List AttributePath) (names : List NameRef) :
    Except ParameterFault (List AttributePath) := do
  let paths ← names.mapM NameRef.checked
  return (paths.filter (!seen.contains ·)).eraseDups

theorem freshPaths_of_mem {p : AttributePath} {seen : List AttributePath} (hp : p ∈ seen)
    (rest : List NameRef) : freshPaths seen (.path p :: rest) = freshPaths seen rest := by
  unfold freshPaths
  rw [List.mapM_cons]
  cases rest.mapM NameRef.checked with
  | error fault => rfl
  | ok paths =>
      have hdrop : (p :: paths).filter (!seen.contains ·) = paths.filter (!seen.contains ·) :=
        List.filter_cons_of_neg (by simpa using hp)
      exact congrArg (fun kept => Except.ok (List.eraseDups kept)) hdrop

theorem freshPaths_of_not_mem {p : AttributePath} {seen : List AttributePath} (hp : p ∉ seen)
    (rest : List NameRef) :
    freshPaths seen (.path p :: rest) =
      (do
        let first ← Except.ok p
        let others ← freshPaths (p :: seen) rest
        return first :: others) := by
  unfold freshPaths
  rw [List.mapM_cons]
  cases rest.mapM NameRef.checked with
  | error fault => rfl
  | ok paths => exact congrArg Except.ok (eraseDups_filter_cons hp paths)

/-- A path requested before is left out, and so it enters nothing. -/
theorem aliasNames_enters (seen : List AttributePath) (names : List NameRef) :
    Enters (aliasNames seen names) (freshPaths seen names) (fun paths => paths.flatMap Path.leaves)
      (fun table paths => paths.map table.numberPath) := by
  induction names generalizing seen with
  | nil =>
      refine ⟨fun {table b} hs hr => ?_, fun _ hr => by cases hr⟩
      cases hr
      exact ⟨[], rfl, hs, fun _ _ => rfl⟩
  | cons name rest ih =>
      cases name with
      | faulty error => exact .refuse (.name error)
      | path p =>
          by_cases hp : p ∈ seen
          · rw [freshPaths_of_mem hp, aliasNames, if_pos hp]
            exact ih seen
          · rw [freshPaths_of_not_mem hp, aliasNames, if_neg hp]
            exact (path_enters p).map₂ (ih (p :: seen)) List.cons List.cons (fun _ _ => rfl)
              (fun _ _ _ => rfl)

/-- A path requested again stands in the text once. -/
theorem enters (tree : SourceProjection) :
    Enters tree.aliased tree.checked Projection.leaves
      (fun table plain => plain.map table.numberPath) := by
  unfold aliased checked
  refine Enters.unlessFault ?_ _ _
  have hchecked :
      (do
        let paths ← tree.names.mapM NameRef.checked
        return (Projection.mk paths.eraseDups)) =
      (do return Projection.mk (← freshPaths [] tree.names)) := by
    have hall : ∀ paths : List AttributePath,
        paths.filter (!([] : List AttributePath).contains ·) = paths :=
      fun paths => List.filter_eq_self.2 fun _ _ => rfl
    simp only [freshPaths, hall, bind_assoc, pure_bind]
  rw [hchecked]
  exact (aliasNames_enters [] tree.names).map Projection.mk Projection.mk (fun _ => rfl)
    (fun _ _ => rfl)

end Projection

theorem SetValue.enters (value : SetValue NameRef Literal) :
    Enters value.aliased value.checked SetValue.leaves
      (fun table plain => plain.map table.numberPath table.valueNumber) := by
  induction value with
  | operand source =>
      cases source with
      | name ref =>
          exact (operand_enters (.name ref)).map SetValue.operand SetValue.operand (fun _ => rfl)
            (fun _ _ => rfl)
      | value l =>
          exact (operand_enters (.value l)).map SetValue.operand SetValue.operand (fun _ => rfl)
            (fun _ _ => rfl)
      | size ref => exact .refuse .sizeInUpdate
  | arithmetic op left right hleft hright =>
      exact (hleft.map₂ hright (SetValue.arithmetic op) (SetValue.arithmetic op) (fun _ _ => rfl)
        (fun _ _ _ => rfl)).unlessFault _ _
  | listAppend left right hleft hright =>
      exact hleft.map₂ hright SetValue.listAppend SetValue.listAppend (fun _ _ => rfl)
        (fun _ _ _ => rfl)
  | ifNotExists path fallback hfallback =>
      exact (nameRef_enters path).map₂ hfallback SetValue.ifNotExists SetValue.ifNotExists
        (fun _ _ => rfl) (fun _ _ _ => rfl)

theorem LiteralClause.aliasAction_enters (clause : LiteralClause) (action : NameRef × Literal) :
    Enters (clause.aliasAction action) (clause.checkedAction action)
      (fun action => action.1.leaves ++ [.value action.2])
      (fun table action => (table.numberPath action.1, table.valueNumber action.2)) :=
  ((nameRef_enters action.1).map₂ (literal_enters action.2) Prod.mk Prod.mk (fun _ _ => rfl)
    (fun _ _ _ => rfl)).unlessFault _ _

theorem SetValue.aliasAction_enters (action : NameRef × SetValue NameRef Literal) :
    Enters (SetValue.aliasAction action) (SetValue.checkedAction action)
      (fun action => action.1.leaves ++ action.2.leaves)
      (fun table action =>
        (table.numberPath action.1, action.2.map table.numberPath table.valueNumber)) :=
  (nameRef_enters action.1).map₂ (SetValue.enters action.2) Prod.mk Prod.mk (fun _ _ => rfl)
    (fun _ _ _ => rfl)

theorem Update.enters (tree : SourceUpdate) :
    Enters tree.aliased tree.checked Update.leaves
      (fun table plain => plain.map table.numberPath table.valueNumber) := by
  have hsets := Enters.mapM SetValue.aliasAction_enters tree.sets
  have hremoves := Enters.mapM nameRef_enters tree.removes
  have hadds := Enters.mapM LiteralClause.add.aliasAction_enters tree.adds
  have hdeletes := Enters.mapM LiteralClause.delete.aliasAction_enters tree.deletes
  exact (hsets.map₄ hremoves hadds hdeletes Update.mk Update.mk (fun _ _ _ _ => rfl)
    (fun _ _ _ _ _ => rfl)).unlessFault _ _

end DynamoExpr
