import DynamoExpr.Proofs.Builder.Draft

/-!
# What builds

A builder with a tree builds exactly when each tree is well formed on its own and no text is too
long.  What an earlier tree entered into the table never decides whether a later one passes.
-/

namespace DynamoExpr.Builder

def Holds (builder : Builder) : ExpressionKind → Prop
  | .condition => builder.condition ≠ none
  | .filter => builder.filter ≠ none
  | .keyCondition => builder.keyCondition ≠ none
  | .projection => builder.projection ≠ none
  | .update => builder.update ≠ none

structure WellFormed (builder : Builder) : Prop where
  condition : ∀ tree ∈ builder.condition, tree.WellFormed builder.limits
  filter : ∀ tree ∈ builder.filter, tree.WellFormed builder.limits
  keyCondition : ∀ tree ∈ builder.keyCondition, tree.WellFormed
  projection : ∀ tree ∈ builder.projection, tree.WellFormed
  update : ∀ tree ∈ builder.update, tree.WellFormed

/-- The text of the tree of a kind, whatever its length. -/
def text? (builder : Builder) (kind : ExpressionKind) : Option String :=
  match builder.checked with
  | .ok draft => draft.expression.get kind
  | .error _ => none

def TextsFit (builder : Builder) : Prop :=
  ∀ kind text, builder.text? kind = some text →
    text.utf8ByteSize ≤ builder.limits.expressionLength

theorem isEmpty_iff {builder : Builder} :
    builder.isEmpty = true ↔ ∀ kind, ¬ builder.Holds kind := by
  simp only [isEmpty, Bool.and_eq_true, Option.isNone_iff_eq_none]
  constructor
  · intro h kind
    rcases h with ⟨⟨⟨⟨hcondition, hfilter⟩, hkey⟩, hprojection⟩, hupdate⟩
    cases kind with
    | condition => exact not_not_intro hcondition
    | filter => exact not_not_intro hfilter
    | keyCondition => exact not_not_intro hkey
    | projection => exact not_not_intro hprojection
    | update => exact not_not_intro hupdate
  · intro h
    exact ⟨⟨⟨⟨Decidable.not_not.1 (h .condition), Decidable.not_not.1 (h .filter)⟩,
      Decidable.not_not.1 (h .keyCondition)⟩, Decidable.not_not.1 (h .projection)⟩,
      Decidable.not_not.1 (h .update)⟩

theorem isEmpty_eq_false_iff {builder : Builder} :
    builder.isEmpty = false ↔ ∃ kind, builder.Holds kind := by
  rw [← Bool.not_eq_true, isEmpty_iff]
  exact Classical.not_forall_not

theorem checked_slot_succeeds_iff {ι β : Type} {check : ι → Except ParameterFault β}
    {tree : Option ι} :
    (∃ b, tree.mapM check = .ok b) ↔ ∀ x ∈ tree, ∃ y, check x = .ok y := by
  cases tree with
  | none => exact ⟨fun _ _ h => (by cases h), fun _ => ⟨none, rfl⟩⟩
  | some x =>
      simp only [checked_mapM_some_eq_ok_iff]
      constructor
      · intro h z hz
        rcases h with ⟨_, y, hy, -⟩
        cases hz
        exact ⟨y, hy⟩
      · intro h
        obtain ⟨y, hy⟩ := h x rfl
        exact ⟨some y, y, hy, rfl⟩

theorem checked_succeeds_iff {builder : Builder} :
    (∃ draft, builder.checked = .ok draft) ↔ builder.WellFormed := by
  simp only [checked, checked_bind_succeeds_iff, checked_pure_succeeds, and_true,
    exists_and_right, checked_slot_succeeds_iff, Condition.checked_succeeds_iff,
    KeyCondition.checked_succeeds_iff, Projection.checked_succeeds_iff,
    Update.checked_succeeds_iff]
  constructor
  · intro h
    rcases h with ⟨hcondition, hfilter, hkey, hprojection, hupdate⟩
    exact ⟨hcondition, hfilter, hkey, hprojection, hupdate⟩
  · intro h
    exact ⟨h.condition, h.filter, h.keyCondition, h.projection, h.update⟩

theorem text?_of_checked {builder : Builder} {draft : Draft} (h : builder.checked = .ok draft)
    (kind : ExpressionKind) : builder.text? kind = draft.expression.get kind := by
  unfold text?
  rw [h]

theorem textsFit_iff {builder : Builder} {draft : Draft} (h : builder.checked = .ok draft) :
    builder.TextsFit ↔ draft.expression.Fits builder.limits := by
  simp only [TextsFit, Expression.Fits, text?_of_checked h]

theorem build_succeeds_iff {builder : Builder} :
    (∃ expression, builder.build = .ok expression) ↔
      (∃ kind, builder.Holds kind) ∧ builder.WellFormed ∧ builder.TextsFit := by
  rw [← isEmpty_eq_false_iff, ← checked_succeeds_iff]
  constructor
  · intro h
    rcases h with ⟨expression, hbuild⟩
    obtain ⟨hempty, draft, hchecked, hfits, -⟩ := build_eq_ok_iff.1 hbuild
    exact ⟨hempty, ⟨draft, hchecked⟩, (textsFit_iff hchecked).2 hfits⟩
  · intro h
    rcases h with ⟨hempty, ⟨draft, hchecked⟩, hfits⟩
    exact ⟨draft.expression, build_of_fits hempty hchecked ((textsFit_iff hchecked).1 hfits)⟩

theorem build_unset_iff {builder : Builder} :
    builder.build = .error .unset ↔ ∀ kind, ¬ builder.Holds kind := by
  rw [← isEmpty_iff]
  constructor
  · intro hbuild
    by_cases hgood : ∃ expression, builder.build = .ok expression
    · rcases hgood with ⟨expression, hok⟩
      rw [hok] at hbuild
      cases hbuild
    · refine eq_true_of_ne_false fun hempty => ?_
      obtain ⟨fault, herror⟩ := build_of_not_fits hempty fun draft hchecked hfits =>
        hgood ⟨draft.expression, build_of_fits hempty hchecked hfits⟩
      rw [herror] at hbuild
      cases hbuild
  · exact build_of_isEmpty

/-- The two kinds of error and success exclude each other, so the other two decide this one. -/
theorem build_invalid_iff {builder : Builder} :
    (∃ fault, builder.build = .error (.invalid fault)) ↔
      (∃ kind, builder.Holds kind) ∧ ¬ (builder.WellFormed ∧ builder.TextsFit) := by
  constructor
  · intro h
    rcases h with ⟨fault, hbuild⟩
    have hholds : ∃ kind, builder.Holds kind := by
      rw [← isEmpty_eq_false_iff]
      refine eq_false_of_ne_true fun hempty => ?_
      rw [build_of_isEmpty hempty] at hbuild
      cases hbuild
    refine ⟨hholds, fun hgood => ?_⟩
    obtain ⟨expression, hok⟩ := build_succeeds_iff.2 ⟨hholds, hgood⟩
    rw [hok] at hbuild
    cases hbuild
  · intro h
    rcases h with ⟨hholds, hbad⟩
    cases hbuild : builder.build with
    | ok expression => exact absurd (build_succeeds_iff.1 ⟨expression, hbuild⟩).2 hbad
    | error error =>
        cases error with
        | invalid fault => exact ⟨fault, rfl⟩
        | unset =>
            rcases hholds with ⟨kind, hkind⟩
            exact absurd hkind (build_unset_iff.1 hbuild kind)

theorem slot_ne_none_iff {ι β : Type} {check : ι → Except ParameterFault β} {tree : Option ι}
    {plain : Option β} (h : tree.mapM check = .ok plain) : plain ≠ none ↔ tree ≠ none := by
  cases tree with
  | none =>
      cases h
      simp
  | some x =>
      obtain ⟨b, -, rfl⟩ := checked_mapM_some_eq_ok_iff.1 h
      exact iff_of_true (Option.some_ne_none b) (Option.some_ne_none x)

/-- Where all trees are well formed, each of them has a text. -/
theorem text?_ne_none_iff {builder : Builder} (h : builder.WellFormed) (kind : ExpressionKind) :
    builder.text? kind ≠ none ↔ builder.Holds kind := by
  obtain ⟨draft, hchecked⟩ := checked_succeeds_iff.2 h
  rw [text?_of_checked hchecked]
  obtain ⟨hcondition, hfilter, hkey, hprojection, hupdate⟩ := checked_eq_ok_iff.1 hchecked
  cases kind with
  | condition => exact (not_congr Option.map_eq_none_iff).trans (slot_ne_none_iff hcondition)
  | filter => exact (not_congr Option.map_eq_none_iff).trans (slot_ne_none_iff hfilter)
  | keyCondition => exact (not_congr Option.map_eq_none_iff).trans (slot_ne_none_iff hkey)
  | projection => exact (not_congr Option.map_eq_none_iff).trans (slot_ne_none_iff hprojection)
  | update => exact (not_congr Option.map_eq_none_iff).trans (slot_ne_none_iff hupdate)

/--
A builder without a tree is unset.  Any other builds exactly when each tree is well formed on its
own and the texts fit, and then gives these texts; in every other case a parameter is at fault.
-/
theorem build_outcome (builder : Builder) :
    (builder.build = .error .unset ↔ ∀ kind, ¬ builder.Holds kind) ∧
    ((∃ expression, builder.build = .ok expression) ↔
      (∃ kind, builder.Holds kind) ∧ builder.WellFormed ∧ builder.TextsFit) ∧
    ((∃ fault, builder.build = .error (.invalid fault)) ↔
      (∃ kind, builder.Holds kind) ∧ ¬ (builder.WellFormed ∧ builder.TextsFit)) ∧
    (builder.WellFormed → ∀ kind, builder.text? kind ≠ none ↔ builder.Holds kind) ∧
    ∀ expression, builder.build = .ok expression →
      ∀ kind, expression.get kind = builder.text? kind := by
  refine ⟨build_unset_iff, build_succeeds_iff, build_invalid_iff, text?_ne_none_iff, ?_⟩
  intro expression hbuild kind
  obtain ⟨-, draft, hchecked, -, rfl⟩ := build_eq_ok_iff.1 hbuild
  exact (text?_of_checked hchecked kind).symm

end DynamoExpr.Builder
