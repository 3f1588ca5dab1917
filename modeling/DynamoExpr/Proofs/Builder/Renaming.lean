import DynamoExpr.Proofs.Alias.Renaming
import DynamoExpr.Proofs.Builder.Draft
import Mathlib.Data.List.Basic

/-!
# No data in the texts

Attribute names and strings stand in the maps of an expression only.  Replacing them, different
ones by different ones, gives the same texts and the same error, and replaces them in the maps.
-/

namespace DynamoExpr

open Aliases

section Injective

variable {r s : String → String} (hr : Function.Injective r) (hs : Function.Injective s)

include hr hs

theorem Operand.follows (source : SourceOperand) :
    Follows r s (operand (source.map (NameRef.rename r) (Literal.rename r s))) (operand source) := by
  cases source with
  | name ref => exact (nameRef_follows hr ref).bind fun _ => .pure _
  | value l => exact (literal_follows hs l).bind fun _ => .pure _
  | size ref => exact (nameRef_follows hr ref).bind fun _ => .pure _

theorem Condition.follows (limits : Limits) (tree : SourceCondition) :
    Follows r s ((tree.map (NameRef.rename r) (Literal.rename r s)).aliased limits)
      (tree.aliased limits) := by
  induction tree with
  | compare op left right =>
      exact (Operand.follows hr hs left).bind fun _ =>
        (Operand.follows hr hs right).bind fun _ => .pure _
  | between value low high =>
      exact (Operand.follows hr hs value).bind fun _ => (Operand.follows hr hs low).bind fun _ =>
        (Operand.follows hr hs high).bind fun _ => .pure _
  | within value candidates =>
      have hcandidates := Follows.mapM (Operand.follows hr hs) candidates
      have hwritten := (Operand.follows hr hs value).bind fun first =>
        hcandidates.bind fun others => Follows.pure (Condition.within first others)
      rw [Condition.map, Condition.aliased, Condition.aliased, List.length_map, List.isEmpty_map]
      exact (hwritten.unlessFault Iff.rfl _).unlessFault Iff.rfl _
  | presence function ref => exact (nameRef_follows hr ref).bind fun _ => .pure _
  | test function ref l =>
      exact (nameRef_follows hr ref).bind fun _ => (literal_follows hs l).bind fun _ => .pure _
  | join op left right hleft hright =>
      exact hleft.bind fun _ => hright.bind fun _ => .pure _
  | not inner hinner => exact hinner.bind fun _ => .pure _

omit hr in
theorem SortKeyTest.follows (test : SortKeyTest AttributeValue) :
    Follows r s (test.map (AttributeValue.mapText s)).aliased test.aliased := by
  cases test with
  | compare op v => exact (value_follows hs v).bind fun _ => .pure _
  | between low high =>
      exact (value_follows hs low).bind fun _ => (value_follows hs high).bind fun _ => .pure _
  | beginsWith leading => exact (value_follows hs leading).bind fun _ => .pure _

omit hs in
/-- Renamed keys name one attribute exactly when the keys did. -/
theorem KeyCondition.sameKey_map_iff (tree : SourceKeyCondition) :
    (tree.map (NameRef.rename r) (AttributeValue.mapText s)).sort.map SortKeyCondition.key =
        some (tree.map (NameRef.rename r) (AttributeValue.mapText s)).key ↔
      tree.sort.map SortKeyCondition.key = some tree.key := by
  rcases tree with ⟨key, value, sort⟩
  cases sort with
  | none => simp [KeyCondition.map]
  | some sort => simpa [KeyCondition.map] using (NameRef.rename_injective hr).eq_iff

theorem KeyCondition.follows (tree : SourceKeyCondition) :
    Follows r s (tree.map (NameRef.rename r) (AttributeValue.mapText s)).aliased tree.aliased := by
  refine Follows.unlessFault ?_ (sameKey_map_iff hr tree) _
  rcases tree with ⟨key, value, sort⟩
  cases sort with
  | none =>
      exact (nameRef_follows hr key).bind fun _ => (value_follows hs value).bind fun _ => .pure _
  | some sort =>
      exact (nameRef_follows hr key).bind fun _ => (value_follows hs value).bind fun _ =>
        (nameRef_follows hr sort.key).bind fun _ =>
          (SortKeyTest.follows hs sort.test).bind fun _ => .pure _

omit hs in
/-- Renamed paths repeat exactly where the paths did. -/
theorem Projection.aliasNames_follows (seen : List AttributePath) (names : List NameRef) :
    Follows r s (aliasNames (seen.map (Path.map r)) (names.map (NameRef.rename r)))
      (aliasNames seen names) := by
  induction names generalizing seen with
  | nil => exact .pure []
  | cons name rest ih =>
      cases name with
      | faulty error => exact .refuse (.name error)
      | path p =>
          have hseen : p.map r ∈ seen.map (Path.map r) ↔ p ∈ seen :=
            List.mem_map_of_injective (Path.map_injective hr)
          rw [List.map_cons, NameRef.rename, aliasNames, aliasNames]
          by_cases hp : p ∈ seen
          · rw [if_pos hp, if_pos (hseen.2 hp)]
            exact ih seen
          · rw [if_neg hp, if_neg fun h => hp (hseen.1 h)]
            exact (path_follows hr p).bind fun _ => (ih (p :: seen)).bind fun _ => .pure _

omit hs in
theorem Projection.follows (tree : SourceProjection) :
    Follows r s (tree.map (NameRef.rename r)).aliased tree.aliased := by
  rw [Projection.map, Projection.aliased, Projection.aliased, List.isEmpty_map]
  refine Follows.unlessFault ?_ Iff.rfl _
  exact (aliasNames_follows hr [] tree.names).bind fun _ => .pure _

omit hr hs in
theorem SetValue.isArithmetic_map (value : SetValue NameRef Literal) :
    (value.map (NameRef.rename r) (Literal.rename r s)).isArithmetic = value.isArithmetic := by
  cases value <;> rfl

theorem SetValue.follows (value : SetValue NameRef Literal) :
    Follows r s (value.map (NameRef.rename r) (Literal.rename r s)).aliased value.aliased := by
  induction value with
  | operand source =>
      cases source with
      | name ref => exact (Operand.follows hr hs (.name ref)).bind fun _ => .pure _
      | value l => exact (Operand.follows hr hs (.value l)).bind fun _ => .pure _
      | size ref => exact .refuse .sizeInUpdate
  | arithmetic op left right hleft hright =>
      rw [SetValue.map, SetValue.aliased, SetValue.aliased, isArithmetic_map, isArithmetic_map]
      refine Follows.unlessFault ?_ Iff.rfl _
      exact hleft.bind fun _ => hright.bind fun _ => .pure _
  | listAppend left right hleft hright =>
      exact hleft.bind fun _ => hright.bind fun _ => .pure _
  | ifNotExists ref fallback hfallback =>
      exact (nameRef_follows hr ref).bind fun _ => hfallback.bind fun _ => .pure _

theorem SetValue.action_follows (action : NameRef × SetValue NameRef Literal) :
    Follows r s
      (SetValue.aliasAction
        (action.1.rename r, action.2.map (NameRef.rename r) (Literal.rename r s)))
      (SetValue.aliasAction action) :=
  (nameRef_follows hr action.1).bind fun _ => (SetValue.follows hr hs action.2).bind fun _ =>
    .pure _

theorem LiteralClause.action_follows (clause : LiteralClause) (action : NameRef × Literal) :
    Follows r s (clause.aliasAction (action.1.rename r, action.2.rename r s))
      (clause.aliasAction action) := by
  rw [aliasAction, aliasAction, Literal.type_rename]
  refine Follows.unlessFault ?_ Iff.rfl _
  exact (nameRef_follows hr action.1).bind fun _ => (literal_follows hs action.2).bind fun _ =>
    .pure _

theorem Update.follows (tree : SourceUpdate) :
    Follows r s (tree.map (NameRef.rename r) (Literal.rename r s)).aliased tree.aliased := by
  have hsets := Follows.mapM (SetValue.action_follows hr hs) tree.sets
  have hremoves := Follows.mapM (nameRef_follows (s := s) hr) tree.removes
  have hadds := Follows.mapM (LiteralClause.action_follows hr hs .add) tree.adds
  have hdeletes := Follows.mapM (LiteralClause.action_follows hr hs .delete) tree.deletes
  have hempty : (tree.map (NameRef.rename r) (Literal.rename r s)).isEmpty = tree.isEmpty := by
    simp [isEmpty, Update.map]
  rw [Update.aliased, Update.aliased, hempty]
  refine Follows.unlessFault ?_ Iff.rfl _
  exact hsets.bind fun _ => hremoves.bind fun _ => hadds.bind fun _ => hdeletes.bind fun _ =>
    .pure _

/-! ## The builder -/

namespace Builder

omit hr hs in
/-- A text that is the same in both runs fits in both or in neither. -/
theorem write_follows {limits : Limits} {kind : ExpressionKind} {m m' : Aliasing (List Token)}
    (h : Follows r s m' m) : Follows r s (write limits kind m') (write limits kind m) := by
  refine h.bind fun tokens => ?_
  exact Follows.unlessFault (.pure _) Iff.rfl _

/-- The builder with the names in all paths and the strings in all literals replaced. -/
def rename (r s : String → String) (builder : Builder) : Builder where
  limits := builder.limits
  condition := builder.condition.map (Condition.map (NameRef.rename r) (Literal.rename r s))
  filter := builder.filter.map (Condition.map (NameRef.rename r) (Literal.rename r s))
  keyCondition :=
    builder.keyCondition.map (KeyCondition.map (NameRef.rename r) (AttributeValue.mapText s))
  projection := builder.projection.map (Projection.map (NameRef.rename r))
  update := builder.update.map (Update.map (NameRef.rename r) (Literal.rename r s))

theorem writeCondition_follows (limits : Limits) (kind : ExpressionKind) (tree : SourceCondition) :
    Follows r s (writeCondition limits kind (tree.map (NameRef.rename r) (Literal.rename r s)))
      (writeCondition limits kind tree) :=
  write_follows ((Condition.follows hr hs limits tree).bind fun _ => .pure _)

theorem writeKeyCondition_follows (limits : Limits) (tree : SourceKeyCondition) :
    Follows r s
      (writeKeyCondition limits (tree.map (NameRef.rename r) (AttributeValue.mapText s)))
      (writeKeyCondition limits tree) :=
  write_follows ((KeyCondition.follows hr hs tree).bind fun _ => .pure _)

omit hs in
theorem writeProjection_follows (limits : Limits) (tree : SourceProjection) :
    Follows r s (writeProjection limits (tree.map (NameRef.rename r)))
      (writeProjection limits tree) :=
  write_follows ((Projection.follows hr tree).bind fun _ => .pure _)

theorem writeUpdate_follows (limits : Limits) (tree : SourceUpdate) :
    Follows r s (writeUpdate limits (tree.map (NameRef.rename r) (Literal.rename r s)))
      (writeUpdate limits tree) :=
  write_follows ((Update.follows hr hs tree).bind fun _ => .pure _)

/-- All trees are written with one table, so the runs stay side by side from kind to kind. -/
theorem writeAll_follows (builder : Builder) :
    Follows r s (builder.rename r s).writeAll builder.writeAll :=
  (Follows.slot (writeCondition_follows hr hs builder.limits .condition)
      builder.condition).bind fun _ =>
    (Follows.slot (writeCondition_follows hr hs builder.limits .filter)
        builder.filter).bind fun _ =>
      (Follows.slot (writeKeyCondition_follows hr hs builder.limits)
          builder.keyCondition).bind fun _ =>
        (Follows.slot (writeProjection_follows hr builder.limits)
            builder.projection).bind fun _ =>
          (Follows.slot (writeUpdate_follows hr hs builder.limits)
              builder.update).bind fun _ => .pure _

omit hr hs in
theorem isEmpty_rename (builder : Builder) : (builder.rename r s).isEmpty = builder.isEmpty := by
  simp [isEmpty, rename]

theorem run_rename {builder : Builder} {outcome : Except ExpressionError (Aliases → Expression)}
    {later : Aliases} (h : builder.writeAll.run.run {} = (outcome, later)) :
    (builder.rename r s).writeAll.run.run {} = (outcome, later.rename r s) := by
  have hfollows := writeAll_follows hr hs builder {}
  rw [h] at hfollows
  exact hfollows

theorem build_rename_of_error {builder : Builder} {error : ExpressionError}
    (h : builder.build = .error error) : (builder.rename r s).build = .error error := by
  unfold build at h ⊢
  rw [isEmpty_rename]
  by_cases hempty : builder.isEmpty = true
  · rw [if_pos hempty] at h ⊢
    exact h
  · rw [if_neg hempty] at h ⊢
    cases hrun : builder.writeAll.run.run {} with
    | mk outcome later =>
        rw [hrun] at h
        rw [run_rename hr hs hrun]
        cases outcome with
        | error fault => exact h
        | ok finish => cases h

/-- The expression with its aliases renamed. -/
theorem build_rename_of_ok {builder : Builder} {expression : Expression}
    (h : builder.build = .ok expression) :
    (builder.rename r s).build =
      .ok { expression with aliases := expression.aliases.rename r s } := by
  obtain ⟨hempty, draft, hchecked, hfits, rfl⟩ := build_eq_ok_iff.1 h
  have hrun := builder.writeAll_writes.ok Aliases.sound_empty hchecked
    (Expression.fits_iff.2 (Expression.fits_iff.1 hfits))
  unfold build
  rw [isEmpty_rename, if_neg (by simp [hempty]), run_rename hr hs hrun]
  rfl

end Builder

end Injective

theorem mapIdx_map_entry {α β : Type} (key : Nat → String) (f : α → β) (lane : List α) :
    (lane.map f).mapIdx (fun i x => (key i, x)) =
      (lane.mapIdx fun i x => (key i, x)).map fun entry => (entry.1, f entry.2) := by
  apply List.ext_getElem
  · simp
  · simp

/--
A builder with its attribute names and strings replaced, different ones by different ones, fails
with the same error, or gives the same texts, and the two maps with the same replacements.
-/
theorem Builder.build_rename (builder : Builder) {r s : String → String}
    (names : Function.Injective r) (texts : Function.Injective s) :
    (∀ error, builder.build = .error error → (builder.rename r s).build = .error error) ∧
      ∀ expression, builder.build = .ok expression →
        ∃ renamed, (builder.rename r s).build = .ok renamed ∧
          (∀ kind, renamed.get kind = expression.get kind) ∧
          renamed.names = expression.names.map (fun entry => (entry.1, r entry.2)) ∧
          renamed.values = expression.values.map fun entry => (entry.1, entry.2.mapText s) := by
  refine ⟨fun error => build_rename_of_error names texts, fun expression hbuild => ?_⟩
  refine ⟨_, build_rename_of_ok names texts hbuild, fun kind => ?_, mapIdx_map_entry _ _ _,
    mapIdx_map_entry _ _ _⟩
  cases kind <;> rfl

/-- A name and a string that occur in several places, the string also inside a list and a map. -/
def Builder.guarded : Builder where
  condition := some (.join .and
    (.test .beginsWith (.path ⟨"a", [.attribute "b"]⟩) (.value (.string "x")))
    (.compare .eq (.name (.path ⟨"b", []⟩)) (.value (.list [.value (.value (.string "x"))]))))
  update := some { sets := [(.path ⟨"a", []⟩,
    .operand (.value (.value (.map [("x", .string "x")]))))] }

theorem guarded_build_rename :
    ∃ renamed, (Builder.guarded.rename ("my " ++ ·) ("x" ++ ·)).build = .ok renamed ∧
      renamed.condition = some "begins_with(#0.#1, :0) AND #1 = :1" ∧
      renamed.update = some "SET #0 = :2" ∧
      renamed.names = [("#0", "my a"), ("#1", "my b")] ∧
      renamed.values = [(":0", .string "xx"), (":1", .list [.string "xx"]),
        (":2", .map [("x", .string "xx")])] := by
  have hbuild : Builder.guarded.build = .ok
      { condition := some "begins_with(#0.#1, :0) AND #1 = :1", filter := none,
        keyCondition := none, projection := none, update := some "SET #0 = :2",
        aliases := ⟨["a", "b"], [.string "x", .list [.string "x"],
          .map [("x", .string "x")]]⟩ } := by rfl
  have hlead : ∀ text : String, Function.Injective (text ++ ·) :=
    fun text _ _ h => (String.append_right_inj text).1 h
  obtain ⟨renamed, hrenamed, htexts, hnames, hvalues⟩ :=
    (Builder.guarded.build_rename (hlead "my ") (hlead "x")).2 _ hbuild
  exact ⟨renamed, hrenamed, htexts .condition, htexts .update, hnames, hvalues⟩

end DynamoExpr
