import DynamoExpr.Proofs.Builder.Stages

/-!
# Writing a tree again

A tree that was written finds an entry for each of its leaves in every later table, whatever was
entered since and whether that succeeded.  So it is written again with the same text, and enters
nothing.
-/

namespace DynamoExpr

/--
What `m` gave once, it gives again from any later table, and leaves that table as it is.  The second
run may be another one that writes the same, such as that of the tree as an expression of another
kind.
-/
theorem Writes.again {α β : Type} {m m' : Aliasing α} {r : Except ParameterFault β}
    {leaves : β → List Leaf} {number : Aliases → β → α} {fits : α → Prop}
    (h : Writes m r leaves number fits) (h' : Writes m' r leaves number fits)
    {before after later : Aliases} {a : α} (hbefore : before.Sound)
    (hrun : m.run.run before = (.ok a, after)) (hlater : later.Sound)
    (hext : after.Extends later) : m'.run.run later = (.ok a, later) := by
  have hgood : ∃ b, r = .ok b ∧ fits (number (before.enterAll (leaves b)) b) := by
    refine Classical.byContradiction fun hnone => ?_
    obtain ⟨fault, _, hrefused⟩ := h.refused hbefore fun b hb hfits => hnone ⟨b, hb, hfits⟩
    rw [hrun] at hrefused
    cases hrefused
  obtain ⟨b, hb, hfits⟩ := hgood
  have hfirst := h.ok hbefore hb hfits
  rw [hrun] at hfirst
  cases hfirst
  have hkept : later.enterAll (leaves b) = later :=
    Aliases.enterAll_of_has fun leaf hleaf => (Aliases.has_enterAll hleaf before).of_extends hext
  have hnumber : number later b = number (before.enterAll (leaves b)) b :=
    (h.stable hbefore hb).2 later hext
  have hagain := h'.ok hlater hb
  rw [hkept, hnumber] at hagain
  exact hagain hfits

namespace SourceTree

variable {limits : Limits}

theorem write_again {tree : SourceTree} {kind again : ExpressionKind} {before after later : Aliases}
    {text : String} (hbefore : before.Sound)
    (hrun : (tree.write limits kind).run.run before = (.ok text, after)) (hlater : later.Sound)
    (hext : after.Extends later) :
    (tree.write limits again).run.run later = (.ok text, later) := by
  cases tree with
  | condition tree =>
      have hwrites := Writes.ofEnters (Condition.enters limits tree) Condition.tokens limits
      exact (hwrites kind).again (hwrites again) hbefore hrun hlater hext
  | keyCondition tree =>
      have hwrites := Writes.ofEnters (KeyCondition.enters tree) KeyCondition.tokens limits
      exact (hwrites kind).again (hwrites again) hbefore hrun hlater hext
  | projection tree =>
      have hwrites := Writes.ofEnters (Projection.enters tree) Projection.tokens limits
      exact (hwrites kind).again (hwrites again) hbefore hrun hlater hext
  | update tree =>
      have hwrites := Writes.ofEnters (Update.enters tree) Update.tokens limits
      exact (hwrites kind).again (hwrites again) hbefore hrun hlater hext

/-- The table after the trees, each one written as an expression of its kind or failing. -/
def after (limits : Limits) (table : Aliases) (trees : List (ExpressionKind × SourceTree)) :
    Aliases :=
  trees.foldl (fun table tree => ((tree.2.write limits tree.1).run.run table).2) table

theorem after_grows {table : Aliases} (hs : table.Sound)
    (trees : List (ExpressionKind × SourceTree)) :
    (after limits table trees).Sound ∧ table.Extends (after limits table trees) := by
  induction trees generalizing table with
  | nil => exact ⟨hs, .refl table⟩
  | cons tree rest ih =>
      obtain ⟨hsound, hext⟩ := write_grows limits tree.1 tree.2 table hs
      obtain ⟨hsound', hext'⟩ := ih hsound
      exact ⟨hsound', hext.trans hext'⟩

end SourceTree

/-! ## One condition in two slots -/

section Slot

variable {ι α : Type} {step : ι → Aliasing α} {x : ι} {table later : Aliases}

theorem run_slot_of_ok {a : α} (h : (step x).run.run table = (.ok a, later)) :
    ((some x).mapM step).run.run table = (.ok (some a), later) := by
  rw [mapM_some, run_bind_of_ok h, run_pure]

theorem run_slot_of_error {error : ExpressionError}
    (h : (step x).run.run table = (.error error, later)) :
    ((some x).mapM step).run.run table = (.error error, later) := by
  rw [mapM_some, run_bind_of_error h]

end Slot

namespace Builder

def fillFilter (finish : Aliases → Expression) (aliases : Aliases) : Expression :=
  { finish aliases with filter := (finish aliases).condition }

theorem run_writeAll_twice (builder : Builder) (tree : SourceCondition) :
    ((builder.withCondition tree).withFilter tree).writeAll.run.run {} =
      (fillFilter <$> ({ builder with condition := some tree, filter := none } :
        Builder).writeAll).run.run {} := by
  have hgrown := SourceTree.write_grows builder.limits .condition (.condition tree) {}
    Aliases.sound_empty
  unfold writeAll
  rw [map_bind]
  cases hrun : ((SourceTree.condition tree).write builder.limits .condition).run.run {} with
  | mk outcome table =>
      cases outcome with
      | error error =>
          exact (run_bind_of_error (run_slot_of_error hrun)).trans
            (run_bind_of_error (run_slot_of_error hrun)).symm
      | ok text =>
          rw [hrun] at hgrown
          have hagain : (writeCondition builder.limits .filter tree).run.run table =
              (.ok text, table) :=
            @SourceTree.write_again _ (.condition tree) .condition .filter {} table table text
              Aliases.sound_empty hrun hgrown.1 (.refl table)
          refine (run_bind_of_ok (run_slot_of_ok hrun)).trans ?_
          refine (run_bind_of_ok (run_slot_of_ok hagain)).trans ?_
          refine Eq.trans ?_ (run_bind_of_ok (run_slot_of_ok hrun)).symm
          simp only [map_bind, map_pure]
          rfl

/--
Where the filter is the condition again, it has the text of the condition, and nothing else of the
build depends on whether there is this filter.
-/
theorem build_condition_twice (builder : Builder) (tree : SourceCondition) :
    ((builder.withCondition tree).withFilter tree).build =
      ({ builder with condition := some tree, filter := none } : Builder).build.map
        fun expression => { expression with filter := expression.condition } := by
  unfold build
  rw [run_writeAll_twice, ExceptT.run_map, StateT.run_map]
  cases ({ builder with condition := some tree, filter := none } : Builder).writeAll.run.run {} with
  | mk outcome table =>
      cases outcome with
      | ok finish => rfl
      | error error => rfl

end Builder

/--
A tree that was written once is written again with the same text in every state that writing other
trees leads to, whether they succeed or fail, and the second time leaves the table as it is.  So a
filter that is the condition again has the text of the condition and adds no alias.
-/
theorem SourceTree.write_repeated (limits : Limits) :
    (∀ (tree : SourceTree) (kind again : ExpressionKind)
      (earlier later : List (ExpressionKind × SourceTree)) (text : String) (table : Aliases),
      (tree.write limits kind).run.run (after limits {} earlier) = (.ok text, table) →
        (tree.write limits again).run.run (after limits table later) =
          (.ok text, after limits table later)) ∧
    ∀ (builder : Builder) (tree : SourceCondition),
      ((builder.withCondition tree).withFilter tree).build =
        ({ builder with condition := some tree, filter := none } : Builder).build.map
          fun expression => { expression with filter := expression.condition } := by
  refine ⟨?_, Builder.build_condition_twice⟩
  intro tree kind again earlier later text table hrun
  have hbefore : (after limits {} earlier).Sound := (after_grows Aliases.sound_empty earlier).1
  have hgrown := write_grows limits kind tree _ hbefore
  rw [hrun] at hgrown
  obtain ⟨hlater, hext⟩ := after_grows hgrown.1 later
  exact write_again hbefore hrun hlater hext

def Condition.membersCompared (name first second : String) : SourceCondition :=
  .compare .eq (.name (.path ⟨name, []⟩)) (.value (.value (.stringSet [first, second])))

/-- Adds to a set, by a path with a name of the comparison and with an equal set. -/
def SourceTree.addition : SourceTree :=
  .update { adds := [(.path ⟨"b", [.attribute "a"]⟩, .value (.stringSet ["y", "x"]))] }

/-- The first tree fails for its second path, after the first path was entered. -/
def SourceTree.interlude : List (ExpressionKind × SourceTree) :=
  [(.projection, .projection ⟨[.path ⟨"c", []⟩, NameRef.ofText ""]⟩),
    (.filter, .condition (.membersCompared "d" "x" "z"))]

theorem SourceTree.addition_write_repeated :
    (addition.write {} .update).run.run
        (after {} {} [(.condition, .condition (.membersCompared "a" "x" "y"))]) =
      (.ok "ADD #1.#0 :0", ⟨["a", "b"], [.stringSet ["x", "y"]]⟩) ∧
    (addition.write {} .update).run.run
        ⟨["a", "b", "c", "d"], [.stringSet ["x", "y"], .stringSet ["x", "z"]]⟩ =
      (.ok "ADD #1.#0 :0",
        ⟨["a", "b", "c", "d"], [.stringSet ["x", "y"], .stringSet ["x", "z"]]⟩) ∧
    ((({} : Builder).withCondition (.membersCompared "a" "x" "y")).withFilter
        (.membersCompared "a" "x" "y")).build =
      .ok { condition := some "#0 = :0", filter := some "#0 = :0", keyCondition := none,
            projection := none, update := none, aliases := ⟨["a"], [.stringSet ["x", "y"]]⟩ } := by
  obtain ⟨hagain, htwice⟩ := write_repeated {}
  have hrun : (addition.write {} .update).run.run
      (after {} {} [(.condition, .condition (.membersCompared "a" "x" "y"))]) =
        (.ok "ADD #1.#0 :0", ⟨["a", "b"], [.stringSet ["x", "y"]]⟩) := by rfl
  have hlater : after {} ⟨["a", "b"], [.stringSet ["x", "y"]]⟩ interlude =
      ⟨["a", "b", "c", "d"], [.stringSet ["x", "y"], .stringSet ["x", "z"]]⟩ := by rfl
  refine ⟨hrun, ?_, ?_⟩
  · rw [← hlater]
    exact hagain addition .update .update _ interlude _ _ hrun
  · rw [htwice]
    rfl

end DynamoExpr
