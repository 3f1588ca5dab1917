import DynamoExpr.Builder
import DynamoExpr.Proofs.Alias.Trees
import DynamoExpr.Proofs.Tree.WellFormed

/-!
# Drafts

A draft holds the plain trees of a builder.  Its expression follows from it without a run: the
leaves of all trees fill the table, and each text shows the numbers that the full table has.  A
build succeeds with this expression, or it fails.
-/

namespace DynamoExpr

structure Draft where
  condition : Option PlainCondition
  filter : Option PlainCondition
  keyCondition : Option PlainKeyCondition
  projection : Option PlainProjection
  update : Option PlainUpdate

namespace Draft

/-- The leaves of all trees in the order of their kinds. -/
def leaves (draft : Draft) : List Leaf :=
  draft.condition.elim [] Condition.leaves ++ draft.filter.elim [] Condition.leaves
    ++ draft.keyCondition.elim [] KeyCondition.leaves
    ++ draft.projection.elim [] Projection.leaves ++ draft.update.elim [] Update.leaves

theorem mem_elim_iff {α : Type} {leaf : Leaf} {slot : Option α} {leaves : α → List Leaf} :
    leaf ∈ slot.elim [] leaves ↔ ∃ tree ∈ slot, leaf ∈ leaves tree := by
  cases slot with
  | none => simp
  | some tree => simp

/-- The leaves are those of the trees. -/
theorem mem_leaves_iff {draft : Draft} {leaf : Leaf} :
    leaf ∈ draft.leaves ↔
      (∃ tree ∈ draft.condition, leaf ∈ tree.leaves) ∨
      (∃ tree ∈ draft.filter, leaf ∈ tree.leaves) ∨
      (∃ tree ∈ draft.keyCondition, leaf ∈ tree.leaves) ∨
      (∃ tree ∈ draft.projection, leaf ∈ tree.leaves) ∨
      ∃ tree ∈ draft.update, leaf ∈ tree.leaves := by
  simp only [leaves, List.mem_append, mem_elim_iff, or_assoc]

def conditionText (table : Aliases) (tree : PlainCondition) : String :=
  Token.texts (tree.map table.numberPath table.valueNumber).tokens

def keyConditionText (table : Aliases) (tree : PlainKeyCondition) : String :=
  Token.texts (tree.map table.numberPath table.valueNumber).tokens

def projectionText (table : Aliases) (tree : PlainProjection) : String :=
  Token.texts (tree.map table.numberPath).tokens

def updateText (table : Aliases) (tree : PlainUpdate) : String :=
  Token.texts (tree.map table.numberPath table.valueNumber).tokens

def aliases (draft : Draft) : Aliases := ({} : Aliases).enterAll draft.leaves

/-- The texts with the numbers of the full table. -/
def expression (draft : Draft) : Expression where
  condition := draft.condition.map (conditionText draft.aliases)
  filter := draft.filter.map (conditionText draft.aliases)
  keyCondition := draft.keyCondition.map (keyConditionText draft.aliases)
  projection := draft.projection.map (projectionText draft.aliases)
  update := draft.update.map (updateText draft.aliases)
  aliases := draft.aliases

end Draft

def Expression.Fits (limits : Limits) (expression : Expression) : Prop :=
  ∀ kind text, expression.get kind = some text → text.utf8ByteSize ≤ limits.expressionLength

theorem Expression.fits_iff {limits : Limits} {expression : Expression} :
    expression.Fits limits ↔
      (∀ text ∈ expression.condition, text.utf8ByteSize ≤ limits.expressionLength) ∧
      (∀ text ∈ expression.filter, text.utf8ByteSize ≤ limits.expressionLength) ∧
      (∀ text ∈ expression.keyCondition, text.utf8ByteSize ≤ limits.expressionLength) ∧
      (∀ text ∈ expression.projection, text.utf8ByteSize ≤ limits.expressionLength) ∧
      ∀ text ∈ expression.update, text.utf8ByteSize ≤ limits.expressionLength := by
  constructor
  · intro h
    exact ⟨h .condition, h .filter, h .keyCondition, h .projection, h .update⟩
  · intro h kind
    rcases h with ⟨hcondition, hfilter, hkey, hprojection, hupdate⟩
    cases kind with
    | condition => exact hcondition
    | filter => exact hfilter
    | keyCondition => exact hkey
    | projection => exact hprojection
    | update => exact hupdate

/-- The plain trees, or the first fault in the order of kinds. -/
def Builder.checked (builder : Builder) : Except ParameterFault Draft := do
  let condition ← builder.condition.mapM (Condition.checked builder.limits)
  let filter ← builder.filter.mapM (Condition.checked builder.limits)
  let keyCondition ← builder.keyCondition.mapM KeyCondition.checked
  let projection ← builder.projection.mapM Projection.checked
  let update ← builder.update.mapM Update.checked
  return ⟨condition, filter, keyCondition, projection, update⟩

/-- Each tree of the draft is what the check of its slot gives. -/
theorem Builder.checked_eq_ok_iff {builder : Builder} {draft : Draft} :
    builder.checked = .ok draft ↔
      builder.condition.mapM (Condition.checked builder.limits) = .ok draft.condition ∧
      builder.filter.mapM (Condition.checked builder.limits) = .ok draft.filter ∧
      builder.keyCondition.mapM KeyCondition.checked = .ok draft.keyCondition ∧
      builder.projection.mapM Projection.checked = .ok draft.projection ∧
      builder.update.mapM Update.checked = .ok draft.update := by
  simp only [checked, bind_eq_ok_iff, pure_eq_ok_iff]
  constructor
  · intro h
    rcases h with ⟨_, hcondition, _, hfilter, _, hkey, _, hprojection, _, hupdate, rfl⟩
    exact ⟨hcondition, hfilter, hkey, hprojection, hupdate⟩
  · intro h
    rcases h with ⟨hcondition, hfilter, hkey, hprojection, hupdate⟩
    exact ⟨_, hcondition, _, hfilter, _, hkey, _, hprojection, _, hupdate, rfl⟩

/-! ## Writing -/

/--
From every sound table, `m` gives the result of `r` with its numbers where `r` succeeds and the
result fits, and it fails for a fault otherwise.
-/
structure Writes {α β : Type} (m : Aliasing α) (r : Except ParameterFault β)
    (leaves : β → List Leaf) (number : Aliases → β → α) (fits : α → Prop) : Prop where
  stable : ∀ {table : Aliases} {b : β}, table.Sound → r = .ok b →
    (table.enterAll (leaves b)).Sound ∧
      ∀ later, (table.enterAll (leaves b)).Extends later →
        number later b = number (table.enterAll (leaves b)) b
  ok : ∀ {table : Aliases} {b : β}, table.Sound → r = .ok b →
    fits (number (table.enterAll (leaves b)) b) →
      m.run.run table =
        (.ok (number (table.enterAll (leaves b)) b), table.enterAll (leaves b))
  refused : ∀ {table : Aliases}, table.Sound →
    (∀ b, r = .ok b → ¬ fits (number (table.enterAll (leaves b)) b)) →
      ∃ fault later, m.run.run table = (.error (.invalid fault), later)

namespace Writes

variable {α β α' β' ι : Type} {m : Aliasing α} {r : Except ParameterFault β}
  {leaves : β → List Leaf} {number : Aliases → β → α} {fits : α → Prop}
  {m' : Aliasing α'} {r' : Except ParameterFault β'}
  {leaves' : β' → List Leaf} {number' : Aliases → β' → α'} {fits' : α' → Prop}

theorem run_tokens {table later : Aliases} {a : α} (h : m.run.run table = (.ok a, later))
    (tokens : α → List Token) :
    (do return tokens (← m) : Aliasing (List Token)).run.run table = (.ok (tokens a), later) := by
  rw [run_bind_of_ok h, run_pure]

/-- The text of an aliased tree fits when it keeps the limit. -/
theorem ofEnters (h : Enters m r leaves number) (tokens : α → List Token) (limits : Limits)
    (kind : ExpressionKind) :
    Writes (Builder.write limits kind (do return tokens (← m))) r leaves
      (fun table b => Token.texts (tokens (number table b)))
      (fun text => text.utf8ByteSize ≤ limits.expressionLength) where
  stable hs hr := by
    obtain ⟨a, -, hsound, hlater⟩ := h.ok hs hr
    refine ⟨hsound, fun later hl => ?_⟩
    rw [← hlater later hl, ← hlater _ (.refl _)]
  ok {table b} hs hr hfits := by
    obtain ⟨a, hrun, -, hlater⟩ := h.ok hs hr
    rw [← hlater _ (.refl _)] at hfits ⊢
    unfold Builder.write
    rw [run_bind_of_ok (run_tokens hrun tokens), if_neg (Nat.not_lt.2 hfits)]
    rfl
  refused {table} hs hnone := by
    cases hr : r with
    | error fault =>
        obtain ⟨later, hrun, -⟩ := h.error hs hr
        exact ⟨fault, later, run_bind_of_error (run_bind_of_error hrun)⟩
    | ok b =>
        obtain ⟨a, hrun, -, hlater⟩ := h.ok hs hr
        have hlong := hnone b hr
        rw [← hlater _ (.refl _), Nat.not_le] at hlong
        refine ⟨.tooLong kind (Token.texts (tokens a)).utf8ByteSize limits.expressionLength,
          table.enterAll (leaves b), ?_⟩
        unfold Builder.write
        rw [run_bind_of_ok (run_tokens hrun tokens), if_pos hlong]
        exact run_bind_of_error (run_refuse _)

theorem map (h : Writes m r leaves number fits) (f : α → α') (g : β → β')
    (hleaves : ∀ b, leaves' (g b) = leaves b)
    (hnumber : ∀ table b, number' table (g b) = f (number table b))
    (hfits : ∀ a, fits' (f a) ↔ fits a) :
    Writes (do return f (← m)) (do return g (← r)) leaves' number' fits' where
  stable {table b'} hs hr := by
    obtain ⟨b, hb, hr⟩ := bind_eq_ok_iff.1 hr
    cases hr
    obtain ⟨hsound, hlater⟩ := h.stable hs hb
    rw [hleaves]
    refine ⟨hsound, fun later hl => ?_⟩
    rw [hnumber, hnumber, hlater later hl]
  ok {table b'} hs hr hfit := by
    obtain ⟨b, hb, hr⟩ := bind_eq_ok_iff.1 hr
    cases hr
    rw [hleaves, hnumber] at hfit ⊢
    rw [run_bind_of_ok (h.ok hs hb ((hfits _).1 hfit)), run_pure]
  refused {table} hs hnone := by
    obtain ⟨fault, later, hrun⟩ := h.refused hs fun b hb hfit => by
      refine hnone (g b) (by rw [hb]; rfl) ?_
      rw [hleaves, hnumber]
      exact (hfits _).2 hfit
    exact ⟨fault, later, run_bind_of_error hrun⟩

/-- A tree that may be absent. -/
theorem slot {step : ι → Aliasing α} {check : ι → Except ParameterFault β}
    (h : ∀ x, Writes (step x) (check x) leaves number fits) (tree : Option ι) :
    Writes (tree.mapM step) (tree.mapM check) (fun b => b.elim [] leaves)
      (fun table b => b.map (number table)) (fun a => ∀ text ∈ a, fits text) := by
  cases tree with
  | none =>
      refine ⟨fun hs hr => ?_, fun hs hr _ => ?_, fun hs hnone => ?_⟩
      · cases hr
        exact ⟨hs, fun _ _ => rfl⟩
      · cases hr
        rfl
      · exact absurd (fun _ h => by cases h) (hnone none rfl)
  | some x =>
      rw [mapM_some, mapM_some]
      exact (h x).map some some (fun _ => rfl) (fun _ _ => rfl) (fun _ => by simp)

theorem pair (h : Writes m r leaves number fits) (h' : Writes m' r' leaves' number' fits') :
    Writes (do let a ← m; let a' ← m'; return (a, a'))
      (do let b ← r; let b' ← r'; return (b, b'))
      (fun b => leaves b.1 ++ leaves' b.2)
      (fun table b => (number table b.1, number' table b.2))
      (fun a => fits a.1 ∧ fits' a.2) where
  stable {table bs} hs hr := by
    obtain ⟨b, hb, hr⟩ := bind_eq_ok_iff.1 hr
    obtain ⟨b', hb', hr⟩ := bind_eq_ok_iff.1 hr
    cases hr
    obtain ⟨hsound, hlater⟩ := h.stable hs hb
    obtain ⟨hsound', hlater'⟩ := h'.stable hsound hb'
    have hext := Aliases.extends_enterAll (table.enterAll (leaves b)) (leaves' b')
    rw [Aliases.enterAll_append]
    refine ⟨hsound', fun later hl => ?_⟩
    rw [hlater later (hext.trans hl), hlater _ hext, hlater' later hl]
  ok {table bs} hs hr hfits := by
    obtain ⟨b, hb, hr⟩ := bind_eq_ok_iff.1 hr
    obtain ⟨b', hb', hr⟩ := bind_eq_ok_iff.1 hr
    cases hr
    obtain ⟨hsound, hlater⟩ := h.stable hs hb
    have hext := Aliases.extends_enterAll (table.enterAll (leaves b)) (leaves' b')
    rw [Aliases.enterAll_append] at hfits ⊢
    rw [hlater _ hext] at hfits ⊢
    rw [run_bind_of_ok (h.ok hs hb hfits.1), run_bind_of_ok (h'.ok hsound hb' hfits.2), run_pure]
  refused {table} hs hnone := by
    by_cases hfirst : ∃ b, r = .ok b ∧ fits (number (table.enterAll (leaves b)) b)
    · rcases hfirst with ⟨b, hb, hfits⟩
      obtain ⟨hsound, hlater⟩ := h.stable hs hb
      have hsecond : ∀ b', r' = .ok b' →
          ¬ fits' (number' ((table.enterAll (leaves b)).enterAll (leaves' b')) b') := by
        intro b' hb' hfits'
        have hext := Aliases.extends_enterAll (table.enterAll (leaves b)) (leaves' b')
        refine hnone (b, b') (by rw [hb, hb']; rfl) ?_
        rw [Aliases.enterAll_append]
        exact ⟨by rw [hlater _ hext]; exact hfits, hfits'⟩
      obtain ⟨fault, later, hrun⟩ := h'.refused hsound hsecond
      exact ⟨fault, later, by rw [run_bind_of_ok (h.ok hs hb hfits), run_bind_of_error hrun]⟩
    · obtain ⟨fault, later, hrun⟩ := h.refused hs fun b hb hfits => hfirst ⟨b, hb, hfits⟩
      exact ⟨fault, later, run_bind_of_error hrun⟩

end Writes

namespace Builder

/-- All kinds in order, with the texts that the full table gives. -/
theorem writeAll_writes (builder : Builder) :
    Writes builder.writeAll builder.checked Draft.leaves
      (fun table draft => Expression.mk (draft.condition.map (Draft.conditionText table))
        (draft.filter.map (Draft.conditionText table))
        (draft.keyCondition.map (Draft.keyConditionText table))
        (draft.projection.map (Draft.projectionText table))
        (draft.update.map (Draft.updateText table)))
      (fun finish => (finish {}).Fits builder.limits) := by
  have hcondition := Writes.slot (fun tree => Writes.ofEnters (Condition.enters builder.limits tree)
    Condition.tokens builder.limits .condition) builder.condition
  have hfilter := Writes.slot (fun tree => Writes.ofEnters (Condition.enters builder.limits tree)
    Condition.tokens builder.limits .filter) builder.filter
  have hkey := Writes.slot (fun tree => Writes.ofEnters (KeyCondition.enters tree)
    KeyCondition.tokens builder.limits .keyCondition) builder.keyCondition
  have hprojection := Writes.slot (fun tree => Writes.ofEnters (Projection.enters tree)
    Projection.tokens builder.limits .projection) builder.projection
  have hupdate := Writes.slot (fun tree => Writes.ofEnters (Update.enters tree)
    Update.tokens builder.limits .update) builder.update
  have hall := @Writes.map _ _ _ _ _ _ _ _ _ Draft.leaves
    (fun table draft => Expression.mk (draft.condition.map (Draft.conditionText table))
      (draft.filter.map (Draft.conditionText table))
      (draft.keyCondition.map (Draft.keyConditionText table))
      (draft.projection.map (Draft.projectionText table))
      (draft.update.map (Draft.updateText table)))
    (fun finish => (finish {}).Fits builder.limits)
    ((((hcondition.pair hfilter).pair hkey).pair hprojection).pair hupdate)
    (fun texts => Expression.mk texts.1.1.1.1 texts.1.1.1.2 texts.1.1.2 texts.1.2 texts.2)
    (fun trees => Draft.mk trees.1.1.1.1 trees.1.1.1.2 trees.1.1.2 trees.1.2 trees.2)
    (fun _ => rfl) (fun _ _ => rfl)
    (fun _ => by simp only [Expression.fits_iff, and_assoc])
  simp only [bind_assoc, pure_bind] at hall
  exact hall

theorem build_of_isEmpty {builder : Builder} (h : builder.isEmpty = true) :
    builder.build = .error .unset := by
  unfold build
  rw [if_pos h]

theorem build_of_fits {builder : Builder} {draft : Draft} (h : builder.isEmpty = false)
    (hchecked : builder.checked = .ok draft) (hfits : draft.expression.Fits builder.limits) :
    builder.build = .ok draft.expression := by
  have hrun := builder.writeAll_writes.ok Aliases.sound_empty hchecked
    (Expression.fits_iff.2 (Expression.fits_iff.1 hfits))
  unfold build
  rw [if_neg (by simp [h]), hrun]
  rfl

theorem build_of_not_fits {builder : Builder} (h : builder.isEmpty = false)
    (hnone : ∀ draft, builder.checked = .ok draft → ¬ draft.expression.Fits builder.limits) :
    ∃ fault, builder.build = .error (.invalid fault) := by
  obtain ⟨fault, later, hrun⟩ := builder.writeAll_writes.refused Aliases.sound_empty
    fun draft hchecked hfits => hnone draft hchecked
      (Expression.fits_iff.2 (Expression.fits_iff.1 hfits))
  exact ⟨fault, by rw [build, if_neg (by simp [h]), hrun]⟩

/-- A build gives the expression of the draft where there is one and its texts fit. -/
theorem build_eq_ok_iff {builder : Builder} {expression : Expression} :
    builder.build = .ok expression ↔
      builder.isEmpty = false ∧ ∃ draft, builder.checked = .ok draft ∧
        draft.expression.Fits builder.limits ∧ expression = draft.expression := by
  by_cases hempty : builder.isEmpty = true
  · simp [build_of_isEmpty hempty, hempty]
  · have hempty := eq_false_of_ne_true hempty
    by_cases hgood : ∃ draft, builder.checked = .ok draft ∧
        draft.expression.Fits builder.limits
    · rcases hgood with ⟨draft, hchecked, hfits⟩
      rw [build_of_fits hempty hchecked hfits, Except.ok.injEq]
      constructor
      · intro h
        subst h
        exact ⟨hempty, draft, hchecked, hfits, rfl⟩
      · intro h
        rcases h with ⟨-, other, hother, -, rfl⟩
        rw [hchecked] at hother
        cases hother
        rfl
    · obtain ⟨fault, hbuild⟩ := build_of_not_fits hempty fun draft hchecked hfits =>
        hgood ⟨draft, hchecked, hfits⟩
      rw [hbuild]
      constructor
      · intro h
        cases h
      · intro h
        rcases h with ⟨-, draft, hchecked, hfits, -⟩
        exact absurd ⟨draft, hchecked, hfits⟩ hgood

end Builder

end DynamoExpr
