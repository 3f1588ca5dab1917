import DynamoExpr.Proofs.Builder.Stages
import Mathlib.Data.List.Induction
import Mathlib.Data.List.ReduceOption
import Mathlib.Data.Option.Basic

/-!
# Histories of a builder

A builder keeps of each kind the tree that was given last, and the limits that were given last, so
its builds depend on nothing else that was called before.  What fails is the first of these trees,
in the order of their kinds, that cannot be written after the ones before it.
-/

namespace DynamoExpr

inductive BuilderCall where
  | limits (given : Limits)
  | condition (tree : SourceCondition)
  | filter (tree : SourceCondition)
  | keyCondition (tree : SourceKeyCondition)
  | projection (tree : SourceProjection)
  | update (tree : SourceUpdate)
  | build

namespace BuilderCall

def limits? : BuilderCall → Option Limits
  | .limits given => some given
  | _ => none

def tree? : ExpressionKind → BuilderCall → Option SourceTree
  | .condition, .condition tree => some (.condition tree)
  | .filter, .filter tree => some (.condition tree)
  | .keyCondition, .keyCondition tree => some (.keyCondition tree)
  | .projection, .projection tree => some (.projection tree)
  | .update, .update tree => some (.update tree)
  | _, _ => none

/-- What the last of the calls that give something gives. -/
def last? {α : Type} (slot : BuilderCall → Option α) (calls : List BuilderCall) : Option α :=
  (calls.filterMap slot).getLast?

theorem last?_concat {α : Type} (slot : BuilderCall → Option α) (calls : List BuilderCall)
    (call : BuilderCall) : last? slot (calls ++ [call]) = (slot call).or (last? slot calls) := by
  rw [last?, last?, List.filterMap_append]
  cases hcall : slot call with
  | none => simp [hcall]
  | some x => simp [hcall]

/-- The trees given last, in the order of their kinds. -/
def latest (calls : List BuilderCall) : List (ExpressionKind × SourceTree) :=
  ExpressionKind.all.filterMap fun kind => (last? (tree? kind) calls).map fun tree => (kind, tree)

/-- The limits given last, or those of a new builder. -/
def latestLimits (calls : List BuilderCall) : Limits := (last? limits? calls).getD {}

/-- In each place the last argument is the same, or both times there is none. -/
structure SameLast (first second : List BuilderCall) : Prop where
  limits : last? limits? first = last? limits? second
  tree : ∀ kind, last? (tree? kind) first = last? (tree? kind) second

end BuilderCall

/-- A builder in use, with the results of its builds so far. -/
structure BuilderSession where
  builder : Builder := {}
  results : List (Except ExpressionError Expression) := []

namespace BuilderSession

open BuilderCall (last? limits? tree? latestLimits)

def step (session : BuilderSession) : BuilderCall → BuilderSession
  | .limits given => { session with builder := session.builder.withLimits given }
  | .condition tree => { session with builder := session.builder.withCondition tree }
  | .filter tree => { session with builder := session.builder.withFilter tree }
  | .keyCondition tree => { session with builder := session.builder.withKeyCondition tree }
  | .projection tree => { session with builder := session.builder.withProjection tree }
  | .update tree => { session with builder := session.builder.withUpdate tree }
  | .build => { session with results := session.results ++ [session.builder.build] }

/-- The session after the calls on a new builder. -/
def after (calls : List BuilderCall) : BuilderSession := calls.foldl step {}

def lastResult (calls : List BuilderCall) : Option (Except ExpressionError Expression) :=
  (after calls).results.getLast?

theorem after_concat (calls : List BuilderCall) (call : BuilderCall) :
    after (calls ++ [call]) = (after calls).step call := List.foldl_concat ..

theorem lastResult_build (calls : List BuilderCall) :
    lastResult (calls ++ [.build]) = some (after calls).builder.build := by
  rw [lastResult, after_concat, step, List.getLast?_concat]

/-! ## What a builder keeps -/

/-- A part of the builder that each call replaces or leaves is what the last such call gives. -/
theorem part_after {α : Type} {slot : BuilderCall → Option α} (part : Builder → Option α)
    (hstep : ∀ (session : BuilderSession) call,
      part (session.step call).builder = (slot call).or (part session.builder))
    (calls : List BuilderCall) :
    part (after calls).builder = (last? slot calls).or (part {}) := by
  -- The last call decides, so the induction takes calls off at the end.
  induction calls using List.reverseRecOn with
  | nil => rfl
  | append_singleton calls call ih =>
      rw [after_concat, hstep, ih, BuilderCall.last?_concat, Option.or_assoc]

theorem tree?_step (kind : ExpressionKind) (session : BuilderSession) (call : BuilderCall) :
    (session.step call).builder.tree? kind = (tree? kind call).or (session.builder.tree? kind) := by
  cases call <;> cases kind <;> rfl

theorem limits_step (session : BuilderSession) (call : BuilderCall) :
    some (session.step call).builder.limits =
      (limits? call).or (some session.builder.limits) := by
  cases call <;> rfl

theorem tree?_after (kind : ExpressionKind) (calls : List BuilderCall) :
    (after calls).builder.tree? kind = last? (tree? kind) calls := by
  have hnew : ({} : Builder).tree? kind = none := by cases kind <;> rfl
  rw [part_after (fun builder => builder.tree? kind) (tree?_step kind), hnew, Option.or_none]

theorem limits_after (calls : List BuilderCall) :
    (after calls).builder.limits = latestLimits calls := by
  have hpart := part_after (fun builder => some builder.limits) limits_step calls
  rw [Option.or_some, Option.some.injEq] at hpart
  exact hpart

end BuilderSession

/-! ## The first tree that fails -/

namespace SourceTree

def writeEach (limits : Limits) (trees : List (ExpressionKind × SourceTree)) :
    Aliasing (List String) :=
  trees.mapM fun entry => entry.2.write limits entry.1

/-- The first tree that cannot be written, with the table of all before it, raises the error. -/
def FirstFails (limits : Limits) (trees : List (ExpressionKind × SourceTree))
    (error : ExpressionError) : Prop :=
  ∃ before kind tree after texts table later, trees = before ++ (kind, tree) :: after ∧
    (writeEach limits before).run.run {} = (.ok texts, table) ∧
    (tree.write limits kind).run.run table = (.error error, later)

theorem exists_writeEach_error_iff {limits : Limits} {trees : List (ExpressionKind × SourceTree)}
    {error : ExpressionError} :
    (∃ later, (writeEach limits trees).run.run {} = (.error error, later)) ↔
      FirstFails limits trees error := by
  simp only [writeEach, run_mapM_eq_error_iff]
  constructor
  · rintro ⟨later, before, ⟨kind, tree⟩, after, texts, table, hsplit, hbefore, hfails⟩
    exact ⟨before, kind, tree, after, texts, table, later, hsplit, hbefore, hfails⟩
  · rintro ⟨before, kind, tree, after, texts, table, later, hsplit, hbefore, hfails⟩
    exact ⟨later, before, (kind, tree), after, texts, table, hsplit, hbefore, hfails⟩

end SourceTree

namespace Builder

open SourceTree (writeEach FirstFails exists_writeEach_error_iff)

variable {builder other : Builder}

def present (builder : Builder) (kinds : List ExpressionKind) :
    List (ExpressionKind × SourceTree) :=
  kinds.filterMap fun kind => (builder.tree? kind).map fun tree => (kind, tree)

theorem present_all_eq_nil_iff : builder.present ExpressionKind.all = [] ↔
    builder.isEmpty = true := by
  have hall : ∀ kind, kind ∈ ExpressionKind.all := by
    intro kind
    cases kind <;> decide
  simp only [present, List.filterMap_eq_nil_iff, Option.map_eq_none_iff, isEmpty_iff, holds_iff,
    Decidable.not_not, hall, forall_const]

/-- Kinds without a tree leave no trace. -/
theorem writeEach_present (builder : Builder) (kinds : List ExpressionKind) :
    writeEach builder.limits (builder.present kinds) =
      (do return (← builder.writeKinds kinds).reduceOption) := by
  induction kinds with
  | nil => rfl
  | cons kind rest ih =>
      unfold writeEach writeKinds at ih ⊢
      rw [List.mapM_cons, writeKind]
      cases htree : builder.tree? kind with
      | none =>
          have hpresent : builder.present (kind :: rest) = builder.present rest :=
            List.filterMap_cons_none (by rw [htree]; rfl)
          rw [hpresent, ih]
          simp [List.reduceOption_cons_of_none]
      | some tree =>
          have hpresent : builder.present (kind :: rest) = (kind, tree) :: builder.present rest :=
            List.filterMap_cons_some (by rw [htree]; rfl)
          rw [hpresent, List.mapM_cons, ih, mapM_some]
          simp [List.reduceOption_cons_of_some]

/-- A build that has a tree fails as the first of its trees does. -/
theorem build_eq_error_iff {error : ExpressionError} :
    builder.build = .error error ↔
      (builder.present ExpressionKind.all = [] ∧ error = .unset) ∨
        FirstFails builder.limits (builder.present ExpressionKind.all) error := by
  rw [← exists_writeEach_error_iff]
  cases hempty : builder.isEmpty with
  | true =>
      have hnone := present_all_eq_nil_iff.2 hempty
      rw [build_of_isEmpty hempty, hnone]
      constructor
      · intro h
        cases h
        exact .inl ⟨rfl, rfl⟩
      · rintro (⟨-, rfl⟩ | ⟨later, hrun⟩)
        · rfl
        · exact absurd hrun run_pure_ne_error
  | false =>
      have hsome : builder.present ExpressionKind.all ≠ [] := by
        rw [Ne, present_all_eq_nil_iff, hempty]
        exact Bool.false_ne_true
      -- Leaving out the kinds without a tree changes the texts, but not whether writing fails.
      have hwrite : ∀ later,
          (writeEach builder.limits (builder.present ExpressionKind.all)).run.run {} =
              (.error error, later) ↔
            (builder.writeKinds ExpressionKind.all).run.run {} = (.error error, later) := by
        intro later
        rw [writeEach_present, run_bind_eq_error_iff]
        refine or_iff_left ?_
        rintro ⟨texts, table, -, hpure⟩
        exact run_pure_ne_error hpure
      simp only [hwrite, hsome, false_and, false_or]
      exact ⟨exists_writeKinds_of_build_error hempty,
        fun ⟨_, hrun⟩ => build_of_writeKinds_error hempty hrun⟩

/-- A builder is known by its limits and its trees. -/
theorem eq_of_tree?_eq (hlimits : other.limits = builder.limits)
    (htree : ∀ kind, other.tree? kind = builder.tree? kind) : other = builder := by
  cases other
  cases builder
  cases hlimits
  have hcondition := Option.map_injective (fun _ _ => SourceTree.condition.inj) (htree .condition)
  have hfilter := Option.map_injective (fun _ _ => SourceTree.condition.inj) (htree .filter)
  have hkey := Option.map_injective (fun _ _ => SourceTree.keyCondition.inj) (htree .keyCondition)
  have hprojection :=
    Option.map_injective (fun _ _ => SourceTree.projection.inj) (htree .projection)
  have hupdate := Option.map_injective (fun _ _ => SourceTree.update.inj) (htree .update)
  cases hcondition
  cases hfilter
  cases hkey
  cases hprojection
  cases hupdate
  rfl

end Builder

/-! ## Builds after a history -/

namespace BuilderSession

open BuilderCall (tree? latest latestLimits SameLast)
open SourceTree (FirstFails)

theorem present_after (calls : List BuilderCall) :
    (after calls).builder.present ExpressionKind.all = latest calls := by
  simp only [Builder.present, tree?_after, latest]

/-- The builder is the same where the last arguments are. -/
theorem builder_after_congr {first second : List BuilderCall} (h : SameLast first second) :
    (after first).builder = (after second).builder := by
  refine Builder.eq_of_tree?_eq ?_ fun kind => ?_
  · rw [limits_after, limits_after, latestLimits, latestLimits, h.limits]
  · rw [tree?_after, tree?_after, h.tree kind]

/--
Whatever was called before, a build has the same result after the same last arguments.  It fails
for want of trees, or as the first of the last trees that cannot be written does.
-/
theorem lastResult_of_sameLast {first second : List BuilderCall} (h : SameLast first second) :
    ∃ result, lastResult (first ++ [.build]) = some result ∧
      lastResult (second ++ [.build]) = some result ∧
      ∀ error, result = .error error ↔
        (latest first = [] ∧ error = .unset) ∨
          FirstFails (latestLimits first) (latest first) error := by
  refine ⟨(after first).builder.build, lastResult_build first, ?_, fun error => ?_⟩
  · rw [lastResult_build, builder_after_congr h]
  · rw [Builder.build_eq_error_iff, present_after, limits_after]

def pathless : SourceCondition := .presence .attributeExists (.faulty .emptyPath)

def onPresence (name : String) : SourceCondition := .presence .attributeExists (.path ⟨name, []⟩)

/-- An update by the size of an attribute, which cannot be written. -/
def bySize : SourceUpdate := { sets := [(.path ⟨"b", []⟩, .operand (.size (.path ⟨"a", []⟩)))] }

/-- Two builds that fail, and then other trees in the places of the condition and the filter. -/
def detour : List BuilderCall :=
  [.update bySize, .build, .condition pathless, .filter pathless, .build,
    .condition (onPresence "a"), .filter (onPresence "b")]

def straight : List BuilderCall :=
  [.filter (onPresence "b"), .condition (onPresence "a"), .update bySize]

theorem detour_lastResult_of_sameLast :
    SameLast detour straight ∧
      (after detour).results =
        [.error (.invalid .sizeInUpdate), .error (.invalid (.name .emptyPath))] ∧
      lastResult (detour ++ [.build]) = some (.error (.invalid .sizeInUpdate)) ∧
      lastResult (straight ++ [.build]) = some (.error (.invalid .sizeInUpdate)) ∧
      FirstFails (latestLimits detour) (latest detour) (.invalid .sizeInUpdate) := by
  have hsame : SameLast detour straight := ⟨rfl, fun kind => by cases kind <;> rfl⟩
  have hresults : (after detour).results =
      [.error (.invalid .sizeInUpdate), .error (.invalid (.name .emptyPath))] := by rfl
  have hdetour : lastResult (detour ++ [.build]) =
      some (.error (.invalid .sizeInUpdate)) := by rfl
  obtain ⟨result, hfirst, hsecond, herror⟩ := lastResult_of_sameLast hsame
  cases hfirst.symm.trans hdetour
  refine ⟨hsame, hresults, hdetour, hsecond, ?_⟩
  rcases (herror _).1 rfl with ⟨hnone, -⟩ | hfails
  · cases hnone
  · exact hfails

end BuilderSession

end DynamoExpr
