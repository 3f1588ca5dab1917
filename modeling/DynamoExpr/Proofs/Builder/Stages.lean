import DynamoExpr.Proofs.Builder.Acceptance

/-!
# Writing kind by kind

A builder writes its trees one after another with one table and stops at the first that fails.
Whether a tree is written or fails, the table keeps every entry that it has, so what one tree
entered is there for all trees after it.
-/

namespace DynamoExpr

/-! ## Runs of two steps and of many -/

section Runs

variable {ι α β : Type} {m : Aliasing α} {k : α → Aliasing β} {table later : Aliases}

theorem run_bind_eq_ok_iff {b : β} :
    (m >>= k).run.run table = (.ok b, later) ↔
      ∃ a middle, m.run.run table = (.ok a, middle) ∧ (k a).run.run middle = (.ok b, later) := by
  constructor
  · intro h
    cases hm : m.run.run table with
    | mk outcome middle =>
        cases outcome with
        | ok a =>
            rw [run_bind_of_ok hm] at h
            exact ⟨a, middle, rfl, h⟩
        | error e =>
            rw [run_bind_of_error hm] at h
            cases h
  · intro h
    rcases h with ⟨a, middle, hm, hk⟩
    rw [run_bind_of_ok hm, hk]

theorem run_bind_eq_error_iff {e : ExpressionError} :
    (m >>= k).run.run table = (.error e, later) ↔
      m.run.run table = (.error e, later) ∨
        ∃ a middle, m.run.run table = (.ok a, middle) ∧
          (k a).run.run middle = (.error e, later) := by
  constructor
  · intro h
    cases hm : m.run.run table with
    | mk outcome middle =>
        cases outcome with
        | ok a =>
            rw [run_bind_of_ok hm] at h
            exact .inr ⟨a, middle, rfl, h⟩
        | error e =>
            rw [run_bind_of_error hm] at h
            cases h
            exact .inl rfl
  · intro h
    rcases h with hm | ⟨a, middle, hm, hk⟩
    · exact run_bind_of_error hm
    · rw [run_bind_of_ok hm, hk]

theorem run_pure_eq_ok_iff {a b : α} :
    (pure a : Aliasing α).run.run table = (.ok b, later) ↔ a = b ∧ table = later := by
  constructor
  · intro h
    cases h
    exact ⟨rfl, rfl⟩
  · intro h
    rcases h with ⟨rfl, rfl⟩
    rfl

theorem run_pure_ne_error {a : α} {e : ExpressionError} :
    (pure a : Aliasing α).run.run table ≠ (.error e, later) := by
  intro h
  cases h

variable {step : ι → Aliasing α}

theorem run_mapM_append_eq_ok_iff {xs ys : List ι} {all : List α} :
    ((xs ++ ys).mapM step).run.run table = (.ok all, later) ↔
      ∃ first second middle, (xs.mapM step).run.run table = (.ok first, middle) ∧
        (ys.mapM step).run.run middle = (.ok second, later) ∧ all = first ++ second := by
  simp only [List.mapM_append, run_bind_eq_ok_iff, run_pure_eq_ok_iff]
  constructor
  · intro h
    rcases h with ⟨first, middle, hfirst, second, _, hsecond, rfl, rfl⟩
    exact ⟨first, second, middle, hfirst, hsecond, rfl⟩
  · intro h
    rcases h with ⟨first, second, middle, hfirst, hsecond, rfl⟩
    exact ⟨first, middle, hfirst, second, later, hsecond, rfl, rfl⟩

theorem run_mapM_append_eq_error_iff {xs ys : List ι} {e : ExpressionError} :
    ((xs ++ ys).mapM step).run.run table = (.error e, later) ↔
      (xs.mapM step).run.run table = (.error e, later) ∨
        ∃ first middle, (xs.mapM step).run.run table = (.ok first, middle) ∧
          (ys.mapM step).run.run middle = (.error e, later) := by
  rw [List.mapM_append, run_bind_eq_error_iff]
  refine or_congr_right (exists_congr fun first => exists_congr fun middle =>
    and_congr_right fun _ => ?_)
  rw [run_bind_eq_error_iff]
  constructor
  · intro h
    rcases h with h | ⟨_, _, -, hpure⟩
    · exact h
    · exact absurd hpure run_pure_ne_error
  · exact .inl

/-- A list of steps fails where some step fails after all steps before it succeeded. -/
theorem run_mapM_eq_error_iff {xs : List ι} {e : ExpressionError} :
    (xs.mapM step).run.run table = (.error e, later) ↔
      ∃ before x after done middle, xs = before ++ x :: after ∧
        (before.mapM step).run.run table = (.ok done, middle) ∧
        (step x).run.run middle = (.error e, later) := by
  induction xs generalizing table with
  | nil =>
      constructor
      · intro h
        exact absurd h run_pure_ne_error
      · intro h
        rcases h with ⟨before, x, after, _, _, hsplit, -⟩
        cases before <;> cases hsplit
  | cons x rest ih =>
      rw [List.mapM_cons, run_bind_eq_error_iff]
      constructor
      · intro h
        rcases h with hx | ⟨a, middle, ha, h⟩
        · exact ⟨[], x, rest, [], table, rfl, rfl, hx⟩
        · rcases run_bind_eq_error_iff.1 h with hrest | ⟨_, _, -, hpure⟩
          · obtain ⟨before, y, after, done, last, rfl, hdone, hy⟩ := ih.1 hrest
            refine ⟨x :: before, y, after, a :: done, last, rfl, ?_, hy⟩
            rw [List.mapM_cons, run_bind_of_ok ha, run_bind_of_ok hdone, run_pure]
          · exact absurd hpure run_pure_ne_error
      · intro h
        rcases h with ⟨before, y, after, done, last, hsplit, hdone, hy⟩
        cases before with
        | nil =>
            rw [List.mapM_nil, run_pure_eq_ok_iff] at hdone
            cases hsplit
            rw [hdone.2]
            exact .inl hy
        | cons z before =>
            cases hsplit
            rw [List.mapM_cons, run_bind_eq_ok_iff] at hdone
            obtain ⟨a, middle, ha, hdone⟩ := hdone
            obtain ⟨others, _, hothers, hpure⟩ := run_bind_eq_ok_iff.1 hdone
            obtain ⟨-, rfl⟩ := run_pure_eq_ok_iff.1 hpure
            have hrest := ih.2 ⟨before, y, after, others, _, rfl, hothers, hy⟩
            exact .inr ⟨a, middle, ha, run_bind_of_error hrest⟩

end Runs

/-! ## Growth of the table -/

/-- A sound table stays sound and keeps its entries, whether `m` succeeds or fails. -/
def Grows {α : Type} (m : Aliasing α) : Prop :=
  ∀ table : Aliases, table.Sound →
    (m.run.run table).2.Sound ∧ table.Extends (m.run.run table).2

namespace Grows

variable {ι α β : Type} {m : Aliasing α}

theorem pure (a : α) : Grows (pure a : Aliasing α) := fun table hs => ⟨hs, .refl table⟩

theorem refuse (fault : ParameterFault) : Grows (DynamoExpr.refuse fault : Aliasing α) :=
  fun table hs => ⟨hs, .refl table⟩

theorem bind {k : α → Aliasing β} (h : Grows m) (hk : ∀ a, Grows (k a)) : Grows (m >>= k) := by
  intro table hs
  obtain ⟨hsound, hext⟩ := h table hs
  cases hm : m.run.run table with
  | mk outcome middle =>
      rw [hm] at hsound hext
      cases outcome with
      | error e =>
          rw [run_bind_of_error hm]
          exact ⟨hsound, hext⟩
      | ok a =>
          obtain ⟨hsound', hext'⟩ := hk a middle hsound
          rw [run_bind_of_ok hm]
          exact ⟨hsound', hext.trans hext'⟩

theorem mapM {step : ι → Aliasing α} (h : ∀ x, Grows (step x)) (xs : List ι) :
    Grows (xs.mapM step) := by
  induction xs with
  | nil => exact .pure []
  | cons x rest ih =>
      rw [List.mapM_cons]
      exact (h x).bind fun _ => ih.bind fun _ => .pure _

theorem slot {step : ι → Aliasing α} (h : ∀ x, Grows (step x)) (tree : Option ι) :
    Grows (tree.mapM step) := by
  cases tree with
  | none => exact .pure none
  | some x =>
      rw [mapM_some]
      exact (h x).bind fun _ => .pure _

theorem ofEnters {r : Except ParameterFault β} {leaves : β → List Leaf}
    {number : Aliases → β → α} (h : Enters m r leaves number) : Grows m := by
  intro table hs
  cases hr : r with
  | ok b =>
      obtain ⟨a, hrun, hsound, -⟩ := h.ok hs hr
      rw [hrun]
      exact ⟨hsound, Aliases.extends_enterAll table (leaves b)⟩
  | error fault =>
      obtain ⟨later, hrun, hsound, hext⟩ := h.error hs hr
      rw [hrun]
      exact ⟨hsound, hext⟩

end Grows

/-! ## Trees of any kind -/

inductive SourceTree where
  | condition (tree : SourceCondition)
  | keyCondition (tree : SourceKeyCondition)
  | projection (tree : SourceProjection)
  | update (tree : SourceUpdate)

namespace SourceTree

def tokens (limits : Limits) : SourceTree → Aliasing (List Token)
  | .condition tree => do return (← tree.aliased limits).tokens
  | .keyCondition tree => do return (← tree.aliased).tokens
  | .projection tree => do return (← tree.aliased).tokens
  | .update tree => do return (← tree.aliased).tokens

def write (limits : Limits) (kind : ExpressionKind) (tree : SourceTree) : Aliasing String :=
  Builder.write limits kind (tree.tokens limits)

theorem tokens_grows (limits : Limits) (tree : SourceTree) : Grows (tree.tokens limits) := by
  cases tree with
  | condition tree => exact (Grows.ofEnters (Condition.enters limits tree)).bind fun _ => .pure _
  | keyCondition tree => exact (Grows.ofEnters (KeyCondition.enters tree)).bind fun _ => .pure _
  | projection tree => exact (Grows.ofEnters (Projection.enters tree)).bind fun _ => .pure _
  | update tree => exact (Grows.ofEnters (Update.enters tree)).bind fun _ => .pure _

theorem write_grows (limits : Limits) (kind : ExpressionKind) (tree : SourceTree) :
    Grows (tree.write limits kind) := by
  refine (tokens_grows limits tree).bind fun tokens => ?_
  by_cases hlong : limits.expressionLength < (Token.texts tokens).utf8ByteSize
  · rw [if_pos hlong]
    exact (Grows.refuse _).bind fun _ => .pure _
  · rw [if_neg hlong]
    exact .pure _

end SourceTree

/-! ## The kinds of a builder -/

def Expression.ofTexts (texts : List (Option String)) (aliases : Aliases) : Expression where
  condition := texts[0]?.join
  filter := texts[1]?.join
  keyCondition := texts[2]?.join
  projection := texts[3]?.join
  update := texts[4]?.join
  aliases := aliases

/-- The place of a kind in the order in which trees are aliased. -/
def ExpressionKind.place (kind : ExpressionKind) : Nat := ExpressionKind.all.idxOf kind

theorem Expression.get_ofTexts (texts : List (Option String)) (aliases : Aliases)
    (kind : ExpressionKind) : (ofTexts texts aliases).get kind = texts[kind.place]?.join := by
  cases kind <;> rfl

namespace Builder

def tree? (builder : Builder) : ExpressionKind → Option SourceTree
  | .condition => builder.condition.map .condition
  | .filter => builder.filter.map .condition
  | .keyCondition => builder.keyCondition.map .keyCondition
  | .projection => builder.projection.map .projection
  | .update => builder.update.map .update

theorem holds_iff {builder : Builder} {kind : ExpressionKind} :
    builder.Holds kind ↔ builder.tree? kind ≠ none := by
  cases kind <;> exact (not_congr Option.map_eq_none_iff).symm

def writeKind (builder : Builder) (kind : ExpressionKind) : Aliasing (Option String) :=
  (builder.tree? kind).mapM (SourceTree.write builder.limits kind)

def writeKinds (builder : Builder) (kinds : List ExpressionKind) :
    Aliasing (List (Option String)) :=
  kinds.mapM builder.writeKind

theorem writeKinds_grows (builder : Builder) (kinds : List ExpressionKind) :
    Grows (builder.writeKinds kinds) :=
  .mapM (fun kind => .slot (SourceTree.write_grows builder.limits kind) (builder.tree? kind)) kinds

theorem run_writeKinds_append_eq_ok_iff {builder : Builder} {first second : List ExpressionKind}
    {table later : Aliases} {texts : List (Option String)} :
    (builder.writeKinds (first ++ second)).run.run table = (.ok texts, later) ↔
      ∃ before after middle, (builder.writeKinds first).run.run table = (.ok before, middle) ∧
        (builder.writeKinds second).run.run middle = (.ok after, later) ∧
        texts = before ++ after :=
  run_mapM_append_eq_ok_iff

theorem run_writeKinds_append_eq_error_iff {builder : Builder}
    {first second : List ExpressionKind} {table later : Aliases} {error : ExpressionError} :
    (builder.writeKinds (first ++ second)).run.run table = (.error error, later) ↔
      (builder.writeKinds first).run.run table = (.error error, later) ∨
        ∃ before middle, (builder.writeKinds first).run.run table = (.ok before, middle) ∧
          (builder.writeKinds second).run.run middle = (.error error, later) :=
  run_mapM_append_eq_error_iff

theorem mapM_map_slot {α β γ : Type} (f : α → β) (step : β → Aliasing γ) (tree : Option α) :
    (tree.map f).mapM step = tree.mapM (fun x => step (f x)) := by
  cases tree <;> rfl

theorem writeAll_eq (builder : Builder) :
    builder.writeAll =
      (do return Expression.ofTexts (← builder.writeKinds ExpressionKind.all)) := by
  simp only [writeAll, writeKinds, ExpressionKind.all, List.mapM_cons, List.mapM_nil, bind_assoc,
    pure_bind, writeKind, tree?, mapM_map_slot]
  rfl

theorem writeKind_of_absent {builder : Builder} {kind : ExpressionKind}
    (h : ¬ builder.Holds kind) : builder.writeKind kind = pure none := by
  rw [holds_iff, Decidable.not_not] at h
  rw [writeKind, h]
  rfl

/-- Kinds without a tree are passed over. -/
theorem writeKinds_of_absent {builder : Builder} {kinds : List ExpressionKind}
    (h : ∀ kind ∈ kinds, ¬ builder.Holds kind) :
    builder.writeKinds kinds = pure (List.replicate kinds.length none) := by
  induction kinds with
  | nil => rfl
  | cons kind rest ih =>
      rw [List.forall_mem_cons] at h
      have hrest := ih h.2
      unfold writeKinds at hrest ⊢
      rw [List.mapM_cons, writeKind_of_absent h.1, hrest]
      simp [List.replicate_succ]

theorem writeKinds_congr {builder other : Builder} {kinds : List ExpressionKind}
    (hlimits : other.limits = builder.limits)
    (h : ∀ kind ∈ kinds, other.tree? kind = builder.tree? kind) :
    other.writeKinds kinds = builder.writeKinds kinds := by
  induction kinds with
  | nil => rfl
  | cons kind rest ih =>
      rw [List.forall_mem_cons] at h
      have hkind : other.writeKind kind = builder.writeKind kind := by
        rw [writeKind, writeKind, h.1, hlimits]
      have hrest := ih h.2
      unfold writeKinds at hrest ⊢
      rw [List.mapM_cons, List.mapM_cons, hkind, hrest]

/-! ## Building as writing -/

section Build

variable {builder : Builder} {table : Aliases}

theorem build_of_writeKinds_ok {texts : List (Option String)} (hempty : builder.isEmpty = false)
    (hrun : (builder.writeKinds ExpressionKind.all).run.run {} = (.ok texts, table)) :
    builder.build = .ok (.ofTexts texts table) := by
  unfold build
  rw [if_neg (by simp [hempty]), writeAll_eq, run_bind_of_ok hrun, run_pure]

theorem build_of_writeKinds_error {error : ExpressionError} (hempty : builder.isEmpty = false)
    (hrun : (builder.writeKinds ExpressionKind.all).run.run {} = (.error error, table)) :
    builder.build = .error error := by
  unfold build
  rw [if_neg (by simp [hempty]), writeAll_eq, run_bind_of_error hrun]

/-- A build that succeeds writes all kinds, and has their texts and the table that they leave. -/
theorem exists_writeKinds_of_build_ok {expression : Expression}
    (h : builder.build = .ok expression) :
    ∃ texts table, (builder.writeKinds ExpressionKind.all).run.run {} = (.ok texts, table) ∧
      expression = .ofTexts texts table := by
  have hempty := (build_eq_ok_iff.1 h).1
  cases hrun : (builder.writeKinds ExpressionKind.all).run.run {} with
  | mk outcome table =>
      cases outcome with
      | ok texts =>
          rw [build_of_writeKinds_ok hempty hrun] at h
          cases h
          exact ⟨texts, table, rfl, rfl⟩
      | error error =>
          rw [build_of_writeKinds_error hempty hrun] at h
          cases h

/-- A build that has a tree and fails is a writing that fails. -/
theorem exists_writeKinds_of_build_error {error : ExpressionError}
    (hempty : builder.isEmpty = false) (h : builder.build = .error error) :
    ∃ table, (builder.writeKinds ExpressionKind.all).run.run {} = (.error error, table) := by
  cases hrun : (builder.writeKinds ExpressionKind.all).run.run {} with
  | mk outcome table =>
      cases outcome with
      | ok texts =>
          rw [build_of_writeKinds_ok hempty hrun] at h
          cases h
      | error other =>
          rw [build_of_writeKinds_error hempty hrun] at h
          cases h
          exact ⟨table, rfl⟩

/-- A build sees nothing of the trees but what is written for each kind. -/
theorem build_congr {other : Builder} (hempty : other.isEmpty = builder.isEmpty)
    (hwrite : ∀ kind, other.writeKind kind = builder.writeKind kind) :
    other.build = builder.build := by
  have hkinds : other.writeKinds ExpressionKind.all = builder.writeKinds ExpressionKind.all :=
    congrArg ExpressionKind.all.mapM (funext hwrite)
  unfold build
  rw [hempty, writeAll_eq, writeAll_eq, hkinds]

end Build

/--
The tree of the kind is the first that fails, and it fails with the error: all trees before it are
written, and writing it with the table that they leave gives the error.
-/
def FailsAt (builder : Builder) (kind : ExpressionKind) (error : ExpressionError) : Prop :=
  ∃ before after texts table later, ExpressionKind.all = before ++ kind :: after ∧
    (builder.writeKinds before).run.run {} = (.ok texts, table) ∧
    (builder.writeKind kind).run.run table = (.error error, later)

end Builder

end DynamoExpr
