import DynamoExpr.Proofs.Builder.Numbering
import DynamoExpr.Proofs.Builder.Stages

/-!
# Trees added behind others

Trees of later kinds are written after all trees of earlier kinds.  Adding them leaves the texts
and the aliases of the earlier trees as they are, and an error of an earlier tree stays the error.
-/

namespace DynamoExpr

/-- The texts are there as they are, and every alias stands for the very same name or value. -/
structure Expression.Extends (first second : Expression) : Prop where
  texts : ∀ kind text, first.get kind = some text → second.get kind = some text
  names : ∀ key name, first.names.lookup key = some name → second.names.lookup key = some name
  values : ∀ key v, first.values.lookup key = some v → second.values.lookup key = some v

/-- `other` is `builder` with trees added, all of them of kinds after the kinds of `builder`. -/
structure Builder.Continues (other builder : Builder) : Prop where
  limits : other.limits = builder.limits
  kept : ∀ kind, builder.Holds kind → other.tree? kind = builder.tree? kind
  later : ∀ old new, builder.Holds old → other.Holds new → ¬ builder.Holds new →
    old.place < new.place

theorem lookup_mapIdx_of_prefix {α : Type} {key : Nat → String} {earlier later : List α}
    (h : earlier <+: later) {k : String} {x : α}
    (hx : (earlier.mapIdx fun i x => (key i, x)).lookup k = some x) :
    (later.mapIdx fun i x => (key i, x)).lookup k = some x := by
  rcases h with ⟨rest, rfl⟩
  rw [List.mapIdx_append, List.lookup_append, hx, Option.some_or]

namespace Builder

variable {builder other : Builder}

namespace Continues

theorem holds (h : other.Continues builder) {kind : ExpressionKind} (hkind : builder.Holds kind) :
    other.Holds kind := by
  rw [holds_iff, h.kept kind hkind]
  exact holds_iff.1 hkind

theorem isEmpty_eq_false (h : other.Continues builder) (hempty : builder.isEmpty = false) :
    other.isEmpty = false := by
  obtain ⟨kind, hkind⟩ := isEmpty_eq_false_iff.1 hempty
  exact isEmpty_eq_false_iff.2 ⟨kind, h.holds hkind⟩

/--
Kinds in their order fall into those where both builders have the same tree, and behind them those
where the first one has none.
-/
theorem exists_append_eq (h : other.Continues builder) {kinds : List ExpressionKind}
    (hsorted : kinds.Pairwise fun a b => a.place < b.place) :
    ∃ shared rest, kinds = shared ++ rest ∧
      (∀ kind ∈ shared, other.tree? kind = builder.tree? kind) ∧
      ∀ kind ∈ rest, ¬ builder.Holds kind := by
  induction kinds with
  | nil => exact ⟨[], [], rfl, List.forall_mem_nil _, List.forall_mem_nil _⟩
  | cons kind more ih =>
      obtain ⟨hbefore, hmore⟩ := List.pairwise_cons.1 hsorted
      by_cases hsame : other.tree? kind = builder.tree? kind
      · obtain ⟨shared, rest, rfl, hshared, hrest⟩ := ih hmore
        exact ⟨kind :: shared, rest, rfl, List.forall_mem_cons.2 ⟨hsame, hshared⟩, hrest⟩
      · -- The trees differ in an added one, and `builder` has no tree behind that.
        have habsent : ¬ builder.Holds kind := fun hkind => hsame (h.kept kind hkind)
        have hadded : other.Holds kind := by
          have hnone : builder.tree? kind = none := Decidable.not_not.1 (mt holds_iff.2 habsent)
          rw [holds_iff]
          exact fun hother => hsame (hother.trans hnone.symm)
        refine ⟨[], kind :: more, rfl, List.forall_mem_nil _, ?_⟩
        refine List.forall_mem_cons.2 ⟨habsent, fun next hnext hold => ?_⟩
        have hbehind := h.later next kind hold hadded habsent
        exact absurd (hbefore next hnext) (Nat.not_lt.2 (Nat.le_of_lt hbehind))

theorem exists_writeKinds (h : other.Continues builder) :
    ∃ shared rest, ExpressionKind.all = shared ++ rest ∧
      other.writeKinds shared = builder.writeKinds shared ∧
      ∀ kind ∈ rest, ¬ builder.Holds kind := by
  have hsorted : ExpressionKind.all.Pairwise fun a b => a.place < b.place := by decide
  obtain ⟨shared, rest, hall, hshared, hrest⟩ := h.exists_append_eq hsorted
  exact ⟨shared, rest, hall, writeKinds_congr h.limits hshared, hrest⟩

theorem build_error (h : other.Continues builder) {fault : ParameterFault}
    (hbuild : builder.build = .error (.invalid fault)) :
    other.build = .error (.invalid fault) := by
  have hempty : builder.isEmpty = false :=
    isEmpty_eq_false_iff.2 (build_invalid_iff.1 ⟨fault, hbuild⟩).1
  obtain ⟨shared, rest, hall, hshared, hrest⟩ := h.exists_writeKinds
  obtain ⟨table, hrun⟩ := exists_writeKinds_of_build_error hempty hbuild
  rw [hall] at hrun
  rcases run_writeKinds_append_eq_error_iff.1 hrun with hfailed | ⟨_, _, -, hfailed⟩
  · have hother : (other.writeKinds ExpressionKind.all).run.run {} =
        (.error (.invalid fault), table) := by
      rw [← hshared] at hfailed
      rw [hall]
      exact run_writeKinds_append_eq_error_iff.2 (.inl hfailed)
    exact build_of_writeKinds_error (h.isEmpty_eq_false hempty) hother
  · rw [writeKinds_of_absent hrest] at hfailed
    exact absurd hfailed run_pure_ne_error

/-- A build that succeeds has written the shared kinds, and found nothing behind them. -/
theorem exists_shared (h : other.Continues builder) {expression : Expression}
    (hbuild : builder.build = .ok expression) :
    ∃ shared rest texts, ExpressionKind.all = shared ++ rest ∧
      (other.writeKinds shared).run.run {} = (.ok texts, expression.aliases) ∧
      expression.aliases.Sound ∧ (∀ kind ∈ rest, ¬ builder.Holds kind) ∧
      expression = .ofTexts (texts ++ List.replicate rest.length none) expression.aliases := by
  obtain ⟨shared, rest, hall, hshared, hrest⟩ := h.exists_writeKinds
  obtain ⟨texts, table, hrun, rfl⟩ := exists_writeKinds_of_build_ok hbuild
  rw [hall] at hrun
  obtain ⟨first, second, middle, hfirst, hsecond, rfl⟩ :=
    run_writeKinds_append_eq_ok_iff.1 hrun
  rw [writeKinds_of_absent hrest] at hsecond
  obtain ⟨rfl, rfl⟩ := run_pure_eq_ok_iff.1 hsecond
  have hsound := (writeKinds_grows builder shared {} Aliases.sound_empty).1
  rw [hfirst] at hsound
  rw [← hshared] at hfirst
  exact ⟨shared, rest, first, hall, hfirst, hsound, hrest, rfl⟩

end Continues

theorem join_getElem?_append {α : Type} {first second : List (Option α)} {n i : Nat} {x : α}
    (h : (first ++ List.replicate n none)[i]?.join = some x) :
    (first ++ second)[i]?.join = some x := by
  by_cases hi : i < first.length
  · rw [List.getElem?_append_left hi] at h ⊢
    exact h
  · rw [List.getElem?_append_right (Nat.not_lt.1 hi), List.getElem?_replicate] at h
    split at h
    · cases h
    · cases h

theorem Continues.extends (h : other.Continues builder) {expression continued : Expression}
    (hbuild : builder.build = .ok expression) (hother : other.build = .ok continued) :
    expression.Extends continued := by
  obtain ⟨shared, rest, texts, hall, hshared, hsound, -, hexpression⟩ := h.exists_shared hbuild
  obtain ⟨all, table, hrun, rfl⟩ := exists_writeKinds_of_build_ok hother
  rw [hall] at hrun
  obtain ⟨first, second, middle, hfirst, hsecond, rfl⟩ :=
    run_writeKinds_append_eq_ok_iff.1 hrun
  rw [hshared] at hfirst
  cases hfirst
  have hext := (writeKinds_grows other rest expression.aliases hsound).2
  rw [hsecond] at hext
  refine ⟨fun kind text htext => ?_, fun _ _ => lookup_mapIdx_of_prefix hext.names,
    fun _ _ => lookup_mapIdx_of_prefix hext.values⟩
  rw [hexpression, Expression.get_ofTexts] at htext
  rw [Expression.get_ofTexts]
  exact join_getElem?_append htext

theorem Continues.failsAt (h : other.Continues builder) {expression : Expression}
    {error : ExpressionError} (hbuild : builder.build = .ok expression)
    (hother : other.build = .error error) :
    ∃ kind, other.Holds kind ∧ ¬ builder.Holds kind ∧ other.FailsAt kind error := by
  obtain ⟨shared, rest, texts, hall, hshared, -, hrest, -⟩ := h.exists_shared hbuild
  have hempty := h.isEmpty_eq_false (build_eq_ok_iff.1 hbuild).1
  obtain ⟨table, hrun⟩ := exists_writeKinds_of_build_error hempty hother
  rw [hall] at hrun
  rcases run_writeKinds_append_eq_error_iff.1 hrun with
    hfailed | ⟨first, middle, hfirst, hfailed⟩
  · rw [hshared] at hfailed
    cases hfailed
  · obtain ⟨before, kind, after, done, last, rfl, hdone, hkind⟩ := run_mapM_eq_error_iff.1 hfailed
    have hadded : other.Holds kind := by
      refine Classical.byContradiction fun habsent => ?_
      rw [writeKind_of_absent habsent] at hkind
      exact run_pure_ne_error hkind
    refine ⟨kind, hadded, hrest kind (by simp), shared ++ before, after, first ++ done, last,
      table, ?_, run_writeKinds_append_eq_ok_iff.2 ⟨first, done, middle, hfirst, hdone, rfl⟩, hkind⟩
    rw [hall, List.append_assoc]

/--
Trees of later kinds change nothing about the earlier ones.  An error of an earlier tree stays the
error.  Where both build, the texts stay, and every alias stands for the same name or value.  Where
only the earlier trees build, the error is that of the first added tree that fails.
-/
theorem build_of_continues (h : other.Continues builder) :
    (∀ fault, builder.build = .error (.invalid fault) →
      other.build = .error (.invalid fault)) ∧
    (∀ expression continued, builder.build = .ok expression → other.build = .ok continued →
      expression.Extends continued) ∧
    ∀ expression error, builder.build = .ok expression → other.build = .error error →
      ∃ kind, other.Holds kind ∧ ¬ builder.Holds kind ∧ other.FailsAt kind error :=
  ⟨fun _ => h.build_error, fun _ _ => h.extends, fun _ _ => h.failsAt⟩

def opening : Builder where
  condition := some (.compare .eq (.name (.path ⟨"a", []⟩))
    (.value (.value (.stringSet ["x", "y"]))))

/-- The set again with its members in another order, and the name again within a path. -/
def continued : Builder :=
  opening.withUpdate { adds := [(.path ⟨"b", [.attribute "a"]⟩, .value (.stringSet ["y", "x"]))] }

def broken : Builder :=
  (opening.withProjection ⟨[.path ⟨"c", []⟩]⟩).withUpdate
    { sets := [(.path ⟨"b", []⟩, .operand (.size (.path ⟨"a", []⟩)))] }

theorem opening_holds_iff {kind : ExpressionKind} : opening.Holds kind ↔ kind = .condition := by
  cases kind <;> simp [Holds, opening]

theorem opening_build_of_continues :
    continued.Continues opening ∧ broken.Continues opening ∧
    (∃ expression extended, opening.build = .ok expression ∧ continued.build = .ok extended ∧
      expression.texts = ["#0 = :0"] ∧ extended.texts = ["#0 = :0", "ADD #1.#0 :0"] ∧
      expression.Extends extended) ∧
    ∃ kind, ¬ opening.Holds kind ∧ broken.FailsAt kind (.invalid .sizeInUpdate) := by
  have hopening : opening.build = .ok
      { condition := some "#0 = :0", filter := none, keyCondition := none, projection := none,
        update := none, aliases := ⟨["a"], [.stringSet ["x", "y"]]⟩ } := by rfl
  have hcontinued : continued.build = .ok
      { condition := some "#0 = :0", filter := none, keyCondition := none, projection := none,
        update := some "ADD #1.#0 :0",
        aliases := ⟨["a", "b"], [.stringSet ["x", "y"]]⟩ } := by rfl
  have hbroken : broken.build = .error (.invalid .sizeInUpdate) := by rfl
  have hkept : ∀ other : Builder, other.tree? .condition = opening.tree? .condition →
      ∀ kind, opening.Holds kind → other.tree? kind = opening.tree? kind := by
    intro other hsame kind hkind
    rw [opening_holds_iff.1 hkind]
    exact hsame
  have hlater : ∀ old new, opening.Holds old → ¬ opening.Holds new → old.place < new.place := by
    intro old new hold hnew
    rw [opening_holds_iff] at hold hnew
    subst hold
    cases new <;> first | exact absurd rfl hnew | decide
  have hfirst : continued.Continues opening :=
    ⟨rfl, hkept continued rfl, fun old new hold _ => hlater old new hold⟩
  have hsecond : broken.Continues opening :=
    ⟨rfl, hkept broken rfl, fun old new hold _ => hlater old new hold⟩
  obtain ⟨kind, -, hadded, hfails⟩ := (build_of_continues hsecond).2.2 _ _ hopening hbroken
  exact ⟨hfirst, hsecond,
    ⟨_, _, hopening, hcontinued, rfl, rfl,
      (build_of_continues hfirst).2.1 _ _ hopening hcontinued⟩, kind, hadded, hfails⟩

end Builder

end DynamoExpr
