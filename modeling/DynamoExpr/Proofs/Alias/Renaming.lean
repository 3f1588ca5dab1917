import DynamoExpr.Proofs.Alias.Table
import DynamoExpr.Proofs.Value.Renaming

/-!
# Aliasing renamed trees

The attribute names and the strings in a tree are replaced by others, different ones by different
ones.  Aliasing the new tree from a renamed table gives the same numbers or the same error, and
leaves the renamed table: two runs, of which the one follows the other step by step.
-/

namespace DynamoExpr

section Rename

variable (r s : String → String)

/-- The path with its names replaced; what did not parse stays as it is. -/
def NameRef.rename : NameRef → NameRef
  | .path p => .path (p.map r)
  | .faulty error => .faulty error

mutual

/-- The literal with its strings replaced, and the names of the paths in a list. -/
def Literal.rename : Literal → Literal
  | .value v => .value (v.mapText s)
  | .list members => .list (Literal.renameMembers members)

def Literal.renameMembers : List (Operand NameRef Literal) → List (Operand NameRef Literal)
  | [] => []
  | .name ref :: rest => .name (ref.rename r) :: Literal.renameMembers rest
  | .value l :: rest => .value (Literal.rename l) :: Literal.renameMembers rest
  | .size ref :: rest => .size (ref.rename r) :: Literal.renameMembers rest

end

def Aliases.rename (table : Aliases) : Aliases where
  names := table.names.map r
  values := table.values.map (AttributeValue.mapText s)

/-- From the renamed table `m'` gives what `m` gives, and leaves the renamed table. -/
def Follows {α : Type} (m' m : Aliasing α) : Prop :=
  ∀ table : Aliases, m'.run.run (table.rename r s) =
    ((m.run.run table).1, (m.run.run table).2.rename r s)

end Rename

variable {r s : String → String}

/-! ## Runs side by side -/

namespace Follows

variable {α β : Type} {m m' : Aliasing α} {k k' : α → Aliasing β}

theorem pure (a : α) : Follows r s (pure a) (pure a) := fun _ => rfl

theorem refuse (fault : ParameterFault) :
    Follows r s (DynamoExpr.refuse fault : Aliasing α) (DynamoExpr.refuse fault) := fun _ => rfl

theorem bind (h : Follows r s m' m) (hk : ∀ a, Follows r s (k' a) (k a)) :
    Follows r s (m' >>= k') (m >>= k) := by
  intro table
  have hm := h table
  cases hrun : m.run.run table with
  | mk outcome later =>
      rw [hrun] at hm
      cases outcome with
      | error e => rw [run_bind_of_error hm, run_bind_of_error hrun]
      | ok a => rw [run_bind_of_ok hm, run_bind_of_ok hrun, hk a later]

/-- A check that comes out the same in both runs. -/
theorem unlessFault (h : Follows r s m' m) {bad bad' : Prop} [Decidable bad] [Decidable bad']
    (hbad : bad' ↔ bad) (fault : ParameterFault) :
    Follows r s
      (do
        if bad' then DynamoExpr.refuse fault
        m')
      (do
        if bad then DynamoExpr.refuse fault
        m) := by
  by_cases hb : bad
  · rw [if_pos hb, if_pos (hbad.2 hb)]
    exact (refuse fault).bind fun _ => h
  · rw [if_neg hb, if_neg fun hb' => hb (hbad.1 hb')]
    exact h

theorem mapM {ι : Type} {f : ι → ι} {step : ι → Aliasing α}
    (h : ∀ x, Follows r s (step (f x)) (step x)) (xs : List ι) :
    Follows r s ((xs.map f).mapM step) (xs.mapM step) := by
  induction xs with
  | nil => exact pure []
  | cons x rest ih =>
      rw [List.map_cons, List.mapM_cons, List.mapM_cons]
      exact (h x).bind fun _ => ih.bind fun _ => pure _

theorem slot {ι : Type} {f : ι → ι} {step : ι → Aliasing α}
    (h : ∀ x, Follows r s (step (f x)) (step x)) (tree : Option ι) :
    Follows r s ((tree.map f).mapM step) (tree.mapM step) := by
  cases tree with
  | none => exact pure none
  | some x => exact (h x).bind fun _ => pure _

end Follows

/-! ## Renaming keeps what is compared -/

theorem PathStep.map_injective (hr : Function.Injective r) :
    Function.Injective (PathStep.map r) := by
  intro a b h
  cases a <;> cases b <;> simp only [PathStep.map, PathStep.attribute.injEq, PathStep.index.injEq,
    reduceCtorEq] at h
  · rw [hr h]
  · rw [h]

theorem Path.map_injective (hr : Function.Injective r) : Function.Injective (Path.map r) := by
  intro a b h
  rcases a with ⟨head, tail⟩
  rcases b with ⟨other, more⟩
  simp only [Path.map, Path.mk.injEq] at h
  rw [hr h.1, (List.map_inj_right fun _ _ heq => PathStep.map_injective hr heq).1 h.2]

theorem NameRef.rename_injective (hr : Function.Injective r) :
    Function.Injective (NameRef.rename r) := by
  intro a b h
  cases a <;> cases b <;> simp only [rename, NameRef.path.injEq, NameRef.faulty.injEq,
    reduceCtorEq] at h
  · rw [Path.map_injective hr h]
  · rw [h]

mutual

/-- A literal folds to the renamed value, or does not fold. -/
theorem Literal.value?_rename : ∀ l : Literal,
    (l.rename r s).value? = l.value?.map (AttributeValue.mapText s)
  | .value v => rfl
  | .list members => by
      rw [Literal.rename, Literal.value?, Literal.value?, Literal.membersValue?_rename members,
        Option.map_map, Option.map_map]
      refine congrArg (Option.map · (Literal.membersValue? members)) (funext fun items => ?_)
      exact (AttributeValue.mapText_list items).symm

theorem Literal.membersValue?_rename : ∀ members : List (Operand NameRef Literal),
    Literal.membersValue? (Literal.renameMembers r s members) =
      (Literal.membersValue? members).map (List.map (AttributeValue.mapText s))
  | [] => rfl
  | .name _ :: _ => rfl
  | .size _ :: _ => rfl
  | .value l :: rest => by
      rw [Literal.renameMembers, Literal.membersValue?, Literal.membersValue?,
        Literal.value?_rename l, Literal.membersValue?_rename rest]
      cases l.value? with
      | none => rfl
      | some v => cases Literal.membersValue? rest <;> rfl

end

theorem Literal.type_rename (l : Literal) : (l.rename r s).type = l.type := by
  cases l with
  | value v => exact AttributeValue.type_mapText v
  | list members => rfl

/-! ## Leaves and operands -/

namespace Aliases

theorem name_follows (hr : Function.Injective r) (n : String) :
    Follows r s (name (r n)) (name n) := by
  intro table
  have hbeq : ∀ a b : String, (r a == r b) = (a == b) := by
    intro a b
    rw [Bool.eq_iff_iff, beq_iff_eq, beq_iff_eq]
    exact hr.eq_iff
  have henter := Lane.enter_map hbeq n table.names
  change (Except.ok (Lane.enter (r n) (table.names.map r)).1,
    (⟨(Lane.enter (r n) (table.names.map r)).2, _⟩ : Aliases)) = _
  rw [henter]
  rfl

theorem value_follows (hs : Function.Injective s) (v : AttributeValue) :
    Follows r s (value (v.mapText s)) (value v) := by
  intro table
  have hnumber : Lane.number? (v.mapText s) (table.rename r s).values =
      Lane.number? v table.values := Lane.number?_map (AttributeValue.beq_mapText hs) v table.values
  -- A value that has a number is not checked again, so both runs check the value or neither does.
  cases hplace : Lane.number? v table.values with
  | some i => rw [run_value_of_number hplace, run_value_of_number (hnumber.trans hplace)]
  | none =>
      cases hcheck : v.check with
      | ok _ =>
          rw [run_value_of_ok hplace hcheck,
            run_value_of_ok (hnumber.trans hplace) ((AttributeValue.check_mapText v).trans hcheck)]
          simp [rename]
      | error fault =>
          rw [run_value_of_error hplace hcheck, run_value_of_error (hnumber.trans hplace)
            ((AttributeValue.check_mapText v).trans hcheck)]

theorem path_follows (hr : Function.Injective r) (p : AttributePath) :
    Follows r s (path (p.map r)) (path p) := by
  have hstep : ∀ step : PathStep String,
      Follows r s ((step.map r).traverse name) (step.traverse name) := by
    intro step
    rcases step with n | i
    · exact (name_follows hr n).bind fun _ => .pure _
    · exact .pure _
  exact (name_follows hr p.head).bind fun _ => (Follows.mapM hstep p.tail).bind fun _ => .pure _

theorem nameRef_follows (hr : Function.Injective r) (ref : NameRef) :
    Follows r s (nameRef (ref.rename r)) (nameRef ref) := by
  cases ref with
  | path p => exact path_follows hr p
  | faulty error => exact fun _ => rfl

theorem literal_follows (hs : Function.Injective s) (l : Literal) :
    Follows r s (literal (l.rename r s)) (literal l) := by
  unfold literal
  rw [Literal.value?_rename]
  cases l.value? with
  | none => exact fun _ => rfl
  | some v => exact value_follows hs v

end Aliases

end DynamoExpr
