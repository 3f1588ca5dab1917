import DynamoExpr.Proofs.Outcome
import DynamoExpr.Proofs.Tree.Checked
import DynamoExpr.Proofs.Value.Storable

/-!
# Well formed trees

What each kind of tree has to satisfy on its own, said without an order of checks.  A tree passes
its check exactly when it is well formed.
-/

namespace DynamoExpr

/-! ## The predicates -/

def NameRef.Parsed (ref : NameRef) : Prop := ∃ p, ref = .path p

/-- A value that can be stored, or a list with nothing but such literals in it. -/
inductive Literal.WellFormed : Literal → Prop where
  | value {v : AttributeValue} : v.Storable → WellFormed (.value v)
  | list {members : List (Operand NameRef Literal)} :
      (∀ m ∈ members, ∃ l, m = .value l) → (∀ l, .value l ∈ members → WellFormed l) →
      WellFormed (.list members)

def Operand.WellFormed : SourceOperand → Prop
  | .name path => path.Parsed
  | .value l => l.WellFormed
  | .size path => path.Parsed

def Condition.WellFormed (limits : Limits) : SourceCondition → Prop
  | .compare _ left right => left.WellFormed ∧ right.WellFormed
  | .between value low high => value.WellFormed ∧ low.WellFormed ∧ high.WellFormed
  | .within value candidates =>
    1 ≤ candidates.length ∧ candidates.length ≤ limits.inOperands ∧ value.WellFormed ∧
      ∀ candidate ∈ candidates, candidate.WellFormed
  | .presence _ path => path.Parsed
  | .test _ path l => path.Parsed ∧ l.WellFormed
  | .join _ left right => left.WellFormed limits ∧ right.WellFormed limits
  | .not inner => inner.WellFormed limits

def SortKeyTest.WellFormed : SortKeyTest AttributeValue → Prop
  | .compare _ value => value.Storable
  | .between low high => low.Storable ∧ high.Storable
  | .beginsWith leading => leading.Storable

/-- Key names are there, and two of them differ. -/
structure KeyCondition.WellFormed (tree : SourceKeyCondition) : Prop where
  key : tree.key.Parsed
  value : tree.value.Storable
  sort : ∀ sort ∈ tree.sort, sort.key.Parsed ∧ sort.test.WellFormed ∧ sort.key ≠ tree.key

structure Projection.WellFormed (tree : SourceProjection) : Prop where
  nonempty : tree.names ≠ []
  names : ∀ name ∈ tree.names, name.Parsed

/-- No size at any depth, and no sum or difference directly within another. -/
def SetValue.WellFormed : SetValue NameRef Literal → Prop
  | .operand (.name path) => path.Parsed
  | .operand (.value l) => l.WellFormed
  | .operand (.size _) => False
  | .arithmetic _ left right =>
    left.isArithmetic = false ∧ right.isArithmetic = false ∧ left.WellFormed ∧ right.WellFormed
  | .listAppend left right => left.WellFormed ∧ right.WellFormed
  | .ifNotExists path fallback => path.Parsed ∧ fallback.WellFormed

structure Update.WellFormed (tree : SourceUpdate) : Prop where
  nonempty : tree.sets ≠ [] ∨ tree.removes ≠ [] ∨ tree.adds ≠ [] ∨ tree.deletes ≠ []
  sets : ∀ action ∈ tree.sets, action.1.Parsed ∧ action.2.WellFormed
  removes : ∀ target ∈ tree.removes, target.Parsed
  adds : ∀ action ∈ tree.adds, action.1.Parsed ∧ action.2.WellFormed ∧
    action.2.type ∈ [.number, .stringSet, .numberSet, .binarySet]
  deletes : ∀ action ∈ tree.deletes, action.1.Parsed ∧ action.2.WellFormed ∧
    action.2.type ∈ [.stringSet, .numberSet, .binarySet]

/-! ## Names -/

theorem NameRef.parsed_ofText_iff (text : String) :
    (NameRef.ofText text).Parsed ↔ ∃ p, Path.read text = .ok p := by
  unfold NameRef.ofText NameRef.Parsed
  cases Path.read text with
  | ok p => simp [NameRef.ofExcept]
  | error e => simp [NameRef.ofExcept]

theorem NameRef.parsed_ofKey_iff (name : String) : (NameRef.ofKey name).Parsed ↔ name ≠ "" := by
  unfold NameRef.ofKey NameRef.Parsed Path.ofKey
  by_cases h : name = ""
  · simp [h, NameRef.ofExcept]
  · simp [h, NameRef.ofExcept]

/-! ## Success of checks -/

section Success

variable {α β ι : Type}

theorem unlessFault_eq_ok_iff {bad : Prop} [Decidable bad] {fault : ParameterFault}
    {next : Except ParameterFault α} {a : α} :
    unlessFault bad fault next = .ok a ↔ ¬ bad ∧ next = .ok a := by
  unfold unlessFault
  by_cases h : bad
  · simp [h]
  · simp [h]

theorem checked_bind_succeeds_iff {r : Except ParameterFault α}
    {k : α → Except ParameterFault β} :
    (∃ b, (r >>= k) = .ok b) ↔ ∃ a, r = .ok a ∧ ∃ b, k a = .ok b := by
  simp only [bind_eq_ok_iff]
  constructor
  · intro h
    rcases h with ⟨b, a, ha, hb⟩
    exact ⟨a, ha, b, hb⟩
  · intro h
    rcases h with ⟨a, ha, b, hb⟩
    exact ⟨b, a, ha, hb⟩

theorem checked_pure_succeeds (a : α) : ∃ b, (pure a : Except ParameterFault α) = .ok b :=
  ⟨a, rfl⟩

theorem unlessFault_succeeds_iff {bad : Prop} [Decidable bad] {fault : ParameterFault}
    {next : Except ParameterFault α} :
    (∃ a, unlessFault bad fault next = .ok a) ↔ ¬ bad ∧ ∃ a, next = .ok a := by
  simp only [unlessFault_eq_ok_iff, exists_and_left]

theorem checked_mapM_succeeds_iff {check : ι → Except ParameterFault α} {xs : List ι} :
    (∃ ys, xs.mapM check = .ok ys) ↔ ∀ x ∈ xs, ∃ y, check x = .ok y := by
  induction xs with
  | nil => exact ⟨fun _ => List.forall_mem_nil _, fun _ => ⟨[], rfl⟩⟩
  | cons x rest ih =>
      simp only [List.mapM_cons, bind_eq_ok_iff, pure_eq_ok_iff,
        List.forall_mem_cons, ← ih]
      constructor
      · intro h
        rcases h with ⟨_, y, hy, ys, hys, -⟩
        exact ⟨⟨y, hy⟩, ys, hys⟩
      · intro h
        rcases h with ⟨⟨y, hy⟩, ys, hys⟩
        exact ⟨_, y, hy, ys, hys, rfl⟩

theorem exists_checked_of_mem {check : ι → Except ParameterFault α} {xs : List ι} {ys : List α}
    (h : xs.mapM check = .ok ys) {y : α} (hy : y ∈ ys) : ∃ x, check x = .ok y := by
  induction xs generalizing ys with
  | nil =>
      cases h
      cases hy
  | cons x rest ih =>
      rw [List.mapM_cons, bind_eq_ok_iff] at h
      rcases h with ⟨first, hfirst, h⟩
      obtain ⟨others, hothers, h⟩ := bind_eq_ok_iff.1 h
      cases h
      cases hy with
      | head => exact ⟨x, hfirst⟩
      | tail _ hmem => exact ih hothers hmem

theorem checked_mapM_some_eq_ok_iff {check : ι → Except ParameterFault α} {x : ι}
    {plain : Option α} :
    (some x).mapM check = .ok plain ↔ ∃ y, check x = .ok y ∧ plain = some y := by
  simp only [mapM_some, bind_eq_ok_iff, pure_eq_ok_iff, @eq_comm _ (some _) plain]

end Success

theorem NameRef.checked_succeeds_iff {ref : NameRef} :
    (∃ p, ref.checked = .ok p) ↔ ref.Parsed := by
  cases ref with
  | path p => exact ⟨fun _ => ⟨p, rfl⟩, fun _ => ⟨p, rfl⟩⟩
  | faulty error =>
      constructor
      · intro h
        rcases h with ⟨p, h⟩
        cases h
      · intro h
        rcases h with ⟨p, h⟩
        cases h

theorem AttributeValue.checked_eq_ok_iff {value v : AttributeValue} :
    value.checked = .ok v ↔ value.Storable ∧ v = value := by
  rw [← check_eq_ok_iff]
  unfold AttributeValue.checked
  cases value.check with
  | ok u => simp [eq_comm]
  | error fault => simp

theorem AttributeValue.checked_succeeds_iff {value : AttributeValue} :
    (∃ v, value.checked = .ok v) ↔ value.Storable := by
  simp [checked_eq_ok_iff]

/-! ## Success for well formed trees -/

namespace Literal

theorem wellFormed_value_iff {v : AttributeValue} : (Literal.value v).WellFormed ↔ v.Storable :=
  ⟨fun h => by cases h; assumption, .value⟩

theorem wellFormed_list_iff {members : List (Operand NameRef Literal)} :
    (Literal.list members).WellFormed ↔
      ∀ m ∈ members, ∃ l, m = .value l ∧ l.WellFormed := by
  constructor
  · intro h m hm
    rcases h with _ | ⟨hliteral, hwell⟩
    obtain ⟨l, rfl⟩ := hliteral m hm
    exact ⟨l, rfl, hwell l hm⟩
  · intro h
    refine .list (fun m hm => ?_) (fun l hl => ?_)
    · obtain ⟨l, rfl, -⟩ := h m hm
      exact ⟨l, rfl⟩
    · obtain ⟨l', heq, hwell⟩ := h (.value l) hl
      cases heq
      exact hwell

mutual

/-- By recursion on the literal; a list has a value where all its members have one. -/
theorem wellFormed_iff : ∀ l : Literal,
    l.WellFormed ↔ ∃ v, l.value? = some v ∧ v.Storable
  | .value v => by simp [wellFormed_value_iff, value?]
  | .list members => by
      rw [wellFormed_list_iff, members_wellFormed_iff members]
      constructor
      · intro h
        rcases h with ⟨values, hvalues, hall⟩
        exact ⟨.list values, by simp [value?, hvalues], AttributeValue.storable_list.2 hall⟩
      · intro h
        rcases h with ⟨v, hv, hstorable⟩
        obtain ⟨values, hvalues, rfl⟩ := Option.map_eq_some_iff.1 hv
        exact ⟨values, hvalues, AttributeValue.storable_list.1 hstorable⟩

theorem members_wellFormed_iff : ∀ members : List (Operand NameRef Literal),
    (∀ m ∈ members, ∃ l, m = .value l ∧ l.WellFormed) ↔
      ∃ values, membersValue? members = some values ∧ ∀ v ∈ values, v.Storable
  | [] => by simp [membersValue?]
  | .name path :: rest => by simp [membersValue?]
  | .size path :: rest => by simp [membersValue?]
  | .value l :: rest => by
      rw [List.forall_mem_cons, members_wellFormed_iff rest]
      have hfirst : (∃ k, (Operand.value l : SourceOperand) = .value k ∧ k.WellFormed) ↔
          ∃ v, l.value? = some v ∧ v.Storable := by
        rw [← wellFormed_iff l]
        simp
      rw [hfirst]
      constructor
      · intro h
        rcases h with ⟨⟨v, hv, hstorable⟩, values, hvalues, hall⟩
        exact ⟨v :: values, by simp [membersValue?, hv, hvalues],
          List.forall_mem_cons.2 ⟨hstorable, hall⟩⟩
      · intro h
        rcases h with ⟨values, hvalues, hall⟩
        simp only [membersValue?, Option.bind_eq_bind, Option.bind_eq_some_iff,
          Option.some.injEq] at hvalues
        rcases hvalues with ⟨v, hv, others, hothers, rfl⟩
        obtain ⟨hstorable, hrest⟩ := List.forall_mem_cons.1 hall
        exact ⟨⟨v, hv, hstorable⟩, others, hothers, hrest⟩

end

theorem checked_eq_ok_iff {l : Literal} {v : AttributeValue} :
    l.checked = .ok v ↔ l.value? = some v ∧ v.Storable := by
  unfold checked
  cases l.value? with
  | none => simp
  | some w =>
      show w.checked = .ok v ↔ some w = some v ∧ v.Storable
      rw [AttributeValue.checked_eq_ok_iff, Option.some.injEq]
      constructor
      · intro h
        rcases h with ⟨hstorable, rfl⟩
        exact ⟨rfl, hstorable⟩
      · intro h
        rcases h with ⟨rfl, hstorable⟩
        exact ⟨hstorable, rfl⟩

theorem checked_succeeds_iff {l : Literal} : (∃ v, l.checked = .ok v) ↔ l.WellFormed := by
  simp only [checked_eq_ok_iff, wellFormed_iff]

end Literal

theorem Operand.checked_succeeds_iff {source : SourceOperand} :
    (∃ plain, source.checked = .ok plain) ↔ source.WellFormed := by
  cases source with
  | name ref =>
      simp only [checked, checked_bind_succeeds_iff, checked_pure_succeeds, and_true,
        NameRef.checked_succeeds_iff, WellFormed]
  | value l =>
      simp only [checked, checked_bind_succeeds_iff, checked_pure_succeeds, and_true,
        Literal.checked_succeeds_iff, WellFormed]
  | size ref =>
      simp only [checked, checked_bind_succeeds_iff, checked_pure_succeeds, and_true,
        NameRef.checked_succeeds_iff, WellFormed]

theorem Condition.checked_succeeds_iff {limits : Limits} {tree : SourceCondition} :
    (∃ plain, tree.checked limits = .ok plain) ↔ tree.WellFormed limits := by
  induction tree with
  | compare op left right =>
      simp only [checked, checked_bind_succeeds_iff, checked_pure_succeeds, and_true,
        exists_and_right, Operand.checked_succeeds_iff, WellFormed]
  | between value low high =>
      simp only [checked, checked_bind_succeeds_iff, checked_pure_succeeds, and_true,
        exists_and_right, Operand.checked_succeeds_iff, WellFormed]
  | within value candidates =>
      simp only [checked, unlessFault_succeeds_iff, checked_bind_succeeds_iff,
        checked_pure_succeeds, and_true, exists_and_right, Operand.checked_succeeds_iff,
        checked_mapM_succeeds_iff, WellFormed, List.isEmpty_iff, Nat.not_lt]
      rw [← ne_eq, ← List.length_pos_iff]
      rfl
  | presence function ref =>
      simp only [checked, checked_bind_succeeds_iff, checked_pure_succeeds, and_true,
        NameRef.checked_succeeds_iff, WellFormed]
  | test function ref l =>
      simp only [checked, checked_bind_succeeds_iff, checked_pure_succeeds, and_true,
        exists_and_right, NameRef.checked_succeeds_iff, Literal.checked_succeeds_iff, WellFormed]
  | join op left right hleft hright =>
      simp only [checked, checked_bind_succeeds_iff, checked_pure_succeeds, and_true,
        exists_and_right, hleft, hright, WellFormed]
  | not inner hinner =>
      simp only [checked, checked_bind_succeeds_iff, checked_pure_succeeds, and_true, hinner,
        WellFormed]

theorem SortKeyTest.checked_succeeds_iff {test : SortKeyTest AttributeValue} :
    (∃ plain, test.checked = .ok plain) ↔ test.WellFormed := by
  cases test with
  | compare op value =>
      simp only [checked, checked_bind_succeeds_iff, checked_pure_succeeds, and_true,
        AttributeValue.checked_succeeds_iff, WellFormed]
  | between low high =>
      simp only [checked, checked_bind_succeeds_iff, checked_pure_succeeds, and_true,
        exists_and_right, AttributeValue.checked_succeeds_iff, WellFormed]
  | beginsWith leading =>
      simp only [checked, checked_bind_succeeds_iff, checked_pure_succeeds, and_true,
        AttributeValue.checked_succeeds_iff, WellFormed]

theorem KeyCondition.checked_succeeds_iff {tree : SourceKeyCondition} :
    (∃ plain, tree.checked = .ok plain) ↔ tree.WellFormed := by
  rcases tree with ⟨key, value, sort⟩
  cases sort with
  | none =>
      simp only [checked, unlessFault_succeeds_iff, checked_bind_succeeds_iff,
        checked_pure_succeeds, and_true, exists_and_right, NameRef.checked_succeeds_iff,
        AttributeValue.checked_succeeds_iff]
      constructor
      · intro h
        rcases h with ⟨-, hkey, hvalue⟩
        refine ⟨hkey, hvalue, fun sort hsort => ?_⟩
        cases hsort
      · intro h
        exact ⟨by simp, h.key, h.value⟩
  | some sort =>
      simp only [checked, unlessFault_succeeds_iff, checked_bind_succeeds_iff,
        checked_pure_succeeds, and_true, exists_and_right, NameRef.checked_succeeds_iff,
        AttributeValue.checked_succeeds_iff, SortKeyTest.checked_succeeds_iff, Option.map_some,
        Option.some.injEq]
      constructor
      · intro h
        rcases h with ⟨hne, hkey, hvalue, hsort, htest⟩
        refine ⟨hkey, hvalue, fun s hs => ?_⟩
        cases hs
        exact ⟨hsort, htest, hne⟩
      · intro h
        rcases h with ⟨hkey, hvalue, hall⟩
        obtain ⟨hsort, htest, hne⟩ := hall sort rfl
        exact ⟨hne, hkey, hvalue, hsort, htest⟩

theorem Projection.checked_succeeds_iff {tree : SourceProjection} :
    (∃ plain, tree.checked = .ok plain) ↔ tree.WellFormed := by
  simp only [checked, unlessFault_succeeds_iff, checked_bind_succeeds_iff, checked_pure_succeeds,
    and_true, checked_mapM_succeeds_iff, NameRef.checked_succeeds_iff, List.isEmpty_iff]
  constructor
  · intro h
    rcases h with ⟨hne, hall⟩
    exact ⟨hne, hall⟩
  · intro h
    exact ⟨h.nonempty, h.names⟩

theorem SetValue.checked_succeeds_iff {value : SetValue NameRef Literal} :
    (∃ plain, value.checked = .ok plain) ↔ value.WellFormed := by
  induction value with
  | operand source =>
      cases source with
      | name ref =>
          simp only [checked, checked_bind_succeeds_iff, checked_pure_succeeds, and_true,
            Operand.checked_succeeds_iff, WellFormed, Operand.WellFormed]
      | value l =>
          simp only [checked, checked_bind_succeeds_iff, checked_pure_succeeds, and_true,
            Operand.checked_succeeds_iff, WellFormed, Operand.WellFormed]
      | size ref => simp [checked, WellFormed]
  | arithmetic op left right hleft hright =>
      simp only [checked, unlessFault_succeeds_iff, checked_bind_succeeds_iff,
        checked_pure_succeeds, and_true, exists_and_right, hleft, hright, WellFormed,
        Bool.or_eq_true, not_or, Bool.not_eq_true, and_assoc]
  | listAppend left right hleft hright =>
      simp only [checked, checked_bind_succeeds_iff, checked_pure_succeeds, and_true,
        exists_and_right, hleft, hright, WellFormed]
  | ifNotExists ref fallback hfallback =>
      simp only [checked, checked_bind_succeeds_iff, checked_pure_succeeds, and_true,
        exists_and_right, NameRef.checked_succeeds_iff, hfallback, WellFormed]

theorem SetValue.checkedAction_succeeds_iff {action : NameRef × SetValue NameRef Literal} :
    (∃ plain, SetValue.checkedAction action = .ok plain) ↔
      action.1.Parsed ∧ action.2.WellFormed := by
  simp only [checkedAction, checked_bind_succeeds_iff, checked_pure_succeeds, and_true,
    exists_and_right, NameRef.checked_succeeds_iff, SetValue.checked_succeeds_iff]

theorem LiteralClause.checkedAction_succeeds_iff {clause : LiteralClause}
    {action : NameRef × Literal} :
    (∃ plain, clause.checkedAction action = .ok plain) ↔
      action.1.Parsed ∧ action.2.WellFormed ∧ clause.accepts action.2.type = true := by
  simp only [checkedAction, unlessFault_succeeds_iff, checked_bind_succeeds_iff,
    checked_pure_succeeds, and_true, exists_and_right, NameRef.checked_succeeds_iff,
    Literal.checked_succeeds_iff, Bool.not_eq_true', Bool.not_eq_false]
  constructor
  · intro h
    rcases h with ⟨haccepts, hpath, hliteral⟩
    exact ⟨hpath, hliteral, haccepts⟩
  · intro h
    rcases h with ⟨hpath, hliteral, haccepts⟩
    exact ⟨haccepts, hpath, hliteral⟩

theorem LiteralClause.accepts_add_iff {type : AttributeType} :
    LiteralClause.add.accepts type = true ↔
      type ∈ [AttributeType.number, .stringSet, .numberSet, .binarySet] := by
  cases type <;> decide

theorem LiteralClause.accepts_delete_iff {type : AttributeType} :
    LiteralClause.delete.accepts type = true ↔
      type ∈ [AttributeType.stringSet, .numberSet, .binarySet] := by
  cases type <;> decide

theorem Update.checked_succeeds_iff {tree : SourceUpdate} :
    (∃ plain, tree.checked = .ok plain) ↔ tree.WellFormed := by
  have hempty : ¬ (tree.isEmpty = true) ↔
      tree.sets ≠ [] ∨ tree.removes ≠ [] ∨ tree.adds ≠ [] ∨ tree.deletes ≠ [] := by
    simp only [isEmpty, Bool.and_eq_true, List.isEmpty_iff]
    grind
  simp only [checked, unlessFault_succeeds_iff, checked_bind_succeeds_iff, checked_pure_succeeds,
    and_true, exists_and_right, checked_mapM_succeeds_iff, NameRef.checked_succeeds_iff,
    SetValue.checkedAction_succeeds_iff, LiteralClause.checkedAction_succeeds_iff, hempty,
    LiteralClause.accepts_add_iff, LiteralClause.accepts_delete_iff]
  constructor
  · intro h
    rcases h with ⟨hne, hsets, hremoves, hadds, hdeletes⟩
    exact ⟨hne, hsets, hremoves, hadds, hdeletes⟩
  · intro h
    exact ⟨h.nonempty, h.sets, h.removes, h.adds, h.deletes⟩

end DynamoExpr
