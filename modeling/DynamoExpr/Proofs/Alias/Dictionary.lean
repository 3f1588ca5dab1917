import DynamoExpr.Proofs.Builder.Draft
import DynamoExpr.Proofs.Token.Scan

/-!
# Reading aliases back

The two maps of an expression as a dictionary from alias numbers to names and values.  For each
leaf of a draft it leads back from the number of the leaf to the name, or to an equal value.
-/

namespace DynamoExpr

/-- What the aliases of names and of values stand for, by their numbers. -/
structure Dictionary where
  name? : Nat → Option String
  value? : Nat → Option AttributeValue

def Expression.dictionary (expression : Expression) : Dictionary where
  name? i := expression.names.lookup ("#" ++ toString i)
  value? i := expression.values.lookup (":" ++ toString i)

namespace Dictionary

variable (dictionary : Dictionary)

def path? (path : Path Nat) : Option AttributePath := path.traverse dictionary.name?

def operand? : Operand (Path Nat) Nat → Option PlainOperand
  | .name path => do return .name (← dictionary.path? path)
  | .value literal => do return .value (← dictionary.value? literal)
  | .size path => do return .size (← dictionary.path? path)

/-- The number of the leaf leads back to the name, or to an equal value. -/
def Explains (table : Aliases) : Leaf → Prop
  | .name n => dictionary.name? (table.nameNumber n) = some n
  | .value v => ∃ w, dictionary.value? (table.valueNumber v) = some w ∧ (w == v) = true

variable {dictionary} {table : Aliases}

theorem steps?_map {steps : List (PathStep String)}
    (h : ∀ leaf ∈ steps.flatMap PathStep.leaves, dictionary.Explains table leaf) :
    (steps.map (PathStep.map table.nameNumber)).mapM (PathStep.traverse dictionary.name?) =
      some steps := by
  induction steps with
  | nil => rfl
  | cons step rest ih =>
      rw [List.flatMap_cons, List.forall_mem_append] at h
      rw [List.map_cons, List.mapM_cons, ih h.2]
      rcases step with n | i
      · have hname : dictionary.name? (table.nameNumber n) = some n := h.1 (.name n) (by
          simp [PathStep.leaves])
        simp [PathStep.map, PathStep.traverse, hname]
      · simp [PathStep.map, PathStep.traverse]

theorem path?_numberPath {p : AttributePath}
    (h : ∀ leaf ∈ p.leaves, dictionary.Explains table leaf) :
    dictionary.path? (table.numberPath p) = some p := by
  obtain ⟨hhead, htail⟩ := List.forall_mem_cons.1 h
  have hname : dictionary.name? (table.nameNumber p.head) = some p.head := hhead
  unfold path? Path.traverse Aliases.numberPath Path.map
  rw [hname, steps?_map htail]
  rfl

theorem paths?_numberPath {paths : List AttributePath}
    (h : ∀ leaf ∈ paths.flatMap Path.leaves, dictionary.Explains table leaf) :
    (paths.map table.numberPath).mapM dictionary.path? = some paths := by
  induction paths with
  | nil => rfl
  | cons p rest ih =>
      rw [List.flatMap_cons, List.forall_mem_append] at h
      rw [List.map_cons, List.mapM_cons, path?_numberPath h.1, ih h.2]
      rfl

end Dictionary

/-! ## The dictionary of a draft -/

theorem lookup_mapIdx {α : Type} {key : Nat → String} (hkey : ∀ {i j}, key i = key j → i = j)
    (entries : List α) (i : Nat) :
    (entries.mapIdx fun i x => (key i, x)).lookup (key i) = entries[i]? := by
  induction entries generalizing key i with
  | nil => rfl
  | cons x rest ih =>
      rw [List.mapIdx_cons, List.lookup_cons]
      cases i with
      | zero => simp
      | succ i =>
          have hne : (key (i + 1) == key 0) = false :=
            beq_eq_false_iff_ne.2 fun h => Nat.succ_ne_zero i (hkey h)
          rw [hne]
          exact @ih (fun i => key (i + 1)) (fun h => Nat.succ.inj (hkey h)) i

namespace Expression

theorem dictionary_name? (expression : Expression) (i : Nat) :
    expression.dictionary.name? i = expression.aliases.names[i]? :=
  lookup_mapIdx (@AliasKind.text_injective .name) expression.aliases.names i

theorem dictionary_value? (expression : Expression) (i : Nat) :
    expression.dictionary.value? i = expression.aliases.values[i]? :=
  lookup_mapIdx (@AliasKind.text_injective .value) expression.aliases.values i

end Expression

namespace Draft

theorem holds_name {draft : Draft} {n : String} (h : .name n ∈ draft.leaves) :
    Lane.Holds n draft.aliases.names := Aliases.has_enterAll h {}

theorem holds_value {draft : Draft} {v : AttributeValue} (h : .value v ∈ draft.leaves) :
    Lane.Holds v draft.aliases.values := Aliases.has_enterAll h {}

theorem explains (draft : Draft) :
    ∀ leaf ∈ draft.leaves, draft.expression.dictionary.Explains draft.aliases leaf := by
  intro leaf hleaf
  cases leaf with
  | name n =>
      obtain ⟨m, hget, heq⟩ := Lane.getElem?_place (holds_name hleaf)
      rw [beq_iff_eq] at heq
      subst heq
      exact (draft.expression.dictionary_name? _).trans hget
  | value v =>
      obtain ⟨w, hget, heq⟩ := Lane.getElem?_place (holds_value hleaf)
      exact ⟨w, (draft.expression.dictionary_value? _).trans hget, heq⟩

end Draft

theorem lookup_beq {entries others : List (String × AttributeValue)}
    (h : (entries == others) = true) {key : String} {v : AttributeValue}
    (hv : entries.lookup key = some v) :
    ∃ w, others.lookup key = some w ∧ (w == v) = true := by
  induction entries generalizing others with
  | nil => cases hv
  | cons entry rest ih =>
      cases others with
      | nil => cases h
      | cons other more =>
          rcases entry with ⟨k, x⟩
          rcases other with ⟨l, y⟩
          change ((k == l && x == y) && rest == more) = true at h
          simp only [Bool.and_eq_true, beq_iff_eq] at h
          rcases h with ⟨⟨rfl, hxy⟩, hrest⟩
          rw [List.lookup_cons] at hv ⊢
          cases hk : key == k with
          | true =>
              rw [hk] at hv
              cases hv
              exact ⟨y, rfl, BEq.symm hxy⟩
          | false =>
              rw [hk] at hv
              exact ih hrest hv

/-- Maps that equal those of the draft explain its leaves as well. -/
theorem Draft.explains_of_equal {draft : Draft} {expression : Expression}
    (hnames : draft.expression.names = expression.names)
    (hvalues : (draft.expression.values == expression.values) = true) :
    ∀ leaf ∈ draft.leaves, expression.dictionary.Explains draft.aliases leaf := by
  intro leaf hleaf
  have hexplains := draft.explains leaf hleaf
  cases leaf with
  | name n =>
      simp only [Dictionary.Explains, Expression.dictionary] at hexplains ⊢
      rw [← hnames]
      exact hexplains
  | value v =>
      rcases hexplains with ⟨w, hget, heq⟩
      obtain ⟨u, hlookup, huw⟩ := lookup_beq hvalues hget
      exact ⟨u, hlookup, BEq.trans huw heq⟩

end DynamoExpr
