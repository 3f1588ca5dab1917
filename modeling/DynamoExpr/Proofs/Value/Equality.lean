import DynamoExpr.Proofs.Fields
import DynamoExpr.Value.Equality

/-!
# Equality of attribute values

Two values are equal exactly when their canonical forms are the same value, so equality is an
equivalence.  Taking the canonical form only reorders the members of a set.
-/

namespace DynamoExpr.AttributeValue

/-- Induction over a value, the hypothesis for a list or a map being about each of its parts. -/
@[elab_as_elim]
theorem induction {motive : AttributeValue → Prop}
    (string : ∀ text, motive (.string text)) (number : ∀ text, motive (.number text))
    (binary : ∀ bytes, motive (.binary bytes))
    (stringSet : ∀ members, motive (.stringSet members))
    (numberSet : ∀ members, motive (.numberSet members))
    (binarySet : ∀ members, motive (.binarySet members))
    (boolean : ∀ value, motive (.boolean value)) (null : ∀ value, motive (.null value))
    (list : ∀ items, (∀ item ∈ items, motive item) → motive (.list items))
    (map : ∀ fields, (∀ field ∈ fields, motive field.2) → motive (.map fields))
    (value : AttributeValue) : motive value := by
  refine @AttributeValue.rec motive (fun items => ∀ item ∈ items, motive item)
    (fun fields => ∀ field ∈ fields, motive field.2) (fun field => motive field.2)
    string number binary stringSet numberSet binarySet boolean null list map ?_ ?_ ?_ ?_ ?_ value
  · simp
  · intro first rest hfirst hrest
    exact List.forall_mem_cons.2 ⟨hfirst, hrest⟩
  · simp
  · intro first rest hfirst hrest
    exact List.forall_mem_cons.2 ⟨hfirst, hrest⟩
  · intro name first hfirst
    exact hfirst

mutual

theorem eq_of_same : ∀ {a b : AttributeValue}, a.same b = true → a = b
  | a, b, h => by
      cases a <;> cases b <;> simp only [same, Bool.false_eq_true, beq_iff_eq] at h
      case list.list => rw [eq_of_sameItems h]
      case map.map => rw [eq_of_sameFields h]
      all_goals rw [h]

theorem eq_of_sameItems : ∀ {as bs : List AttributeValue}, sameItems as bs = true → as = bs
  | [], [], _ => rfl
  | [], _ :: _, h => by simp [sameItems] at h
  | _ :: _, [], h => by simp [sameItems] at h
  | a :: as, b :: bs, h => by
      simp only [sameItems, Bool.and_eq_true] at h
      rw [eq_of_same h.1, eq_of_sameItems h.2]

theorem eq_of_sameFields :
    ∀ {as bs : List (String × AttributeValue)}, sameFields as bs = true → as = bs
  | [], [], _ => rfl
  | [], _ :: _, h => by simp [sameFields] at h
  | _ :: _, [], h => by simp [sameFields] at h
  | (name, a) :: as, (other, b) :: bs, h => by
      simp only [sameFields, Bool.and_eq_true, beq_iff_eq] at h
      rw [h.1.1, eq_of_same h.1.2, eq_of_sameFields h.2]

end

mutual

theorem same_refl : ∀ a : AttributeValue, a.same a = true
  | .string _ | .number _ | .binary _ | .stringSet _ | .numberSet _ | .binarySet _
  | .boolean _ | .null _ => by simp [same]
  | .list items => by simp [same, sameItems_refl items]
  | .map fields => by simp [same, sameFields_refl fields]

theorem sameItems_refl : ∀ items : List AttributeValue, sameItems items items = true
  | [] => rfl
  | a :: rest => by simp [sameItems, same_refl a, sameItems_refl rest]

theorem sameFields_refl :
    ∀ fields : List (String × AttributeValue), sameFields fields fields = true
  | [] => rfl
  | (_, a) :: rest => by simp [sameFields, same_refl a, sameFields_refl rest]

end

theorem same_iff_eq {a b : AttributeValue} : a.same b = true ↔ a = b :=
  ⟨eq_of_same, fun h => h ▸ same_refl a⟩

theorem beq_iff_canonical_eq {a b : AttributeValue} :
    (a == b) = true ↔ a.canonical = b.canonical :=
  same_iff_eq

instance : EquivBEq AttributeValue where
  rfl := beq_iff_canonical_eq.2 rfl
  symm h := beq_iff_canonical_eq.2 (beq_iff_canonical_eq.1 h).symm
  trans h k := beq_iff_canonical_eq.2 ((beq_iff_canonical_eq.1 h).trans (beq_iff_canonical_eq.1 k))

theorem canonicalItems_eq_map (items : List AttributeValue) :
    canonicalItems items = items.map canonical := by
  induction items with
  | nil => rfl
  | cons item rest ih => rw [canonicalItems, ih, List.map_cons]

theorem canonicalFields_eq_map (fields : List (String × AttributeValue)) :
    canonicalFields fields = fields.map fun field => (field.1, field.2.canonical) := by
  induction fields with
  | nil => rfl
  | cons field rest ih => rw [canonicalFields, ih, List.map_cons]

/-! ## Sorted members -/

variable {α : Type} (le : α → α → Bool)

theorem insertMember_perm (x : α) (members : List α) :
    (insertMember le x members).Perm (x :: members) := by
  induction members with
  | nil => exact List.Perm.refl _
  | cons y rest ih =>
      simp only [insertMember]
      split
      · exact List.Perm.refl _
      · exact (ih.cons y).trans (List.Perm.swap x y rest)

theorem sortMembers_perm (members : List α) : (sortMembers le members).Perm members := by
  induction members with
  | nil => exact List.Perm.refl _
  | cons x rest ih => exact (insertMember_perm le x _).trans (ih.cons x)

end DynamoExpr.AttributeValue
