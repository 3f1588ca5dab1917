import DynamoExpr.Proofs.Value.Equality

/-!
# Members of sets

The members of a set are compared in ascending order.  A list has one ascending rearrangement, so
two sets have the same members, repetitions counted, exactly when they sort to the same list.
-/

namespace DynamoExpr.AttributeValue

variable {α : Type} {le : α → α → Bool}

/-- The comparison leaves no choice in how members are put in order. -/
structure Linear (le : α → α → Bool) : Prop where
  total : ∀ a b, le a b = true ∨ le b a = true
  trans : ∀ {a b c}, le a b = true → le b c = true → le a c = true
  antisymm : ∀ {a b}, le a b = true → le b a = true → a = b

theorem textLe_iff {a b : String} : textLe a b = true ↔ a ≤ b := by
  rw [textLe, Bool.not_eq_true', decide_eq_false_iff_not]
  exact String.not_lt

theorem bytesLe_iff {a b : List UInt8} : bytesLe a b = true ↔ a ≤ b := by
  rw [bytesLe, Bool.not_eq_true', decide_eq_false_iff_not]
  exact List.not_lt

theorem linear_textLe : Linear textLe where
  total a b := by
    rw [textLe_iff, textLe_iff]
    exact String.le_total a b
  trans h k := textLe_iff.2 (String.le_trans (textLe_iff.1 h) (textLe_iff.1 k))
  antisymm h k := String.le_antisymm (textLe_iff.1 h) (textLe_iff.1 k)

theorem linear_bytesLe : Linear bytesLe where
  total a b := by
    rw [bytesLe_iff, bytesLe_iff]
    exact List.le_total a b
  trans h k := bytesLe_iff.2 (List.le_trans (bytesLe_iff.1 h) (bytesLe_iff.1 k))
  antisymm h k := List.le_antisymm (bytesLe_iff.1 h) (bytesLe_iff.1 k)

def Sorted (le : α → α → Bool) (members : List α) : Prop :=
  members.Pairwise fun a b => le a b = true

theorem sorted_insertMember (h : Linear le) (x : α) {members : List α}
    (hmembers : Sorted le members) : Sorted le (insertMember le x members) := by
  induction members with
  | nil => exact List.pairwise_singleton _ x
  | cons y rest ih =>
      obtain ⟨hfirst, hrest⟩ := List.pairwise_cons.1 hmembers
      rw [insertMember]
      by_cases hxy : le x y = true
      · rw [if_pos hxy]
        refine List.pairwise_cons.2 ⟨fun z hz => ?_, hmembers⟩
        rcases List.mem_cons.1 hz with rfl | hz
        · exact hxy
        · exact h.trans hxy (hfirst z hz)
      · rw [if_neg hxy]
        refine List.pairwise_cons.2 ⟨fun z hz => ?_, ih hrest⟩
        rcases List.mem_cons.1 ((insertMember_perm le x rest).mem_iff.1 hz) with rfl | hz
        · exact (h.total z y).resolve_left hxy
        · exact hfirst z hz

theorem sorted_sortMembers (h : Linear le) (members : List α) :
    Sorted le (sortMembers le members) := by
  induction members with
  | nil => exact List.Pairwise.nil
  | cons x rest ih => exact sorted_insertMember h x ih

/-- The sorted list is the only rearrangement of the members that ascends. -/
theorem eq_sortMembers_iff (h : Linear le) {sorted members : List α} :
    sorted = sortMembers le members ↔ sorted.Perm members ∧ Sorted le sorted := by
  constructor
  · intro heq
    rw [heq]
    exact ⟨sortMembers_perm le members, sorted_sortMembers h members⟩
  · intro hsorted
    have hperm := hsorted.1.trans (sortMembers_perm le members).symm
    exact hperm.eq_of_pairwise (fun _ _ _ _ => h.antisymm) hsorted.2 (sorted_sortMembers h members)

theorem sortMembers_eq_iff_perm (h : Linear le) {members others : List α} :
    sortMembers le members = sortMembers le others ↔ members.Perm others := by
  rw [eq_sortMembers_iff h, and_iff_left (sorted_sortMembers h members)]
  exact ⟨(sortMembers_perm le members).symm.trans, (sortMembers_perm le members).trans⟩

end DynamoExpr.AttributeValue
