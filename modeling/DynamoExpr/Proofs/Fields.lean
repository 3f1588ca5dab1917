import DynamoExpr.Json.Basic

/-!
# Fields by name

The field of a name that counts is the last one.  The normal form has exactly these fields, each
once, and taking it commutes with a change of the entries.
-/

namespace DynamoExpr.Fields

variable {α β : Type}

/-- The entry that counts for a name. -/
def last? (name : String) : List (String × α) → Option α
  | [] => none
  | (other, x) :: rest => (last? name rest).or (if other = name then some x else none)

/-- The names ascend, so each stands once. -/
def Ascending (fields : List (String × α)) : Prop := fields.Pairwise fun a b => a.1 < b.1

theorem lt_of_not_lt_of_ne {a b : String} (hlt : ¬ a < b) (hne : a ≠ b) : b < a := by
  apply String.not_le.1
  intro hab
  exact hne (String.le_antisymm hab (String.not_lt.1 hlt))

theorem mem_insert {name : String} {x : α} {field : String × α} :
    ∀ {fields : List (String × α)}, field ∈ insert name x fields →
      field = (name, x) ∨ field ∈ fields
  | [], h => by simpa [insert] using h
  | (other, y) :: rest, h => by
      simp only [insert] at h
      split at h
      · simpa using h
      · split at h
        · rcases List.mem_cons.1 h with rfl | h
          · exact .inl rfl
          · exact .inr (List.mem_cons_of_mem _ h)
        · rcases List.mem_cons.1 h with rfl | h
          · exact .inr List.mem_cons_self
          · exact (mem_insert h).imp_right (List.mem_cons_of_mem _)

theorem ascending_insert (name : String) (x : α) {fields : List (String × α)}
    (h : Ascending fields) : Ascending (insert name x fields) := by
  induction fields with
  | nil => simp [insert, Ascending]
  | cons first rest ih =>
      rcases first with ⟨other, y⟩
      obtain ⟨hfirst, hrest⟩ := List.pairwise_cons.1 h
      simp only [insert]
      split
      case isTrue hlt =>
        refine List.pairwise_cons.2 ⟨?_, h⟩
        intro field hfield
        rcases List.mem_cons.1 hfield with rfl | hfield
        · exact hlt
        · exact String.lt_trans hlt (hfirst field hfield)
      case isFalse hlt =>
        split
        case isTrue heq =>
          subst heq
          exact List.pairwise_cons.2 ⟨hfirst, hrest⟩
        case isFalse hne =>
          refine List.pairwise_cons.2 ⟨?_, ih hrest⟩
          intro field hfield
          rcases mem_insert hfield with rfl | hfield
          · exact lt_of_not_lt_of_ne hlt hne
          · exact hfirst field hfield

theorem last?_eq_none {name : String} {fields : List (String × α)}
    (h : ∀ field ∈ fields, field.1 ≠ name) : last? name fields = none := by
  induction fields with
  | nil => rfl
  | cons first rest ih =>
      have hfirst := h first List.mem_cons_self
      have hrest := ih fun field hfield => h field (List.mem_cons_of_mem _ hfield)
      simp [last?, hfirst, hrest]

theorem mem_of_last? {name : String} {x : α} {fields : List (String × α)}
    (h : last? name fields = some x) : (name, x) ∈ fields := by
  induction fields with
  | nil => simp [last?] at h
  | cons first rest ih =>
      rw [last?, Option.or_eq_some_iff] at h
      rcases h with h | ⟨_, h⟩
      · exact List.mem_cons_of_mem _ (ih h)
      · split at h
        case isTrue heq =>
          cases h
          exact heq ▸ List.mem_cons_self
        case isFalse => cases h

/-- Where the names ascend, the field of a name is the only one of it. -/
theorem mem_iff_last? {fields : List (String × α)} (h : Ascending fields) (name : String) (x : α) :
    (name, x) ∈ fields ↔ last? name fields = some x := by
  induction fields with
  | nil => simp [last?]
  | cons first rest ih =>
      rcases first with ⟨other, y⟩
      obtain ⟨hfirst, hrest⟩ := List.pairwise_cons.1 h
      by_cases hname : other = name
      · subst hname
        have hnone : last? other rest = none := by
          apply last?_eq_none
          intro field hfield heq
          exact String.lt_irrefl other (heq ▸ hfirst field hfield)
        have hnot : (other, x) ∉ rest := by simp [ih hrest, hnone]
        simp [last?, hnone, hnot, eq_comm]
      · have hne : ¬ name = other := fun h => hname h.symm
        simp [last?, hname, hne, ih hrest]

theorem last?_insert (name : String) (x : α) {fields : List (String × α)}
    (h : Ascending fields) (other : String) :
    last? other (insert name x fields) = if name = other then some x else last? other fields := by
  induction fields with
  | nil => simp [insert, last?]
  | cons first rest ih =>
      rcases first with ⟨second, y⟩
      obtain ⟨hfirst, hrest⟩ := List.pairwise_cons.1 h
      simp only [insert]
      split
      case isTrue hlt =>
        by_cases hname : name = other
        · subst hname
          have hnone : last? name ((second, y) :: rest) = none := by
            apply last?_eq_none
            intro field hfield heq
            rcases List.mem_cons.1 hfield with rfl | hfield
            · exact String.lt_irrefl name (heq ▸ hlt)
            · have hafter : name < field.1 := String.lt_trans hlt (hfirst field hfield)
              exact String.lt_irrefl name (heq ▸ hafter)
          rw [last?, hnone]
          simp
        · rw [last?]
          simp [hname]
      case isFalse hlt =>
        split
        case isTrue heq =>
          subst heq
          by_cases hname : name = other
          · subst hname
            have hnone : last? name rest = none := by
              apply last?_eq_none
              intro field hfield heq
              exact String.lt_irrefl name (heq ▸ hfirst field hfield)
            simp [last?, hnone]
          · simp [last?, hname]
        case isFalse hne =>
          by_cases hname : name = other
          · subst hname
            simp [last?, ih hrest]
          · simp [last?, ih hrest, hname]

theorem ascending_foldl_insert (fields : List (String × α)) {sorted : List (String × α)}
    (h : Ascending sorted) :
    Ascending (fields.foldl (fun sorted field => insert field.1 field.2 sorted) sorted) := by
  induction fields generalizing sorted with
  | nil => exact h
  | cons first rest ih => exact ih (ascending_insert first.1 first.2 h)

theorem last?_foldl_insert (fields : List (String × α)) {sorted : List (String × α)}
    (h : Ascending sorted) (name : String) :
    last? name (fields.foldl (fun sorted field => insert field.1 field.2 sorted) sorted) =
      (last? name fields).or (last? name sorted) := by
  induction fields generalizing sorted with
  | nil => simp [last?]
  | cons first rest ih =>
      rcases first with ⟨other, y⟩
      rw [List.foldl_cons, ih (ascending_insert other y h), last?_insert other y h, last?]
      by_cases hname : other = name <;> simp [hname]

theorem ascending_ascending (fields : List (String × α)) : Ascending (ascending fields) :=
  ascending_foldl_insert fields List.Pairwise.nil

theorem last?_ascending (name : String) (fields : List (String × α)) :
    last? name (ascending fields) = last? name fields := by
  rw [ascending, last?_foldl_insert fields List.Pairwise.nil]
  simp [last?]

/-- The normal form has exactly the fields that count. -/
theorem mem_ascending {name : String} {x : α} {fields : List (String × α)} :
    (name, x) ∈ ascending fields ↔ last? name fields = some x := by
  rw [mem_iff_last? (ascending_ascending fields), last?_ascending]

theorem insert_map (f : α → β) (name : String) (x : α) (fields : List (String × α)) :
    insert name (f x) (fields.map fun field => (field.1, f field.2)) =
      (insert name x fields).map fun field => (field.1, f field.2) := by
  induction fields with
  | nil => rfl
  | cons first rest ih =>
      rcases first with ⟨other, y⟩
      simp only [List.map_cons, insert]
      split
      · rfl
      · split
        · rfl
        · simp [ih]

theorem ascending_map (f : α → β) (fields : List (String × α)) :
    ascending (fields.map fun field => (field.1, f field.2)) =
      (ascending fields).map fun field => (field.1, f field.2) := by
  have hfold : ∀ sorted : List (String × α),
      (fields.map fun field => (field.1, f field.2)).foldl
          (fun sorted field => insert field.1 field.2 sorted)
          (sorted.map fun field => (field.1, f field.2)) =
        (fields.foldl (fun sorted field => insert field.1 field.2 sorted) sorted).map
          fun field => (field.1, f field.2) := by
    induction fields with
    | nil => intro sorted; rfl
    | cons first rest ih =>
        intro sorted
        simp only [List.map_cons, List.foldl_cons]
        rw [insert_map, ih]
  exact hfold []

theorem last?_map (f : α → β) (name : String) (fields : List (String × α)) :
    last? name (fields.map fun field => (field.1, f field.2)) = (last? name fields).map f := by
  induction fields with
  | nil => rfl
  | cons first rest ih =>
      rw [List.map_cons, last?, last?, ih]
      by_cases hname : first.1 = name <;> cases last? name rest <;> simp [hname]

/-! ## Normal forms by their entries -/

theorem Ascending.nodup_names {fields : List (String × α)} (h : Ascending fields) :
    (fields.map Prod.fst).Nodup := by
  apply List.pairwise_map.2
  apply h.imp
  intro a b hlt heq
  exact String.lt_irrefl b.1 (heq ▸ hlt)

theorem nodup_of_nodup_names {fields : List (String × α)} (h : (fields.map Prod.fst).Nodup) :
    fields.Nodup := by
  refine List.Pairwise.of_map Prod.fst ?_ h
  intro a b hne heq
  exact hne (congrArg Prod.fst heq)

theorem Ascending.eq_of_last?_eq {fields others : List (String × α)} (h : Ascending fields)
    (k : Ascending others) (hlast : ∀ name, last? name fields = last? name others) :
    fields = others := by
  have hperm : fields.Perm others := by
    rw [List.perm_ext_iff_of_nodup (nodup_of_nodup_names h.nodup_names)
      (nodup_of_nodup_names k.nodup_names)]
    intro field
    rw [mem_iff_last? h, mem_iff_last? k, hlast]
  refine hperm.eq_of_pairwise (fun a b _ _ hab hba => ?_) h k
  exact absurd (String.lt_trans hab hba) (String.lt_irrefl a.1)

/-- Two lists of fields have one normal form when the same entries count. -/
theorem ascending_eq_iff {fields others : List (String × α)} :
    ascending fields = ascending others ↔ ∀ name, last? name fields = last? name others := by
  constructor
  · intro h name
    rw [← last?_ascending name fields, h, last?_ascending]
  · intro h
    refine (ascending_ascending fields).eq_of_last?_eq (ascending_ascending others) fun name => ?_
    rw [last?_ascending, last?_ascending, h]

theorem ascending_eq_self {fields : List (String × α)} (h : Ascending fields) :
    ascending fields = fields :=
  (ascending_ascending fields).eq_of_last?_eq h fun name => last?_ascending name fields

theorem last?_isSome_iff {name : String} {fields : List (String × α)} :
    (last? name fields).isSome = true ↔ name ∈ fields.map Prod.fst := by
  induction fields with
  | nil => simp [last?]
  | cons first rest ih =>
      rw [last?, Option.isSome_or, Bool.or_eq_true, ih, List.map_cons, List.mem_cons, or_comm]
      by_cases h : first.1 = name
      · simp [h]
      · simp [h, Ne.symm h]

/-- Where each name stands once, every field counts. -/
theorem last?_of_mem {fields : List (String × α)} (h : (fields.map Prod.fst).Nodup) {name : String}
    {x : α} (hmem : (name, x) ∈ fields) : last? name fields = some x := by
  induction fields with
  | nil => cases hmem
  | cons first rest ih =>
      obtain ⟨hfirst, hrest⟩ := List.nodup_cons.1 h
      rw [last?]
      cases hmem with
      | head =>
          have hnone : last? name rest = none := by
            rw [← Option.not_isSome_iff_eq_none, last?_isSome_iff]
            exact hfirst
          rw [hnone, if_pos rfl]
          rfl
      | tail _ hmem =>
          rw [ih hrest hmem]
          rfl

theorem mem_of_mem_ascending {field : String × α} {fields : List (String × α)}
    (h : field ∈ ascending fields) : field ∈ fields :=
  mem_of_last? (mem_ascending.1 h)

/-- Where each name stands once, the normal form only puts the fields in order. -/
theorem ascending_perm {fields : List (String × α)} (h : (fields.map Prod.fst).Nodup) :
    (ascending fields).Perm fields := by
  have hnodup := nodup_of_nodup_names (ascending_ascending fields).nodup_names
  rw [List.perm_ext_iff_of_nodup hnodup (nodup_of_nodup_names h)]
  intro field
  constructor
  · exact mem_of_mem_ascending
  · intro hfield
    exact mem_ascending.2 (last?_of_mem h hfield)

/-! ## Equality after a change of the entries -/

theorem map_congr {f g : α → β} {fields : List (String × α)}
    (h : ∀ field ∈ fields, f field.2 = g field.2) :
    (fields.map fun field => (field.1, f field.2)) = fields.map fun field => (field.1, g field.2) :=
  List.map_congr_left fun field hfield => by rw [h field hfield]

theorem map_eq_map_iff {f : α → β} {xs ys : List α} :
    xs.map f = ys.map f ↔
      xs.length = ys.length ∧ ∀ (i : Nat) x y, xs[i]? = some x → ys[i]? = some y → f x = f y := by
  constructor
  · intro h
    refine ⟨by simpa using congrArg List.length h, fun i x y hx hy => ?_⟩
    have hi := congrArg (fun zs => zs[i]?) h
    simpa [hx, hy] using hi
  · intro h
    apply List.ext_getElem (by simpa using h.1)
    intro i hxs hys
    rw [List.length_map] at hxs hys
    rw [List.getElem_map, List.getElem_map]
    exact h.2 i _ _ (List.getElem?_eq_getElem hxs) (List.getElem?_eq_getElem hys)

theorem ascending_map_eq_iff {f : α → β} {fields others : List (String × α)} :
    ascending (fields.map fun field => (field.1, f field.2)) =
        ascending (others.map fun field => (field.1, f field.2)) ↔
      (∀ name, name ∈ fields.map Prod.fst ↔ name ∈ others.map Prod.fst) ∧
        ∀ name x y, last? name fields = some x → last? name others = some y → f x = f y := by
  simp only [ascending_eq_iff, last?_map, ← last?_isSome_iff, ← forall_and]
  refine forall_congr' fun name => ?_
  cases last? name fields with
  | none => cases last? name others <;> simp
  | some x => cases last? name others <;> simp

end DynamoExpr.Fields
