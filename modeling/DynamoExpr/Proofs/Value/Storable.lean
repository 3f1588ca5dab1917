import DynamoExpr.Proofs.Value.Equality
import DynamoExpr.Value.Storable

/-!
# Storable values

What can be stored, said without the check: every number is finite, every set has members and none
twice, and the null value is true, at every depth.  The check accepts exactly these values, and
equal values are storable together.
-/

namespace DynamoExpr.AttributeValue

/-- The value can be stored.  Of a map the entries that count are looked at. -/
inductive Storable : AttributeValue → Prop
  | string (text : String) : Storable (.string text)
  | number {text : String} (finite : isFiniteNumber text = true) : Storable (.number text)
  | binary (bytes : List UInt8) : Storable (.binary bytes)
  | stringSet {members : List String} (inhabited : members ≠ []) (distinct : members.Nodup) :
      Storable (.stringSet members)
  | numberSet {members : List String} (inhabited : members ≠ []) (distinct : members.Nodup)
      (finite : ∀ member ∈ members, isFiniteNumber member = true) : Storable (.numberSet members)
  | binarySet {members : List (List UInt8)} (inhabited : members ≠ [])
      (distinct : members.Nodup) : Storable (.binarySet members)
  | boolean (value : Bool) : Storable (.boolean value)
  | null : Storable (.null true)
  | list {items : List AttributeValue} (all : ∀ item ∈ items, Storable item) :
      Storable (.list items)
  | map {fields : List (String × AttributeValue)}
      (all : ∀ name value, Fields.last? name fields = some value → Storable value) :
      Storable (.map fields)

theorem storable_number {text : String} :
    Storable (.number text) ↔ isFiniteNumber text = true :=
  ⟨fun | .number h => h, .number⟩

theorem storable_stringSet {members : List String} :
    Storable (.stringSet members) ↔ members ≠ [] ∧ members.Nodup :=
  ⟨fun | .stringSet h k => ⟨h, k⟩, fun h => .stringSet h.1 h.2⟩

theorem storable_numberSet {members : List String} :
    Storable (.numberSet members) ↔
      (members ≠ [] ∧ members.Nodup) ∧ ∀ member ∈ members, isFiniteNumber member = true :=
  ⟨fun | .numberSet h k l => ⟨⟨h, k⟩, l⟩, fun h => .numberSet h.1.1 h.1.2 h.2⟩

theorem storable_binarySet {members : List (List UInt8)} :
    Storable (.binarySet members) ↔ members ≠ [] ∧ members.Nodup :=
  ⟨fun | .binarySet h k => ⟨h, k⟩, fun h => .binarySet h.1 h.2⟩

theorem storable_null {value : Bool} : Storable (.null value) ↔ value = true :=
  ⟨fun | .null => rfl, fun h => h ▸ .null⟩

theorem storable_list {items : List AttributeValue} :
    Storable (.list items) ↔ ∀ item ∈ items, Storable item :=
  ⟨fun | .list h => h, .list⟩

theorem storable_map {fields : List (String × AttributeValue)} :
    Storable (.map fields) ↔
      ∀ name value, Fields.last? name fields = some value → Storable value :=
  ⟨fun | .map h => h, .map⟩

/-! ## The check -/

theorem checkNumber_eq_ok_iff {text : String} :
    checkNumber text = .ok () ↔ isFiniteNumber text = true := by
  unfold checkNumber
  split <;> simp_all

theorem checkSet_eq_ok_iff {α : Type} [DecidableEq α] {type : AttributeType} {members : List α} :
    checkSet type members = .ok () ↔ members ≠ [] ∧ members.Nodup := by
  unfold checkSet
  split
  · simp_all
  · split <;> simp_all

theorem forM_eq_ok_iff {α ε : Type} {f : α → Except ε Unit} {xs : List α} :
    forM xs f = .ok () ↔ ∀ x ∈ xs, f x = .ok () := by
  induction xs with
  | nil => simp [pure, Except.pure]
  | cons x rest ih =>
      rw [List.forM_cons]
      cases hx : f x with
      | error e => simp [bind, Except.bind, hx]
      | ok u => simpa [bind, Except.bind, hx] using ih

theorem checkFields_eq_map (fields : List (String × AttributeValue)) :
    checkFields fields = fields.map fun field => (field.1, field.2.check) := by
  induction fields with
  | nil => rfl
  | cons field rest ih => rw [checkFields, ih, List.map_cons]

theorem checkItems_eq_ok_iff {items : List AttributeValue} :
    checkItems items = .ok () ↔ ∀ item ∈ items, item.check = .ok () := by
  induction items with
  | nil => simp [checkItems]
  | cons item rest ih =>
      rw [checkItems]
      cases hitem : item.check with
      | error e => simp [bind, Except.bind, hitem]
      | ok u => simpa [bind, Except.bind, hitem] using ih

theorem check_map_eq_ok_iff {fields : List (String × AttributeValue)} :
    (AttributeValue.map fields).check = .ok () ↔
      ∀ name value, Fields.last? name fields = some value → value.check = .ok () := by
  rw [check, checkFields_eq_map, Fields.ascending_map, List.forM_eq_forM, forM_eq_ok_iff]
  simp only [List.forall_mem_map, Prod.forall, Fields.mem_ascending]

/-- The check accepts exactly what can be stored. -/
theorem check_eq_ok_iff {value : AttributeValue} : value.check = .ok () ↔ value.Storable := by
  induction value using AttributeValue.induction with
  | string text => simp [check, Storable.string]
  | number text => rw [check, checkNumber_eq_ok_iff, storable_number]
  | binary bytes => simp [check, Storable.binary]
  | stringSet members => rw [check, checkSet_eq_ok_iff, storable_stringSet]
  | numberSet members =>
      rw [check, storable_numberSet, ← @checkSet_eq_ok_iff _ _ .numberSet members]
      cases hset : checkSet .numberSet members with
      | error e => simp [bind, Except.bind]
      | ok u => simp [bind, Except.bind, forM_eq_ok_iff, checkNumber_eq_ok_iff]
  | binarySet members => rw [check, checkSet_eq_ok_iff, storable_binarySet]
  | boolean value => simp [check, Storable.boolean]
  | null value => cases value <;> simp [check, storable_null]
  | list items ih =>
      rw [check, checkItems_eq_ok_iff, storable_list]
      exact forall₂_congr ih
  | map fields ih =>
      rw [check_map_eq_ok_iff, storable_map]
      refine forall₂_congr fun name value => imp_congr_right fun hlast => ?_
      exact ih (name, value) (Fields.mem_of_last? hlast)

/-! ## Equal values are storable together -/

theorem sortMembers_ne_nil {α : Type} {le : α → α → Bool} {members : List α} :
    sortMembers le members ≠ [] ↔ members ≠ [] := by
  rw [← List.length_pos_iff, (sortMembers_perm le members).length_eq, List.length_pos_iff]

theorem last?_canonicalFields (name : String) (fields : List (String × AttributeValue)) :
    Fields.last? name (Fields.ascending (canonicalFields fields)) =
      (Fields.last? name fields).map canonical := by
  rw [Fields.last?_ascending, canonicalFields_eq_map, Fields.last?_map]

theorem storable_canonical_iff {value : AttributeValue} :
    value.canonical.Storable ↔ value.Storable := by
  induction value using AttributeValue.induction with
  | string text => rfl
  | number text => rfl
  | binary bytes => rfl
  | stringSet members =>
      rw [canonical, storable_stringSet, storable_stringSet, sortMembers_ne_nil,
        (sortMembers_perm textLe members).nodup_iff]
  | numberSet members =>
      have hperm := sortMembers_perm textLe members
      rw [canonical, storable_numberSet, storable_numberSet, sortMembers_ne_nil, hperm.nodup_iff]
      simp only [hperm.mem_iff]
  | binarySet members =>
      rw [canonical, storable_binarySet, storable_binarySet, sortMembers_ne_nil,
        (sortMembers_perm bytesLe members).nodup_iff]
  | boolean value => rfl
  | null value => rfl
  | list items ih =>
      rw [canonical, canonicalItems_eq_map, storable_list, storable_list, List.forall_mem_map]
      exact forall₂_congr ih
  | map fields ih =>
      simp only [canonical, storable_map, last?_canonicalFields, Option.map_eq_some_iff,
        forall_exists_index, and_imp, forall_apply_eq_imp_iff₂]
      refine forall₂_congr fun name value => imp_congr_right fun hlast => ?_
      exact ih (name, value) (Fields.mem_of_last? hlast)

theorem storable_congr {a b : AttributeValue} (h : (a == b) = true) :
    a.Storable ↔ b.Storable := by
  rw [← storable_canonical_iff, beq_iff_canonical_eq.1 h, storable_canonical_iff]

end DynamoExpr.AttributeValue
