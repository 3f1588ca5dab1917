import DynamoExpr.Proofs.Base64
import DynamoExpr.Proofs.Json.Unordered
import DynamoExpr.Proofs.Value.Equality
import DynamoExpr.Value.Wire

/-!
# Values taken literally

Two values agree when they have the same parts, lists and sets in the order given and maps as
finite maps.  This is finer than equality, which leaves the order of set members out, and it is
what the wire form keeps: the wire forms are the same for exactly the values that agree.
-/

namespace DynamoExpr.AttributeValue

/-- The same value where maps are finite maps and the members of a set are a list. -/
inductive Agrees : AttributeValue → AttributeValue → Prop
  | string (text : String) : Agrees (.string text) (.string text)
  | number (text : String) : Agrees (.number text) (.number text)
  | binary (bytes : List UInt8) : Agrees (.binary bytes) (.binary bytes)
  | stringSet (members : List String) : Agrees (.stringSet members) (.stringSet members)
  | numberSet (members : List String) : Agrees (.numberSet members) (.numberSet members)
  | binarySet (members : List (List UInt8)) : Agrees (.binarySet members) (.binarySet members)
  | boolean (value : Bool) : Agrees (.boolean value) (.boolean value)
  | null (value : Bool) : Agrees (.null value) (.null value)
  | list {items others : List AttributeValue} (length : items.length = others.length)
      (each : ∀ (i : Nat) x y, items[i]? = some x → others[i]? = some y → Agrees x y) :
      Agrees (.list items) (.list others)
  | map {fields others : List (String × AttributeValue)}
      (names : ∀ name, name ∈ fields.map Prod.fst ↔ name ∈ others.map Prod.fst)
      (each : ∀ name x y, Fields.last? name fields = some x → Fields.last? name others = some y →
        Agrees x y) :
      Agrees (.map fields) (.map others)

theorem itemsToJson_eq_map (items : List AttributeValue) :
    itemsToJson items = items.map toJson := by
  induction items with
  | nil => rfl
  | cons item rest ih => rw [itemsToJson, ih, List.map_cons]

theorem fieldsToJson_eq_map (fields : List (String × AttributeValue)) :
    fieldsToJson fields = fields.map fun field => (field.1, field.2.toJson) := by
  induction fields with
  | nil => rfl
  | cons field rest ih => rw [fieldsToJson, ih, List.map_cons]

theorem toJson_list (items : List AttributeValue) :
    (AttributeValue.list items).toJson = .obj [("L", .arr (items.map toJson))] := by
  rw [toJson, itemsToJson_eq_map]

theorem toJson_map (fields : List (String × AttributeValue)) :
    (AttributeValue.map fields).toJson =
      .obj [("M", .obj (Fields.ascending (fields.map fun field => (field.1, field.2.toJson))))] := by
  rw [toJson, fieldsToJson_eq_map]

/-- A wire form has one member, which is named by the type. -/
theorem exists_toJson_eq (v : AttributeValue) :
    ∃ payload, v.toJson = .obj [(v.type.key, payload)] := by
  cases v <;> exact ⟨_, rfl⟩

theorem type_key_injective {a b : AttributeType} (h : a.key = b.key) : a = b := by
  cases a <;> cases b <;> first | rfl | exact absurd h (by decide)

theorem type_eq_of_toJson_eq {v w : AttributeValue} (h : v.toJson = w.toJson) :
    v.type = w.type := by
  obtain ⟨payload, hv⟩ := exists_toJson_eq v
  obtain ⟨other, hw⟩ := exists_toJson_eq w
  rw [hv, hw] at h
  simp only [Json.obj.injEq, List.cons.injEq, Prod.mk.injEq] at h
  exact type_key_injective h.1.1

theorem toJson_eq_of_agrees {v w : AttributeValue} (h : v.Agrees w) : v.toJson = w.toJson := by
  induction h with
  | string text | number text | binary bytes | stringSet members | numberSet members
  | binarySet members | boolean value | null value => rfl
  | list length each ih =>
      have hitems := Fields.map_eq_map_iff.2 ⟨length, ih⟩
      rw [toJson_list, toJson_list, hitems]
  | map names each ih =>
      have hfields := Fields.ascending_map_eq_iff.2 ⟨names, ih⟩
      rw [toJson_map, toJson_map, hfields]

theorem payload_eq {key : String} {payload other : Json}
    (h : Json.obj [(key, payload)] = .obj [(key, other)]) : payload = other := by
  cases h
  rfl

theorem strs_injective : Function.Injective (List.map Json.str) :=
  List.map_injective_iff.2 fun _ _ => Json.str.inj

theorem agrees_of_toJson_eq {v w : AttributeValue} (h : v.toJson = w.toJson) : v.Agrees w := by
  induction v using AttributeValue.induction generalizing w with
  | string text =>
      cases w <;> cases type_eq_of_toJson_eq h
      cases payload_eq h
      exact .string text
  | number text =>
      cases w <;> cases type_eq_of_toJson_eq h
      cases payload_eq h
      exact .number text
  | binary bytes =>
      cases w <;> cases type_eq_of_toJson_eq h
      cases Base64.encode_injective (Json.str.inj (payload_eq h))
      exact .binary bytes
  | stringSet members =>
      cases w <;> cases type_eq_of_toJson_eq h
      cases strs_injective (Json.arr.inj (payload_eq h))
      exact .stringSet members
  | numberSet members =>
      cases w <;> cases type_eq_of_toJson_eq h
      cases strs_injective (Json.arr.inj (payload_eq h))
      exact .numberSet members
  | binarySet members =>
      cases w <;> cases type_eq_of_toJson_eq h
      have hencode : Function.Injective fun bytes => Json.str (Base64.encode bytes) :=
        fun _ _ heq => Base64.encode_injective (Json.str.inj heq)
      cases List.map_injective_iff.2 hencode (Json.arr.inj (payload_eq h))
      exact .binarySet members
  | boolean value =>
      cases w <;> cases type_eq_of_toJson_eq h
      cases payload_eq h
      exact .boolean value
  | null value =>
      cases w <;> cases type_eq_of_toJson_eq h
      cases payload_eq h
      exact .null value
  | list items ih =>
      cases w <;> cases type_eq_of_toJson_eq h
      rw [toJson_list, toJson_list] at h
      obtain ⟨hlength, heach⟩ := Fields.map_eq_map_iff.1 (Json.arr.inj (payload_eq h))
      refine .list hlength fun i x y hx hy => ?_
      exact ih x (List.mem_of_getElem? hx) (heach i x y hx hy)
  | map fields ih =>
      cases w <;> cases type_eq_of_toJson_eq h
      rw [toJson_map, toJson_map] at h
      obtain ⟨hnames, heach⟩ := Fields.ascending_map_eq_iff.1 (Json.obj.inj (payload_eq h))
      refine .map hnames fun name x y hx hy => ?_
      exact ih (name, x) (Fields.mem_of_last? hx) (heach name x y hx hy)

theorem toJson_eq_iff_agrees {v w : AttributeValue} : v.toJson = w.toJson ↔ v.Agrees w :=
  ⟨agrees_of_toJson_eq, toJson_eq_of_agrees⟩

/-! ## The wire form as a JSON value -/

theorem ascending_obj_singleton (key : String) (payload : Json) :
    (Json.obj [(key, payload)]).ascending = .obj [(key, payload.ascending)] :=
  rfl

theorem map_ascending_eq_self {items : List Json} (h : ∀ item ∈ items, item.ascending = item) :
    Json.ascending (.arr items) = .arr items := by
  rw [Json.ascending, Json.ascendingItems_eq_map, List.map_congr_left h, List.map_id']

/-- A wire form has the members of all its objects in order. -/
theorem ascending_toJson (v : AttributeValue) : v.toJson.ascending = v.toJson := by
  induction v using AttributeValue.induction with
  | string text | number text | binary bytes | boolean value | null value => rfl
  | stringSet members | numberSet members | binarySet members =>
      rw [toJson, ascending_obj_singleton, map_ascending_eq_self]
      simp [Json.ascending]
  | list items ih =>
      rw [toJson_list, ascending_obj_singleton, map_ascending_eq_self]
      simpa using ih
  | map fields ih =>
      have hfields := @Fields.map_congr _ _ (fun v => v.toJson.ascending) toJson fields ih
      rw [toJson_map, ascending_obj_singleton, Json.ascending, Json.ascendingMembers_eq_map,
        ← Fields.ascending_map, List.map_map, Fields.ascending_eq_self (Fields.ascending_ascending _)]
      exact congrArg (fun parts => Json.obj [("M", .obj (Fields.ascending parts))]) hfields

theorem distinct_obj_singleton {key : String} {payload : Json} (h : payload.Distinct) :
    (Json.obj [(key, payload)]).Distinct :=
  .obj (by simp) (by simpa using h)

/-- A wire form has no repeated members. -/
theorem distinct_toJson (v : AttributeValue) : v.toJson.Distinct := by
  induction v using AttributeValue.induction with
  | string text | number text | binary bytes => exact distinct_obj_singleton (.str _)
  | boolean value | null value => exact distinct_obj_singleton (.bool _)
  | stringSet members | numberSet members | binarySet members =>
      refine distinct_obj_singleton (.arr fun item hitem => ?_)
      obtain ⟨member, -, rfl⟩ := List.mem_map.1 hitem
      exact .str _
  | list items ih =>
      rw [toJson_list]
      refine distinct_obj_singleton (.arr fun item hitem => ?_)
      obtain ⟨member, hmember, rfl⟩ := List.mem_map.1 hitem
      exact ih member hmember
  | map fields ih =>
      rw [toJson_map]
      refine distinct_obj_singleton (.obj ?_ fun member hmember => ?_)
      · exact (Fields.ascending_ascending _).nodup_names
      · rw [Fields.ascending_map] at hmember
        obtain ⟨field, hfield, rfl⟩ := List.mem_map.1 hmember
        exact ih field (Fields.mem_of_mem_ascending hfield)

end DynamoExpr.AttributeValue
