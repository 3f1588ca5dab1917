import DynamoExpr.Data
import DynamoExpr.Proofs.Data.Obstacles
import DynamoExpr.Proofs.Value.Number

/-!
# Convertible data

Which data converts, said of its parts: nothing is an obstacle, whole numbers outside keys have 64
bits, and what stands as a key is of a kind that has a key text.  A number that is not finite is
reported before anything is converted.
-/

namespace DynamoExpr.Data

open AttributeValue (IsWord)

/-- Data of a kind that can be a key: what JSON writes as one word, and no null. -/
inductive IsKey : Data → Prop
  | bool (value : Bool) : IsKey (.bool value)
  | int (value : Int) : IsKey (.int value)
  | single (value : Numeral.Binary) : IsKey (.single value)
  | double (value : Numeral.Binary) : IsKey (.double value)
  | text (value : String) : IsKey (.text value)
  | tag (name : String) : IsKey (.tag name)
  | wrapped {inner : Data} (h : IsKey inner) : IsKey (.wrapped inner)
  | jsonText (value : String) : IsKey (.json (.str value))
  | jsonBool (value : Bool) : IsKey (.json (.bool value))
  | jsonNumber (value : JsonNumber) : IsKey (.json (.num value))

structure Convertible (data : Data) : Prop where
  /-- All numbers are finite, those in keys included. -/
  finite : ∀ place number,
    (place, .single number) ∈ parts .value data ∨ (place, .double number) ∈ parts .value data →
      number.isFinite = true
  /-- All data can be had, that in keys included. -/
  available : ∀ place reason, (place, .failing reason) ∉ parts .value data
  /-- Whole numbers have 64 bits, except in keys. -/
  range : ∀ value, (.value, .int value) ∈ parts .value data → IsWord value
  /-- Every key has a text. -/
  keys : ∀ entries, (.value, .map entries) ∈ parts .value data → ∀ entry ∈ entries, IsKey entry.1

/-! ## Outcomes of lists -/

theorem checkItems_eq_ok_iff {items : List Data} :
    checkItems items = .ok () ↔ ∀ item ∈ items, checkFinite item = .ok () := by
  induction items with
  | nil => simp [checkItems]
  | cons item rest ih => rw [checkItems, then_eq_ok_iff, ih, List.forall_mem_cons]

theorem checkEntries_eq_ok_iff {entries : List (Data × Data)} :
    checkEntries entries = .ok () ↔
      ∀ entry ∈ entries, checkFinite entry.1 = .ok () ∧ checkFinite entry.2 = .ok () := by
  induction entries with
  | nil => simp [checkEntries]
  | cons entry rest ih =>
      rw [checkEntries, then_eq_ok_iff, then_eq_ok_iff, ih, List.forall_mem_cons, and_assoc]

theorem checkFields_eq_ok_iff {fields : List (String × Data)} :
    checkFields fields = .ok () ↔ ∀ field ∈ fields, checkFinite field.2 = .ok () := by
  induction fields with
  | nil => simp [checkFields]
  | cons field rest ih =>
      rw [checkFields, then_eq_ok_iff, ih, List.forall_mem_cons]

theorem itemsToJson_eq_mapM (items : List Data) : itemsToJson items = items.mapM toJson := by
  induction items with
  | nil => rfl
  | cons item rest ih =>
      rw [itemsToJson, List.mapM_cons, ih]
      rfl

def entryToJson (entry : Data × Data) : Except DataFault (String × Json) := do
  let name ← keyText entry.1
  let payload ← toJson entry.2
  return (name, payload)

def fieldToJson (field : String × Data) : Except DataFault (String × Json) := do
  let payload ← toJson field.2
  return (field.1, payload)

theorem entriesToJson_eq_mapM (entries : List (Data × Data)) :
    entriesToJson entries = entries.mapM entryToJson := by
  induction entries with
  | nil => rfl
  | cons entry rest ih =>
      rw [entriesToJson, List.mapM_cons, entryToJson, ih]
      simp only [bind_assoc, pure_bind]
      rfl

theorem fieldsToJson_eq_mapM (fields : List (String × Data)) :
    fieldsToJson fields = fields.mapM fieldToJson := by
  induction fields with
  | nil => rfl
  | cons field rest ih =>
      rw [fieldsToJson, List.mapM_cons, fieldToJson, ih]
      simp only [bind_assoc, pure_bind]
      rfl

theorem entryToJson_eq_ok_iff {entry : Data × Data} {member : String × Json} :
    entryToJson entry = .ok member ↔
      keyText entry.1 = .ok member.1 ∧ toJson entry.2 = .ok member.2 := by
  simp only [entryToJson, bind_eq_ok_iff, pure_eq_ok_iff]
  constructor
  · rintro ⟨name, hname, payload, hpayload, rfl⟩
    exact ⟨hname, hpayload⟩
  · rintro ⟨hname, hpayload⟩
    exact ⟨_, hname, _, hpayload, rfl⟩

theorem fieldToJson_eq_ok_iff {field : String × Data} {member : String × Json} :
    fieldToJson field = .ok member ↔ field.1 = member.1 ∧ toJson field.2 = .ok member.2 := by
  simp only [fieldToJson, bind_eq_ok_iff, pure_eq_ok_iff]
  constructor
  · rintro ⟨payload, hpayload, rfl⟩
    exact ⟨rfl, hpayload⟩
  · rintro ⟨hname, hpayload⟩
    exact ⟨_, hpayload, Prod.ext hname rfl⟩

theorem exists_entryToJson_iff {entry : Data × Data} :
    (∃ member, entryToJson entry = .ok member) ↔
      (∃ name, keyText entry.1 = .ok name) ∧ ∃ payload, toJson entry.2 = .ok payload := by
  simp only [entryToJson_eq_ok_iff, Prod.exists, exists_and_left, exists_and_right]

theorem exists_fieldToJson_iff {field : String × Data} :
    (∃ member, fieldToJson field = .ok member) ↔ ∃ payload, toJson field.2 = .ok payload := by
  simp only [fieldToJson_eq_ok_iff, Prod.exists, exists_and_left, exists_eq_left']

theorem toJson_of_isWord {value : Int} (h : IsWord value) :
    toJson (.int value) = .ok (.num (.int value)) := if_pos h

/-! ## Success -/

theorem toValue_eq_ok_iff {data : Data} {v : AttributeValue} :
    data.toValue = .ok v ↔
      data.checkFinite = .ok () ∧ ∃ json, data.toJson = .ok json ∧ .ofJson json = v := by
  rw [toValue, then_eq_ok_iff, bind_eq_ok_iff]
  simp only [Except.ok.injEq]

theorem isFinite_of_finiteNumber {number : Numeral.Binary} (h : finiteNumber number = .ok ()) :
    number.isFinite = true := by
  rw [finiteNumber] at h
  split at h
  case isTrue hfinite => exact hfinite
  case isFalse => cases h

/-- Of finite data just what is of a key's kind has a key text. -/
theorem exists_keyText_iff {data : Data} (h : checkFinite data = .ok ()) :
    (∃ name, keyText data = .ok name) ↔ IsKey data := by
  induction data using Data.induction with
  | bool value => exact ⟨fun _ => .bool value, fun _ => ⟨_, rfl⟩⟩
  | int value => exact ⟨fun _ => .int value, fun _ => ⟨_, rfl⟩⟩
  | single value =>
      refine ⟨fun _ => .single value, fun _ => ?_⟩
      rw [keyText, floatKey, if_pos (isFinite_of_finiteNumber h)]
      exact ⟨_, rfl⟩
  | double value =>
      refine ⟨fun _ => .double value, fun _ => ?_⟩
      rw [keyText, floatKey, if_pos (isFinite_of_finiteNumber h)]
      exact ⟨_, rfl⟩
  | text value => exact ⟨fun _ => .text value, fun _ => ⟨_, rfl⟩⟩
  | tag name => exact ⟨fun _ => .tag name, fun _ => ⟨_, rfl⟩⟩
  | wrapped inner ih =>
      rw [keyText, ih h]
      exact ⟨.wrapped, fun | .wrapped hinner => hinner⟩
  | json value =>
      rw [keyText]
      cases value with
      | str name => exact ⟨fun _ => .jsonText name, fun _ => ⟨_, rfl⟩⟩
      | bool value => exact ⟨fun _ => .jsonBool value, fun _ => ⟨_, rfl⟩⟩
      | num number => exact ⟨fun _ => .jsonNumber number, fun _ => ⟨_, rfl⟩⟩
      | _ => exact ⟨fun ⟨_, h⟩ => (by cases h), fun h => by cases h⟩
  | _ => exact ⟨fun ⟨_, h⟩ => (by cases h), fun h => by cases h⟩

/-- What a part has to be by itself, obstacles aside. -/
def Admitted : Place × Data → Prop
  | (.value, .int value) => IsWord value
  | (.value, .map entries) => ∀ entry ∈ entries, IsKey entry.1
  | _ => True

theorem admitted_key {part : Place × Data} (h : part.1 = .key) : Admitted part := by
  rcases part with ⟨place, data⟩
  cases h
  trivial

/-- Of finite data just what has admitted parts becomes JSON. -/
theorem exists_toJson_iff {data : Data} (h : checkFinite data = .ok ()) :
    (∃ json, toJson data = .ok json) ↔ ∀ part ∈ parts .value data, Admitted part := by
  induction data using Data.induction with
  | int value =>
      have hparts : parts .value (.int value) = [(.value, .int value)] := rfl
      rw [toJson, intJson, hparts, List.forall_mem_singleton]
      constructor
      · rintro ⟨_, hjson⟩
        split at hjson
        case isTrue hword => exact hword
        case isFalse => cases hjson
      · intro hword
        exact ⟨_, if_pos hword⟩
  | present inner ih =>
      rw [toJson, parts, List.forall_mem_cons, ih h]
      exact (and_iff_right trivial).symm
  | wrapped inner ih =>
      rw [toJson, parts, List.forall_mem_cons, ih h]
      exact (and_iff_right trivial).symm
  | seq items ih =>
      rw [checkFinite, checkItems_eq_ok_iff] at h
      have hself : Admitted (.value, .seq items) := trivial
      rw [toJson, exists_map_eq_ok_iff, itemsToJson_eq_mapM, exists_mapM_eq_ok_iff, parts,
        List.forall_mem_cons, and_iff_right hself, forall_mem_itemParts]
      exact forall₂_congr fun item hitem => ih item hitem (h item hitem)
  | map entries ih =>
      rw [checkFinite, checkEntries_eq_ok_iff] at h
      rw [toJson, exists_map_eq_ok_iff, entriesToJson_eq_mapM, exists_mapM_eq_ok_iff, parts,
        List.forall_mem_cons, forall_mem_entryParts, Admitted, ← forall₂_and]
      refine forall₂_congr fun entry hentry => ?_
      obtain ⟨hkey, hvalue⟩ := h entry hentry
      have hadmitted : ∀ part ∈ parts .key entry.1, Admitted part :=
        fun part hpart => admitted_key (place_of_mem_parts part hpart)
      rw [exists_entryToJson_iff, exists_keyText_iff hkey, (ih entry hentry).2 hvalue,
        and_iff_right hadmitted]
  | record fields ih =>
      rw [checkFinite, checkFields_eq_ok_iff] at h
      have hself : Admitted (.value, .record fields) := trivial
      rw [toJson, exists_map_eq_ok_iff, fieldsToJson_eq_mapM, exists_mapM_eq_ok_iff, parts,
        List.forall_mem_cons, and_iff_right hself, forall_mem_fieldParts]
      refine forall₂_congr fun field hfield => ?_
      rw [exists_fieldToJson_iff, ih field hfield (h field hfield)]
  | tagged name inner ih =>
      rw [toJson, exists_map_eq_ok_iff, parts, List.forall_mem_cons, ih h]
      exact (and_iff_right trivial).symm
  | failing reason => cases h
  | _ => exact ⟨fun _ => List.forall_mem_singleton.2 trivial, fun _ => ⟨_, rfl⟩⟩

theorem obstacle?_single {number : Numeral.Binary} :
    obstacle? (.single number) = none ↔ number.isFinite = true := by
  rw [obstacle?]
  split <;> simp_all

theorem obstacle?_double {number : Numeral.Binary} :
    obstacle? (.double number) = none ↔ number.isFinite = true := by
  rw [obstacle?]
  split <;> simp_all

/-- The conditions on data, part by part. -/
theorem convertible_iff_parts {data : Data} :
    data.Convertible ↔
      (∀ part ∈ parts .value data, part.2.obstacle? = none) ∧
        ∀ part ∈ parts .value data, Admitted part := by
  constructor
  · intro h
    constructor
    · rintro ⟨place, part⟩ hpart
      cases part with
      | single number => exact obstacle?_single.2 (h.finite place number (.inl hpart))
      | double number => exact obstacle?_double.2 (h.finite place number (.inr hpart))
      | failing reason => exact absurd hpart (h.available place reason)
      | _ => rfl
    · rintro ⟨place, part⟩ hpart
      cases place with
      | key => exact admitted_key rfl
      | value =>
          cases part with
          | int value => exact h.range value hpart
          | map entries => exact h.keys entries hpart
          | _ => trivial
  · rintro ⟨hobstacle, hadmitted⟩
    refine ⟨?_, ?_, fun value hpart => hadmitted _ hpart, fun entries hpart => hadmitted _ hpart⟩
    · rintro place number (hpart | hpart)
      · exact obstacle?_single.1 (hobstacle _ hpart)
      · exact obstacle?_double.1 (hobstacle _ hpart)
    · intro place reason hpart
      cases hobstacle _ hpart

/-- Conversion succeeds for convertible data only, and always for it. -/
theorem exists_toValue_iff {data : Data} : (∃ v, data.toValue = .ok v) ↔ data.Convertible := by
  rw [convertible_iff_parts, ← checkFinite_eq_ok_iff]
  simp only [toValue_eq_ok_iff]
  constructor
  · rintro ⟨_, hfinite, json, hjson, -⟩
    exact ⟨hfinite, (exists_toJson_iff hfinite).1 ⟨json, hjson⟩⟩
  · rintro ⟨hfinite, hadmitted⟩
    obtain ⟨json, hjson⟩ := (exists_toJson_iff hfinite).2 hadmitted
    exact ⟨_, hfinite, json, hjson, rfl⟩

/-- The first obstacle is reported, whatever else stands in the way. -/
theorem toValue_eq_error {data : Data} {fault : DataFault} {rest : List DataFault}
    (h : data.obstacles = fault :: rest) : data.toValue = .error fault := by
  have hcheck : data.checkFinite = .error fault := by
    rw [checkFinite_eq_verdict .value]
    exact congrArg verdict h
  rw [toValue, hcheck]
  rfl

end DynamoExpr.Data
