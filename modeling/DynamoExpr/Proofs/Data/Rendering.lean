import DynamoExpr.Proofs.Alias.Table
import DynamoExpr.Proofs.Data.Paths

/-!
# Rendered data

What conversion makes of each part of the data.  A finite number becomes a number that can be
stored, and null comes only from what is null already, so the result can always be stored.
-/

namespace DynamoExpr

open AttributeValue (IsWord)
open Numeral (BinaryFormat Layout)

/-! ## Numbers of their types -/

inductive Json.Typed : Json → Prop
  | null : Typed .null
  | bool (value : Bool) : Typed (.bool value)
  | int {value : Int} (word : IsWord value) : Typed (.num (.int value))
  | float {negative : Bool} {a : Numeral.Magnitude} (fits : BinaryFormat.double.Fits a) :
      Typed (.num (.float negative a))
  | str (value : String) : Typed (.str value)
  | arr {items : List Json} (all : ∀ item ∈ items, Typed item) : Typed (.arr items)
  | obj {members : List (String × Json)} (all : ∀ member ∈ members, Typed member.2) :
      Typed (.obj members)

namespace Data

/-- Numbers of 32 and of 64 bits are numbers of these formats, as all that bits are read as are. -/
inductive Typed : Data → Prop
  | bool (value : Bool) : Typed (.bool value)
  | int (value : Int) : Typed (.int value)
  | single {value : Numeral.Binary} (has : BinaryFormat.single.Has value) : Typed (.single value)
  | double {value : Numeral.Binary} (has : BinaryFormat.double.Has value) : Typed (.double value)
  | text (value : String) : Typed (.text value)
  | bytes (value : List UInt8) : Typed (.bytes value)
  | absent : Typed .absent
  | present {inner : Data} (h : Typed inner) : Typed (.present inner)
  | wrapped {inner : Data} (h : Typed inner) : Typed (.wrapped inner)
  | seq {items : List Data} (all : ∀ item ∈ items, Typed item) : Typed (.seq items)
  | map {entries : List (Data × Data)} (keys : ∀ entry ∈ entries, Typed entry.1)
      (values : ∀ entry ∈ entries, Typed entry.2) : Typed (.map entries)
  | record {fields : List (String × Data)} (all : ∀ field ∈ fields, Typed field.2) :
      Typed (.record fields)
  | tag (name : String) : Typed (.tag name)
  | tagged (name : String) {inner : Data} (h : Typed inner) : Typed (.tagged name inner)
  | failing (reason : String) : Typed (.failing reason)
  | json {value : Json} (h : value.Typed) : Typed (.json value)

theorem exists_of_mem_named {field : String × Data} {entries : List (Data × Data)}
    (h : field ∈ named entries) : ∃ entry ∈ entries, entry.2 = field.2 := by
  obtain ⟨entry, hentry, hname⟩ := List.mem_filterMap.1 h
  obtain ⟨name, -, rfl⟩ := Option.map_eq_some_iff.1 hname
  exact ⟨entry, hentry, rfl⟩

/-- Parts of typed data are typed. -/
theorem Typed.step {data part : Data} (h : data.Typed) {step : PathStep String}
    (hstep : data.step? step = some part) : part.Typed := by
  induction data using Data.induction with
  | present inner ih =>
      cases h with
      | present h => exact ih h hstep
  | wrapped inner ih =>
      cases h with
      | wrapped h => exact ih h hstep
  | bytes content =>
      rcases step with name | i
      · cases hstep
      · obtain ⟨byte, -, rfl⟩ := Option.map_eq_some_iff.1 hstep
        exact .int byte.toNat
  | seq items ih =>
      rcases step with name | i
      · cases hstep
      · cases h with
        | seq all => exact all part (List.mem_of_getElem? hstep)
  | map entries ih =>
      rcases step with name | i
      · obtain ⟨entry, hentry, rfl⟩ := exists_of_mem_named (Fields.mem_of_last? hstep)
        cases h with
        | map keys values => exact values entry hentry
      · cases hstep
  | record fields ih =>
      rcases step with name | i
      · cases h with
        | record all => exact all (name, part) (Fields.mem_of_last? hstep)
      · cases hstep
  | tagged alternative inner ih =>
      rcases step with name | i
      · rw [step?, Option.ite_none_right_eq_some] at hstep
        obtain ⟨-, hinner⟩ := hstep
        cases hinner
        cases h with
        | tagged _ h => exact h
      · cases hstep
  | json value =>
      cases h with
      | json h =>
          cases h with
          | arr all =>
              rcases step with name | i
              · cases hstep
              · obtain ⟨item, hitem, rfl⟩ := Option.map_eq_some_iff.1 hstep
                exact .json (all item (List.mem_of_getElem? hitem))
          | obj all =>
              rcases step with name | i
              · obtain ⟨payload, hpayload, rfl⟩ := Option.map_eq_some_iff.1 hstep
                exact .json (all (name, payload) (Fields.mem_of_last? hpayload))
              · cases hstep
          | _ => cases step <;> cases hstep
  | _ => cases step <;> cases hstep

theorem Typed.bare {data : Data} (h : data.Typed) : data.bare.Typed := by
  induction data using Data.induction with
  | present inner ih =>
      cases h with
      | present h => exact ih h
  | wrapped inner ih =>
      cases h with
      | wrapped h => exact ih h
  | _ => exact h

/-! ## Renderings -/

/-- What a part becomes, its own parts aside.  The fields of a map stand in order. -/
inductive Renders : Data → AttributeValue → Prop
  | bool (value : Bool) : Renders (.bool value) (.boolean value)
  | int {value : Int} (word : IsWord value) : Renders (.int value) (.number (toString value))
  | single {negative : Bool} {a wide : Numeral.Magnitude}
      (same : Numeral.widen (.finite negative a) = .finite negative wide) :
      Renders (.single (.finite negative a))
        (.number (Layout.json.text .double (.finite negative wide)))
  | double (negative : Bool) (a : Numeral.Magnitude) :
      Renders (.double (.finite negative a))
        (.number (Layout.json.text .double (.finite negative a)))
  | text (value : String) : Renders (.text value) (.string value)
  | bytes (value : List UInt8) (items : List AttributeValue) : Renders (.bytes value) (.list items)
  | absent : Renders .absent (.null true)
  | seq (items : List Data) (nodes : List AttributeValue) : Renders (.seq items) (.list nodes)
  | map (entries : List (Data × Data)) {fields : List (String × AttributeValue)}
      (ordered : Fields.Ascending fields) : Renders (.map entries) (.map fields)
  | record (fields : List (String × Data)) {nodes : List (String × AttributeValue)}
      (ordered : Fields.Ascending nodes) : Renders (.record fields) (.map nodes)
  | tag (name : String) : Renders (.tag name) (.string name)
  | tagged (name : String) (inner : Data) (node : AttributeValue) :
      Renders (.tagged name inner) (.map [(name, node)])
  | jsonNull : Renders (.json .null) (.null true)
  | jsonBool (value : Bool) : Renders (.json (.bool value)) (.boolean value)
  | jsonNumber (value : JsonNumber) : Renders (.json (.num value)) (.number value.text)
  | jsonText (value : String) : Renders (.json (.str value)) (.string value)
  | jsonArr (items : List Json) (nodes : List AttributeValue) :
      Renders (.json (.arr items)) (.list nodes)
  | jsonObj (members : List (String × Json)) {fields : List (String × AttributeValue)}
      (ordered : Fields.Ascending fields) : Renders (.json (.obj members)) (.map fields)

/-- The result for typed data renders what stands under options and type names. -/
theorem renders_of_toJson {data : Data} (ht : data.Typed) {json : Json}
    (hfinite : checkFinite data = .ok ()) (hjson : toJson data = .ok json) :
    Renders data.bare (.ofJson json) := by
  induction data using Data.induction with
  | bool value =>
      cases hjson
      exact .bool value
  | int value =>
      rw [toJson, intJson] at hjson
      split at hjson
      case isTrue hword =>
        cases hjson
        exact .int hword
      case isFalse => cases hjson
  | single value =>
      cases hjson
      cases value with
      | finite negative a =>
          cases ht with
          | single has =>
              obtain ⟨wide, hwide, -⟩ := Numeral.exists_widen negative has
              rw [hwide]
              exact .single hwide
      | _ => cases hfinite
  | double value =>
      cases hjson
      cases value with
      | finite negative a => exact .double negative a
      | _ => cases hfinite
  | text value =>
      cases hjson
      exact .text value
  | bytes content =>
      cases hjson
      exact .bytes content _
  | absent =>
      cases hjson
      exact .absent
  | present inner ih =>
      cases ht with
      | present ht => exact ih ht hfinite hjson
  | wrapped inner ih =>
      cases ht with
      | wrapped ht => exact ih ht hfinite hjson
  | seq items ih =>
      obtain ⟨values, -, rfl⟩ := map_eq_ok_iff.1 hjson
      exact .seq items _
  | map entries ih =>
      obtain ⟨members, -, rfl⟩ := map_eq_ok_iff.1 hjson
      exact .map entries (Fields.ascending_ascending _)
  | record fields ih =>
      obtain ⟨members, -, rfl⟩ := map_eq_ok_iff.1 hjson
      exact .record fields (Fields.ascending_ascending _)
  | tag name =>
      cases hjson
      exact .tag name
  | tagged name inner ih =>
      obtain ⟨payload, -, rfl⟩ := map_eq_ok_iff.1 hjson
      exact .tagged name inner _
  | failing reason => cases hfinite
  | json value =>
      cases hjson
      cases json with
      | null => exact .jsonNull
      | bool value => exact .jsonBool value
      | num number => cases number <;> exact .jsonNumber _
      | str value => exact .jsonText value
      | arr items => exact .jsonArr items _
      | obj members => exact .jsonObj members (Fields.ascending_ascending _)

end Data

/-! ## Nodes that can be stored -/

namespace AttributeValue

/-- A node that is no set and no binary, and that can be stored if its own nodes can.  The fields of
a map stand in order, so each of them counts. -/
inductive Plain : AttributeValue → Prop
  | string (text : String) : Plain (.string text)
  | number {text : String} (finite : isFiniteNumber text = true) : Plain (.number text)
  | boolean (value : Bool) : Plain (.boolean value)
  | null : Plain (.null true)
  | list (items : List AttributeValue) : Plain (.list items)
  | map {fields : List (String × AttributeValue)} (ordered : Fields.Ascending fields) :
      Plain (.map fields)

/-- A value whose nodes are all plain can be stored. -/
theorem storable_of_plain {v : AttributeValue}
    (h : ∀ path node, v.at? path = some node → node.Plain) : v.Storable := by
  induction v using AttributeValue.induction with
  | list items ih =>
      refine .list fun item hitem => ih item hitem fun path node hnode => ?_
      obtain ⟨i, hi⟩ := List.mem_iff_getElem?.1 hitem
      apply h (.index i :: path) node
      rw [at?, step?, hi]
      exact hnode
  | map fields ih =>
      refine .map fun name value hlast => ?_
      refine ih (name, value) (Fields.mem_of_last? hlast) fun path node hnode => ?_
      apply h (.attribute name :: path) node
      rw [at?, step?, hlast]
      exact hnode
  | string text => exact .string text
  | boolean value => exact .boolean value
  | number text =>
      cases h [] _ rfl with
      | number finite => exact .number finite
  | null value =>
      cases h [] _ rfl with
      | null => exact .null
  | _ => cases h [] _ rfl

end AttributeValue

namespace Data

theorem Renders.plain {data : Data} {node : AttributeValue} (h : Renders data node)
    (ht : data.Typed) : node.Plain := by
  cases h with
  | bool value => exact .boolean value
  | int word => exact .number (AttributeValue.isFiniteNumber_toString word)
  | @single negative a wide same =>
      cases ht with
      | single has =>
          obtain ⟨other, hother, hfits⟩ := Numeral.exists_widen negative has
          rw [same] at hother
          cases hother
          exact .number (AttributeValue.isFiniteNumber_json hfits negative)
  | double negative a =>
      cases ht with
      | double has => exact .number (AttributeValue.isFiniteNumber_json has negative)
  | text value => exact .string value
  | bytes value items => exact .list items
  | absent => exact .null
  | seq items nodes => exact .list nodes
  | map entries ordered => exact .map ordered
  | record fields ordered => exact .map ordered
  | tag name => exact .string name
  | tagged name inner node => exact .map (List.pairwise_singleton _ _)
  | jsonNull => exact .null
  | jsonBool value => exact .boolean value
  | jsonNumber value =>
      cases ht with
      | json ht =>
          cases ht with
          | int word => exact .number (AttributeValue.isFiniteNumber_toString word)
          | float fits => exact .number (AttributeValue.isFiniteNumber_json fits _)
  | jsonText value => exact .string value
  | jsonArr items nodes => exact .list nodes
  | jsonObj members ordered => exact .map ordered

/-! ## Whole results -/

/-- Along every path the part, typed as it is, stands beside what it renders to. -/
theorem renders_at {data : Data} {v : AttributeValue} (ht : data.Typed)
    (h : data.toValue = .ok v) (path : List (PathStep String)) :
    Option.Rel (fun part node => part.Typed ∧ Renders part node) (data.at? path) (v.at? path) := by
  induction path generalizing data v with
  | nil =>
      obtain ⟨hfinite, json, hjson, rfl⟩ := toValue_eq_ok_iff.1 h
      exact .some ⟨ht.bare, renders_of_toJson ht hfinite hjson⟩
  | cons step rest ih =>
      obtain ⟨hfinite, json, hjson, rfl⟩ := toValue_eq_ok_iff.1 h
      refine optionRel_bind (converts_step hfinite hjson step) fun part node hpart hconverts => ?_
      exact ih (ht.step hpart) hconverts

/-- The result stands for the data, and nothing of it is refused as a literal. -/
structure Faithful (data : Data) (v : AttributeValue) : Prop where
  /-- A path leads to a part and to what the part renders to, or to nothing on both sides. -/
  rendered : ∀ path, Option.Rel Renders (data.at? path) (v.at? path)
  /-- There are no nodes but strings, stored numbers, booleans, the true null, lists and maps. -/
  plain : ∀ path node, v.at? path = some node → node.Plain
  /-- A number of 32 or 64 bits has become a number, and never null. -/
  floats : ∀ path number,
    data.at? path = some (.single number) ∨ data.at? path = some (.double number) →
      ∃ text, v.at? path = some (.number text)
  /-- Null stands only where there is no data, or null already. -/
  nulls : ∀ path value, v.at? path = some (.null value) →
    data.at? path = some .absent ∨ data.at? path = some (.json .null)
  /-- Every table of aliases takes the result. -/
  aliased : ∀ table : Aliases, ∃ i, ((Aliases.value v).run.run table).1 = .ok i

theorem faithful_of_toValue {data : Data} {v : AttributeValue} (ht : data.Typed)
    (h : data.toValue = .ok v) : Faithful data v := by
  have hpath := renders_at ht h
  have hplain : ∀ path node, v.at? path = some node → node.Plain := by
    intro path node hnode
    obtain ⟨part, -, hpart, hrenders⟩ := optionRel_some_right (hpath path) hnode
    exact hrenders.plain hpart
  refine ⟨?_, hplain, ?_, ?_, Aliases.exists_run_value (AttributeValue.storable_of_plain hplain)⟩
  · exact fun path => optionRel_imp (hpath path) fun _ _ hrel => hrel.2
  · rintro path number (hpart | hpart)
    · obtain ⟨node, hnode, -, hrenders⟩ := optionRel_some_left (hpath path) hpart
      cases hrenders with
      | single => exact ⟨_, hnode⟩
    · obtain ⟨node, hnode, -, hrenders⟩ := optionRel_some_left (hpath path) hpart
      cases hrenders with
      | double => exact ⟨_, hnode⟩
  · intro path value hnode
    obtain ⟨part, hpart, -, hrenders⟩ := optionRel_some_right (hpath path) hnode
    cases hrenders with
    | absent => exact .inl hpart
    | jsonNull => exact .inr hpart

/--
A number that is not finite is reported, wherever it stands, unless data that cannot be had comes
before it.  Otherwise convertible data, and no other, has a result, which is faithful to it.
-/
theorem conversion_exact {data : Data} (h : data.Typed) :
    (∀ number rest, data.obstacles = .notFinite number :: rest →
        data.toValue = .error (.notFinite number)) ∧
      ((∃ v, data.toValue = .ok v) ↔ data.Convertible) ∧
      ∀ v, data.toValue = .ok v → Faithful data v :=
  ⟨fun _ _ => toValue_eq_error, exists_toValue_iff, fun _ => faithful_of_toValue h⟩

def review : Data :=
  .map [(.text "rating", .present (.double (BinaryFormat.double.decode 0x3ff8000000000000))),
    (.tag "author", .absent)]

/-- Data with a number that is not one before data that cannot be had. -/
def broken : Data := .seq [.wrapped (.single .notANumber), .failing "gone"]

theorem typed_review : review.Typed := by
  refine .map ?_ ?_
  · rintro entry (_ | ⟨_, _ | ⟨_, ⟨⟩⟩⟩)
    · exact .text _
    · exact .tag _
  · rintro entry (_ | ⟨_, _ | ⟨_, ⟨⟩⟩⟩)
    · exact .present (.double (BinaryFormat.has_decode _ _))
    · exact .absent

theorem typed_broken : broken.Typed := by
  refine .seq ?_
  rintro item (_ | ⟨_, _ | ⟨_, ⟨⟩⟩⟩)
  · exact .wrapped (.single trivial)
  · exact .failing _

theorem review_conversion_exact :
    (review.Convertible ∧ ∃ v, review.toValue = .ok v ∧
        (∃ text, v.at? [.attribute "rating"] = some (.number text)) ∧
        ∀ table : Aliases, ∃ i, ((Aliases.value v).run.run table).1 = .ok i) ∧
      broken.toValue = .error (.notFinite .notANumber) := by
  obtain ⟨-, hreview, hfaithful⟩ := conversion_exact typed_review
  obtain ⟨hbroken, -⟩ := conversion_exact typed_broken
  obtain ⟨v, hv⟩ : ∃ v, review.toValue = .ok v := ⟨_, rfl⟩
  have hv' := hfaithful v hv
  have hrating : review.at? [.attribute "rating"] =
      some (.double (BinaryFormat.double.decode 0x3ff8000000000000)) := rfl
  exact ⟨⟨hreview.1 ⟨v, hv⟩, v, hv, hv'.floats _ _ (.inr hrating), hv'.aliased⟩,
    hbroken .notANumber _ rfl⟩

end Data

end DynamoExpr
