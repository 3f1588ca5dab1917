import DynamoExpr.Proofs.Data.Paths
import DynamoExpr.Proofs.Value.Wire
import DynamoExpr.Value.Text

/-!
# Repeated members on the wire

An object that stands for an attribute value has one member, while the object of a map may repeat
its names.  A text is read exactly if each object in the place of an attribute value is of this
kind, those that a later entry replaces included, and of a repeated name the last entry is kept.
-/

namespace DynamoExpr

namespace Json

/-- The payload is of the kind that the type asks for, the values inside it aside. -/
inductive PayloadOf : AttributeType → Json → Prop
  | string (text : String) : PayloadOf .string (.str text)
  | number (text : String) : PayloadOf .number (.str text)
  | binary (bytes : List UInt8) : PayloadOf .binary (.str (Base64.encode bytes))
  | stringSet (members : List String) : PayloadOf .stringSet (.arr (members.map .str))
  | numberSet (members : List String) : PayloadOf .numberSet (.arr (members.map .str))
  | binarySet (members : List (List UInt8)) :
      PayloadOf .binarySet (.arr (members.map fun bytes => .str (Base64.encode bytes)))
  | boolean (value : Bool) : PayloadOf .boolean (.bool value)
  | null (value : Bool) : PayloadOf .null (.bool value)
  | list (items : List Json) : PayloadOf .list (.arr items)
  | map (members : List (String × Json)) : PayloadOf .map (.obj members)

/-- One member, named by a type, with a payload of its kind. -/
def Keyed (node : Json) : Prop :=
  ∃ (type : AttributeType) (payload : Json),
    node = .obj [(type.key, payload)] ∧ PayloadOf type payload

/--
The node stands in the place of an attribute value: it is the whole, an item of a list, or an entry
of a map, whether or not a later one has its name.
-/
inductive Places (json : Json) : Json → Prop
  | whole : Places json json
  | item {members : List (String × Json)} {items : List Json} {item : Json}
      (outer : Places json (.obj members)) (list : ("L", .arr items) ∈ members)
      (inside : item ∈ items) : Places json item
  | entry {members entries : List (String × Json)} {entry : String × Json}
      (outer : Places json (.obj members)) (map : ("M", .obj entries) ∈ members)
      (inside : entry ∈ entries) : Places json entry.2

theorem Places.trans {json node inner : Json} (h : json.Places node) (hinner : node.Places inner) :
    json.Places inner := by
  induction hinner with
  | whole => exact h
  | item _ list inside ih => exact ih.item list inside
  | entry _ map inside ih => exact ih.entry map inside

/-- The value one step into a value, of entries with one name the last. -/
def step? : Json → PathStep String → Option Json
  | .obj [("L", .arr items)], .index i => items[i]?
  | .obj [("M", .obj entries)], .attribute name => Fields.last? name entries
  | _, _ => none

def at? (json : Json) : List (PathStep String) → Option Json
  | [] => some json
  | step :: rest => (json.step? step).bind fun node => node.at? rest

end Json

namespace AttributeValue

open Json (Keyed PayloadOf)

/-! ## Every place is of the kind -/

theorem Wire.keyed {json : Json} {v : AttributeValue} (h : Wire json v) : json.Keyed := by
  cases h with
  | string text => exact ⟨.string, _, rfl, .string text⟩
  | number text => exact ⟨.number, _, rfl, .number text⟩
  | binary bytes => exact ⟨.binary, _, rfl, .binary bytes⟩
  | stringSet members => exact ⟨.stringSet, _, rfl, .stringSet members⟩
  | numberSet members => exact ⟨.numberSet, _, rfl, .numberSet members⟩
  | binarySet members => exact ⟨.binarySet, _, rfl, .binarySet members⟩
  | boolean value => exact ⟨.boolean, _, rfl, .boolean value⟩
  | null value => exact ⟨.null, _, rfl, .null value⟩
  | list entries => exact ⟨.list, _, rfl, .list _⟩
  | map entries => exact ⟨.map, _, rfl, .map _⟩

/-- What has the format has it in every place. -/
theorem Wire.places {json node : Json} {v : AttributeValue} (h : Wire json v)
    (hnode : json.Places node) : ∃ w, Wire node w := by
  induction hnode with
  | whole => exact ⟨v, h⟩
  | item outer list inside ih =>
      obtain ⟨w, hw⟩ := ih
      -- What has the format has one member, and only a list has it under this name.
      cases hw with
      | list entries each =>
          cases List.mem_singleton.1 list
          obtain ⟨entry, hentry, rfl⟩ := List.mem_map.1 inside
          exact ⟨entry.2, each entry hentry⟩
      | _ => exact absurd (Prod.mk.inj (List.mem_singleton.1 list)).1 (by decide)
  | entry outer map inside ih =>
      obtain ⟨w, hw⟩ := ih
      cases hw with
      | map entries each =>
          cases List.mem_singleton.1 map
          obtain ⟨entry, hentry, rfl⟩ := List.mem_map.1 inside
          exact ⟨entry.2.2, each entry hentry⟩
      | _ => exact absurd (Prod.mk.inj (List.mem_singleton.1 map)).1 (by decide)

/-- Places that are all of the kind make up a value, by recursion into the places. -/
theorem exists_wire_of_keyed {json : Json} (h : ∀ node, json.Places node → node.Keyed) :
    ∃ w, Wire json w := by
  obtain ⟨type, payload, hjson, hpayload⟩ := h json .whole
  -- Only a list and a map have places in them, which are places of the whole as well.
  rw [hjson]
  cases hpayload with
  | string text => exact ⟨_, .string text⟩
  | number text => exact ⟨_, .number text⟩
  | binary bytes => exact ⟨_, .binary bytes⟩
  | stringSet members => exact ⟨_, .stringSet members⟩
  | numberSet members => exact ⟨_, .numberSet members⟩
  | binarySet members => exact ⟨_, .binarySet members⟩
  | boolean value => exact ⟨_, .boolean value⟩
  | null value => exact ⟨_, .null value⟩
  | list items =>
      refine exists_wire_list fun item hitem => ?_
      have hplace : json.Places item :=
        .item (hjson ▸ .whole) (List.mem_singleton.2 rfl) hitem
      have hsize := List.sizeOf_lt_of_mem hitem
      exact exists_wire_of_keyed fun node hnode => h node (hplace.trans hnode)
  | map entries =>
      refine exists_wire_map fun entry hentry => ?_
      have hplace : json.Places entry.2 :=
        .entry (hjson ▸ .whole) (List.mem_singleton.2 rfl) hentry
      have hsize := List.sizeOf_lt_of_mem hentry
      exact exists_wire_of_keyed fun node hnode => h node (hplace.trans hnode)
termination_by json
decreasing_by
  · simp only [hjson, Json.obj.sizeOf_spec, Json.arr.sizeOf_spec, List.cons.sizeOf_spec,
      Prod.mk.sizeOf_spec]
    omega
  · rcases entry with ⟨name, payload⟩
    simp only [hjson, Json.obj.sizeOf_spec, List.cons.sizeOf_spec, Prod.mk.sizeOf_spec] at hsize ⊢
    omega

theorem exists_wire_iff {json : Json} :
    (∃ w, Wire json w) ↔ ∀ node, json.Places node → node.Keyed := by
  constructor
  · rintro ⟨w, hw⟩ node hnode
    obtain ⟨inner, hinner⟩ := hw.places hnode
    exact hinner.keyed
  · exact exists_wire_of_keyed

/-! ## The last entry is kept -/

theorem Wire.step {json : Json} {v : AttributeValue} (h : Wire json v) (step : PathStep String) :
    Option.Rel Wire (json.step? step) (v.step? step) := by
  cases h with
  | list entries each =>
      rcases step with name | i
      · exact .none
      · change Option.Rel Wire (entries.map Prod.fst)[i]? (entries.map Prod.snd)[i]?
        rw [List.getElem?_map, List.getElem?_map]
        cases hentry : entries[i]? with
        | none => exact .none
        | some entry => exact .some (each entry (List.mem_of_getElem? hentry))
  | map entries each =>
      rcases step with name | i
      · change Option.Rel Wire (Fields.last? name _) (Fields.last? name _)
        rw [Fields.last?_ascending, Fields.last?_map, Fields.last?_map]
        cases hentry : Fields.last? name entries with
        | none => exact .none
        | some entry => exact .some (each (name, entry) (Fields.mem_of_last? hentry))
      · exact .none
  | _ => cases step <;> exact .none

/-- Every path leads to a value on the wire and to what it stands for, or to nothing in both. -/
theorem Wire.at {json : Json} {v : AttributeValue} (h : Wire json v)
    (path : List (PathStep String)) : Option.Rel Wire (json.at? path) (v.at? path) := by
  induction path generalizing json v with
  | nil => exact .some h
  | cons step rest ih => exact optionRel_bind (h.step step) fun _ _ _ hnode => ih hnode

/-- In the value that is read each name of a map stands once. -/
theorem Wire.ascending {json : Json} {fields : List (String × AttributeValue)}
    (h : Wire json (.map fields)) : Fields.Ascending fields := by
  cases h with
  | map entries each => exact Fields.ascending_ascending _

/-! ## Texts -/

theorem fromText_eq_ok_iff {text : String} {v : AttributeValue} :
    fromText text = .ok v ↔ ∃ json, Json.read? text = some json ∧ Wire json v := by
  rw [fromText]
  cases hread : Json.read? text with
  | none => simp
  | some json =>
      simp only [Option.some.injEq, exists_eq_left', ← fromJson_eq_ok_iff_wire]
      cases fromJson json <;> simp [Except.mapError]

theorem exists_fromText_iff {text : String} : (∃ v, fromText text = .ok v) ↔
    ∃ json, Json.read? text = some json ∧ ∀ node, json.Places node → node.Keyed := by
  simp only [fromText_eq_ok_iff, ← exists_wire_iff]
  constructor
  · rintro ⟨v, json, hread, hwire⟩
    exact ⟨json, hread, v, hwire⟩
  · rintro ⟨json, hread, v, hwire⟩
    exact ⟨v, json, hread, hwire⟩

/-- How the reading of a text ends. -/
structure TextVerdict (text : String) (outcome : Except TextFault AttributeValue) : Prop where
  /-- It succeeds if the text is JSON with an object of the kind in each place, and only then. -/
  succeeds_iff : (∃ v, outcome = .ok v) ↔
    ∃ json, Json.read? text = some json ∧ ∀ node, json.Places node → node.Keyed
  /-- A second member of an object in such a place is refused, also if it repeats the first. -/
  single : ∀ json first second rest, Json.read? text = some json →
    json.Places (.obj (first :: second :: rest)) → ¬ ∃ v, outcome = .ok v
  /-- What stands at a path is read from what stands there in the text, of one name the last. -/
  kept : ∀ json v, Json.read? text = some json → outcome = .ok v → ∀ path,
    Option.Rel (fun node w => fromJson node = .ok w) (json.at? path) (v.at? path)
  /-- No name stands twice in a map of the result. -/
  once : ∀ v, outcome = .ok v → ∀ path fields,
    v.at? path = some (.map fields) → (fields.map Prod.fst).Nodup

/-- Of all texts just those are read whose places are of the kind, and last entries are kept. -/
theorem fromText_verdict (text : String) : TextVerdict text (fromText text) := by
  refine ⟨exists_fromText_iff, ?_, ?_, ?_⟩
  · intro json first second rest hread hplace hok
    obtain ⟨other, hother, hkeyed⟩ := exists_fromText_iff.1 hok
    cases hread.symm.trans hother
    obtain ⟨type, payload, heq, -⟩ := hkeyed _ hplace
    cases heq
  · intro json v hread hv path
    obtain ⟨other, hother, hwire⟩ := fromText_eq_ok_iff.1 hv
    cases hread.symm.trans hother
    exact optionRel_imp (hwire.at path) fun _ _ => fromJson_eq_ok_iff_wire.2
  · intro v hv path fields hfields
    obtain ⟨json, -, hwire⟩ := fromText_eq_ok_iff.1 hv
    obtain ⟨node, -, hnode⟩ := optionRel_some_right (hwire.at path) hfields
    exact hnode.ascending.nodup_names

/-- A bad entry is refused though a good one replaces it, and so is a member said twice. -/
example :
    (fromText ("\x7b\"M\":\x7b\"a\":\x7b\"N\":\"x\"\x7d," ++
        "\"a\":\x7b\"S\":\"y\"\x7d\x7d\x7d")).isOk = true ∧
      (fromText ("\x7b\"M\":\x7b\"a\":\x7b\"N\":1\x7d," ++
        "\"a\":\x7b\"S\":\"y\"\x7d\x7d\x7d")).isOk = false ∧
      (fromText "\x7b\"S\":\"y\",\"S\":\"y\"\x7d").isOk = false := by
  decide +kernel

end AttributeValue

end DynamoExpr
