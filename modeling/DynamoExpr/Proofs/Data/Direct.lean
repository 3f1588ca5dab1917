import DynamoExpr.Proofs.Alias.Table
import DynamoExpr.Proofs.Data.Paths
import DynamoExpr.Proofs.Value.Agreement
import DynamoExpr.Proofs.Value.Hashing

/-!
# Direct conversion

Data without floating-point numbers has two ways to an attribute value: by way of JSON, or part by
part through the direct conversions of its kinds.  Both give one literal, with one alias and one
wire form.
-/

namespace DynamoExpr

open AttributeValue (IsWord)

/-- Data without floating-point numbers, its whole numbers of 64 bits, signed or unsigned. -/
inductive ExactData where
  | bool (value : Bool)
  | int (value : Int) (word : IsWord value)
  | text (value : String)
  | absent
  | present (inner : ExactData)
  | seq (items : List ExactData)
  | map (fields : List (String × ExactData))

namespace ExactData

/-- Induction over exact data, the hypothesis for a compound being about each of its parts. -/
@[elab_as_elim]
theorem induction {motive : ExactData → Prop}
    (bool : ∀ value, motive (.bool value)) (int : ∀ value word, motive (.int value word))
    (text : ∀ value, motive (.text value)) (absent : motive .absent)
    (present : ∀ inner, motive inner → motive (.present inner))
    (seq : ∀ items, (∀ item ∈ items, motive item) → motive (.seq items))
    (map : ∀ fields, (∀ field ∈ fields, motive field.2) → motive (.map fields))
    (data : ExactData) : motive data := by
  refine @ExactData.rec motive (fun items => ∀ item ∈ items, motive item)
    (fun fields => ∀ field ∈ fields, motive field.2) (fun field => motive field.2)
    bool int text absent present seq map ?_ ?_ ?_ ?_ ?_ data
  · simp
  · exact fun _ _ hfirst hrest => List.forall_mem_cons.2 ⟨hfirst, hrest⟩
  · simp
  · exact fun _ _ hfirst hrest => List.forall_mem_cons.2 ⟨hfirst, hrest⟩
  · exact fun _ _ hvalue => hvalue

mutual

/-- The data as it is offered for conversion, with texts for keys. -/
def offered : ExactData → Data
  | .bool value => .bool value
  | .int value _ => .int value
  | .text value => .text value
  | .absent => .absent
  | .present inner => .present (offered inner)
  | .seq items => .seq (offeredItems items)
  | .map fields => .map (offeredFields fields)

def offeredItems : List ExactData → List Data
  | [] => []
  | item :: rest => offered item :: offeredItems rest

def offeredFields : List (String × ExactData) → List (Data × Data)
  | [] => []
  | (name, value) :: rest => (.text name, offered value) :: offeredFields rest

end

mutual

/-- What the direct conversions make of the data, from its parts to the whole. -/
def direct : ExactData → AttributeValue
  | .bool value => .boolean value
  | .int value _ => .ofInt value
  | .text value => .string value
  | .absent => .ofOption none
  | .present inner => .ofOption (some (direct inner))
  | .seq items => .list (directItems items)
  | .map fields => .ofFields (directFields fields)

def directItems : List ExactData → List AttributeValue
  | [] => []
  | item :: rest => direct item :: directItems rest

def directFields : List (String × ExactData) → List (String × AttributeValue)
  | [] => []
  | (name, value) :: rest => (name, direct value) :: directFields rest

end

theorem offeredItems_eq_map (items : List ExactData) : offeredItems items = items.map offered := by
  induction items with
  | nil => rfl
  | cons item rest ih => rw [offeredItems, ih, List.map_cons]

theorem offeredFields_eq_map (fields : List (String × ExactData)) :
    offeredFields fields = fields.map fun field => (.text field.1, field.2.offered) := by
  induction fields with
  | nil => rfl
  | cons field rest ih => rw [offeredFields, ih, List.map_cons]

theorem directItems_eq_map (items : List ExactData) : directItems items = items.map direct := by
  induction items with
  | nil => rfl
  | cons item rest ih => rw [directItems, ih, List.map_cons]

theorem directFields_eq_map (fields : List (String × ExactData)) :
    directFields fields = fields.map fun field => (field.1, field.2.direct) := by
  induction fields with
  | nil => rfl
  | cons field rest ih => rw [directFields, ih, List.map_cons]

/-! ## The two conversions -/

/-- Where every item is computed to what its image stands for, a list of them is too. -/
theorem exists_mapM_map_eq {ε α β γ δ : Type} {f : β → Except ε γ} {p : α → β} {g : γ → δ}
    {h : α → δ} {xs : List α} (each : ∀ x ∈ xs, ∃ y, f (p x) = .ok y ∧ g y = h x) :
    ∃ ys, (xs.map p).mapM f = .ok ys ∧ ys.map g = xs.map h := by
  induction xs with
  | nil => exact ⟨[], rfl, rfl⟩
  | cons x rest ih =>
      obtain ⟨⟨y, hy, hyx⟩, hrest⟩ := List.forall_mem_cons.1 each
      obtain ⟨ys, hys, hysx⟩ := ih hrest
      refine ⟨y :: ys, ?_, ?_⟩
      · rw [mapM_eq_ok_iff] at hys ⊢
        exact .cons hy hys
      · rw [List.map_cons, List.map_cons, hyx, hysx]

/-- Nothing in the data is an obstacle to its conversion. -/
theorem checkFinite_offered (data : ExactData) : data.offered.checkFinite = .ok () := by
  induction data using ExactData.induction with
  | present inner ih =>
      rw [offered, Data.checkFinite]
      exact ih
  | seq items ih =>
      rw [offered, Data.checkFinite, offeredItems_eq_map, Data.checkItems_eq_ok_iff,
        List.forall_mem_map]
      exact ih
  | map fields ih =>
      rw [offered, Data.checkFinite, offeredFields_eq_map, Data.checkEntries_eq_ok_iff,
        List.forall_mem_map]
      exact fun field hfield => ⟨rfl, ih field hfield⟩
  | _ => rfl

/-- The fields of an object, put in order before and after they become values, are in order once. -/
theorem ofJson_obj_ascending (members : List (String × Json)) :
    AttributeValue.ofJson (.obj (Fields.ascending members)) =
      .ofFields (members.map fun member => (member.1, .ofJson member.2)) := by
  have hordered := Fields.ascending_ascending
    (members.map fun member => (member.1, AttributeValue.ofJson member.2))
  rw [AttributeValue.ofJson, AttributeValue.ofJsonMembers_eq_map, ← Fields.ascending_map,
    Fields.ascending_eq_self hordered, AttributeValue.ofFields]

/-- The data becomes JSON, and that the value of the direct conversions. -/
theorem exists_toJson_offered (data : ExactData) :
    ∃ json, data.offered.toJson = .ok json ∧ .ofJson json = data.direct := by
  induction data using ExactData.induction with
  | bool value => exact ⟨.bool value, rfl, rfl⟩
  | int value word => exact ⟨.num (.int value), Data.toJson_of_isWord word, rfl⟩
  | text value => exact ⟨.str value, rfl, rfl⟩
  | absent => exact ⟨.null, rfl, rfl⟩
  | present inner ih =>
      obtain ⟨json, hjson, hvalue⟩ := ih
      refine ⟨json, ?_, ?_⟩
      · rw [offered, Data.toJson]
        exact hjson
      · rw [hvalue, direct]
        rfl
  | seq items ih =>
      obtain ⟨values, hvalues, hdirect⟩ := exists_mapM_map_eq ih
      refine ⟨.arr values, ?_, ?_⟩
      · rw [offered, Data.toJson, offeredItems_eq_map, Data.itemsToJson_eq_mapM, hvalues]
        rfl
      · rw [AttributeValue.ofJson, AttributeValue.ofJsonItems_eq_map, hdirect, direct,
          directItems_eq_map]
  | map fields ih =>
      -- The keys are texts, so each entry becomes a member of the same name.
      have heach : ∀ field ∈ fields, ∃ member : String × Json,
          Data.entryToJson (.text field.1, field.2.offered) = .ok member ∧
            (member.1, AttributeValue.ofJson member.2) = (field.1, field.2.direct) := by
        intro field hfield
        obtain ⟨json, hjson, hvalue⟩ := ih field hfield
        exact ⟨(field.1, json), Data.entryToJson_eq_ok_iff.2 ⟨rfl, hjson⟩, by rw [hvalue]⟩
      obtain ⟨members, hmembers, hdirect⟩ := exists_mapM_map_eq heach
      refine ⟨.obj (Fields.ascending members), ?_, ?_⟩
      · rw [offered, Data.toJson, offeredFields_eq_map, Data.entriesToJson_eq_mapM, hmembers]
        rfl
      · rw [ofJson_obj_ascending, hdirect, direct, directFields_eq_map]

theorem toValue_offered (data : ExactData) : data.offered.toValue = .ok data.direct :=
  Data.toValue_eq_ok_iff.2 ⟨data.checkFinite_offered, data.exists_toJson_offered⟩

/-! ## One literal -/

/-- Nothing of the value is refused as a literal. -/
theorem storable_direct (data : ExactData) : data.direct.Storable := by
  induction data using ExactData.induction with
  | bool value => exact .boolean value
  | int value word => exact .number (AttributeValue.isFiniteNumber_toString word)
  | text value => exact .string value
  | absent => exact .null
  | present inner ih =>
      rw [direct]
      exact ih
  | seq items ih =>
      rw [direct, directItems_eq_map, AttributeValue.storable_list, List.forall_mem_map]
      exact ih
  | map fields ih =>
      rw [direct, directFields_eq_map, AttributeValue.ofFields, AttributeValue.storable_map]
      intro name value hvalue
      rw [Fields.last?_ascending, Fields.last?_map] at hvalue
      obtain ⟨inner, hinner, rfl⟩ := Option.map_eq_some_iff.1 hvalue
      exact ih (name, inner) (Fields.mem_of_last? hinner)

end ExactData

/-- Values that agree are equal. -/
theorem AttributeValue.matches_of_agrees {v w : AttributeValue} (h : v.Agrees w) :
    v.Matches w := by
  induction h with
  | string text => exact .string text
  | number text => exact .number text
  | binary bytes => exact .binary bytes
  | stringSet members => exact .stringSet (.refl members)
  | numberSet members => exact .numberSet (.refl members)
  | binarySet members => exact .binarySet (.refl members)
  | boolean value => exact .boolean value
  | null value => exact .null value
  | list length each ih => exact .list length ih
  | map names each ih => exact .map names ih

structure SameLiteral (v w : AttributeValue) : Prop where
  equal : (v == w) = true
  wire : v.toJson = w.toJson
  /-- In every table they get one number, and after either the other enters nothing. -/
  number : ∀ table : Aliases, ∃ i,
    (Aliases.value v).run.run table = (.ok i, table.enter (.value v)) ∧
      (Aliases.value w).run.run (table.enter (.value v)) = (.ok i, table.enter (.value v)) ∧
      (Aliases.value w).run.run table = (.ok i, table.enter (.value w)) ∧
      (Aliases.value v).run.run (table.enter (.value w)) = (.ok i, table.enter (.value w))

theorem sameLiteral_of_agrees {v w : AttributeValue} (h : v.Agrees w) (hv : v.Storable) :
    SameLiteral v w := by
  have hequal := AttributeValue.beq_iff_matches.2 (AttributeValue.matches_of_agrees h)
  have hw := (AttributeValue.storable_congr hequal).1 hv
  refine ⟨hequal, AttributeValue.toJson_eq_of_agrees h, fun table => ?_⟩
  have hsame := Lane.enter_fst_congr hequal table.values
  refine ⟨(Lane.enter v table.values).1, Aliases.run_value_of_storable hv table,
    Aliases.run_value_enter hequal table, ?_, ?_⟩
  · rw [Aliases.run_value_of_storable hw, hsame]
  · rw [Aliases.run_value_enter (BEq.symm hequal), hsame]

/--
Exact data converts by way of JSON, and the result is the same literal as what the direct
conversions give, in whatever order the fields of its maps are kept.
-/
theorem conversions_agree (data : ExactData) :
    ∃ v, data.offered.toValue = .ok v ∧ SameLiteral v data.direct ∧
      ∀ w, data.direct.Agrees w → SameLiteral v w := by
  have hsame : ∀ w, data.direct.Agrees w → SameLiteral data.direct w :=
    fun w hw => sameLiteral_of_agrees hw data.storable_direct
  have hself : data.direct.Agrees data.direct := AttributeValue.agrees_of_toJson_eq rfl
  exact ⟨data.direct, data.toValue_offered, hsame _ hself, hsame⟩

/-- The least and the greatest of 64 bits, in fields out of order, and nothing in an option. -/
example : (ExactData.map [("range", .seq [.int (-9223372036854775808) ⟨by decide, by decide⟩,
      .int 18446744073709551615 ⟨by decide, by decide⟩]), ("owner", .present .absent)]).direct =
    .map [("owner", .null true),
      ("range", .list [.number "-9223372036854775808", .number "18446744073709551615"])] := by
  rfl

end DynamoExpr
