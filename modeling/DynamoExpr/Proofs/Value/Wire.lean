import DynamoExpr.Proofs.Outcome
import DynamoExpr.Proofs.Value.Agreement

/-!
# The wire format is a bijection

What a JSON value must look like to be read, and as what it is read, is given by a relation that
knows nothing of the reader.  On JSON values without repeated members, reading and writing undo
each other, and nothing but a wire form is read.
-/

namespace DynamoExpr.AttributeValue

/--
The JSON value has the wire format and stands for the value.  Every member of a map has to have
the format, also one that a later member of the same name replaces.
-/
inductive Wire : Json → AttributeValue → Prop
  | string (text : String) : Wire (.obj [("S", .str text)]) (.string text)
  | number (text : String) : Wire (.obj [("N", .str text)]) (.number text)
  | binary (bytes : List UInt8) :
      Wire (.obj [("B", .str (Base64.encode bytes))]) (.binary bytes)
  | stringSet (members : List String) :
      Wire (.obj [("SS", .arr (members.map .str))]) (.stringSet members)
  | numberSet (members : List String) :
      Wire (.obj [("NS", .arr (members.map .str))]) (.numberSet members)
  | binarySet (members : List (List UInt8)) :
      Wire (.obj [("BS", .arr (members.map fun bytes => .str (Base64.encode bytes)))])
        (.binarySet members)
  | boolean (value : Bool) : Wire (.obj [("BOOL", .bool value)]) (.boolean value)
  | null (value : Bool) : Wire (.obj [("NULL", .bool value)]) (.null value)
  | list (entries : List (Json × AttributeValue)) (each : ∀ entry ∈ entries, Wire entry.1 entry.2) :
      Wire (.obj [("L", .arr (entries.map Prod.fst))]) (.list (entries.map Prod.snd))
  | map (entries : List (String × Json × AttributeValue))
      (each : ∀ entry ∈ entries, Wire entry.2.1 entry.2.2) :
      Wire (.obj [("M", .obj (entries.map fun entry => (entry.1, entry.2.1)))])
        (.map (Fields.ascending (entries.map fun entry => (entry.1, entry.2.2))))

/-! ## The reader follows the format -/

theorem ofKey?_eq_some_iff {key : String} {type : AttributeType} :
    AttributeType.ofKey? key = some type ↔ key = type.key := by
  constructor
  · intro h
    have hkey := List.find?_some h
    exact (of_decide_eq_true hkey).symm
  · intro h
    subst h
    cases type <;> decide

theorem text_eq_ok_iff {payload : Json} {text : String} :
    payload.text = .ok text ↔ payload = .str text := by
  cases payload <;> simp [Json.text]

theorem boolean_eq_ok_iff {payload : Json} {value : Bool} :
    payload.boolean = .ok value ↔ payload = .bool value := by
  cases payload <;> simp [Json.boolean]

theorem texts_eq_ok_iff {payload : Json} {texts : List String} :
    payload.texts = .ok texts ↔ payload = .arr (texts.map .str) := by
  cases payload with
  | arr items =>
      have hitems : items.mapM Json.text = .ok texts ↔ items = texts.map .str :=
        mapM_eq_ok_iff_eq_map fun _ _ => text_eq_ok_iff
      simp [Json.texts, hitems]
  | _ => simp [Json.texts]

theorem readBinary_eq_ok_iff {text : String} {bytes : List UInt8} :
    readBinary text = .ok bytes ↔ text = Base64.encode bytes := by
  rw [← Base64.decode_eq_ok_iff, readBinary]
  cases Base64.decode text <;> simp [Except.mapError]

/-- The items are read one by one. -/
theorem itemsFromJson_eq_ok_iff {items : List Json} {values : List AttributeValue} :
    itemsFromJson items = .ok values ↔
      ∃ entries : List (Json × AttributeValue), items = entries.map Prod.fst ∧
        values = entries.map Prod.snd ∧ ∀ entry ∈ entries, fromJson entry.1 = .ok entry.2 := by
  induction items generalizing values with
  | nil =>
      rw [itemsFromJson]
      constructor
      · intro h
        cases h
        exact ⟨[], rfl, rfl, by simp⟩
      · intro h
        rcases h with ⟨entries, hitems, rfl, -⟩
        rw [List.map_eq_nil_iff.1 hitems.symm]
        rfl
  | cons item rest ih =>
      simp only [itemsFromJson, bind_eq_ok_iff, ih]
      constructor
      · intro h
        rcases h with ⟨value, hvalue, _, ⟨entries, rfl, rfl, heach⟩, h⟩
        cases h
        exact ⟨(item, value) :: entries, rfl, rfl, List.forall_mem_cons.2 ⟨hvalue, heach⟩⟩
      · intro h
        rcases h with ⟨entries, hitems, rfl, heach⟩
        obtain ⟨entry, others, rfl, rfl, rfl⟩ := List.map_eq_cons_iff.1 hitems.symm
        obtain ⟨hentry, hothers⟩ := List.forall_mem_cons.1 heach
        exact ⟨entry.2, hentry, _, ⟨others, rfl, rfl, hothers⟩, rfl⟩

/-- The members are read one by one, each under its name. -/
theorem fieldsFromJson_eq_ok_iff {members : List (String × Json)}
    {fields : List (String × AttributeValue)} :
    fieldsFromJson members = .ok fields ↔
      ∃ entries : List (String × Json × AttributeValue),
        members = entries.map (fun entry => (entry.1, entry.2.1)) ∧
          fields = entries.map (fun entry => (entry.1, entry.2.2)) ∧
            ∀ entry ∈ entries, fromJson entry.2.1 = .ok entry.2.2 := by
  induction members generalizing fields with
  | nil =>
      rw [fieldsFromJson]
      constructor
      · intro h
        cases h
        exact ⟨[], rfl, rfl, by simp⟩
      · intro h
        rcases h with ⟨entries, hmembers, rfl, -⟩
        rw [List.map_eq_nil_iff.1 hmembers.symm]
        rfl
  | cons member rest ih =>
      rcases member with ⟨name, payload⟩
      simp only [fieldsFromJson, bind_eq_ok_iff, ih]
      constructor
      · intro h
        rcases h with ⟨value, hvalue, _, ⟨entries, rfl, rfl, heach⟩, h⟩
        cases h
        exact ⟨(name, payload, value) :: entries, rfl, rfl,
          List.forall_mem_cons.2 ⟨hvalue, heach⟩⟩
      · intro h
        rcases h with ⟨entries, hmembers, rfl, heach⟩
        obtain ⟨entry, others, rfl, hentry, rfl⟩ := List.map_eq_cons_iff.1 hmembers.symm
        cases hentry
        obtain ⟨hvalue, hothers⟩ := List.forall_mem_cons.1 heach
        exact ⟨entry.2.2, hvalue, _, ⟨others, rfl, rfl, hothers⟩, rfl⟩

/-- What is read is one member, named by a type, with a payload of this type. -/
theorem fromJson_eq_ok_iff {json : Json} {v : AttributeValue} :
    fromJson json = .ok v ↔
      ∃ type payload, json = .obj [(AttributeType.key type, payload)] ∧
        fromPayload type payload = .ok v := by
  constructor
  · intro h
    match json, h with
    | .obj ((key, payload) :: rest), h =>
        rw [fromJson] at h
        cases htype : AttributeType.ofKey? key with
        | none =>
            rw [htype] at h
            cases h
        | some type =>
            rw [htype] at h
            obtain ⟨value, hvalue, h⟩ := bind_eq_ok_iff.1 h
            cases rest with
            | nil =>
                cases h
                rw [ofKey?_eq_some_iff.1 htype]
                exact ⟨type, payload, rfl, hvalue⟩
            | cons member more => cases h
  · intro h
    rcases h with ⟨type, payload, rfl, hpayload⟩
    rw [fromJson, ofKey?_eq_some_iff.2 rfl]
    exact bind_eq_ok_iff.2 ⟨v, hpayload, rfl⟩

/-- A payload that is read has the format of its type. -/
theorem wire_of_fromPayload {type : AttributeType} {payload : Json} {v : AttributeValue}
    (items : ∀ elements, payload = .arr elements →
      ∀ element ∈ elements, ∀ w, fromJson element = .ok w → Wire element w)
    (fields : ∀ members, payload = .obj members →
      ∀ member ∈ members, ∀ w, fromJson member.2 = .ok w → Wire member.2 w)
    (h : fromPayload type payload = .ok v) : Wire (.obj [(type.key, payload)]) v := by
  cases type with
  | string =>
      simp only [fromPayload, map_eq_ok_iff] at h
      rcases h with ⟨text, htext, rfl⟩
      rw [text_eq_ok_iff.1 htext]
      exact .string text
  | number =>
      simp only [fromPayload, map_eq_ok_iff] at h
      rcases h with ⟨text, htext, rfl⟩
      rw [text_eq_ok_iff.1 htext]
      exact .number text
  | binary =>
      simp only [fromPayload, bind_eq_ok_iff, pure_eq_ok_iff] at h
      rcases h with ⟨text, htext, bytes, hbytes, rfl⟩
      rw [text_eq_ok_iff.1 htext, readBinary_eq_ok_iff.1 hbytes]
      exact .binary bytes
  | stringSet =>
      simp only [fromPayload, map_eq_ok_iff] at h
      rcases h with ⟨texts, htexts, rfl⟩
      rw [texts_eq_ok_iff.1 htexts]
      exact .stringSet texts
  | numberSet =>
      simp only [fromPayload, map_eq_ok_iff] at h
      rcases h with ⟨texts, htexts, rfl⟩
      rw [texts_eq_ok_iff.1 htexts]
      exact .numberSet texts
  | binarySet =>
      simp only [fromPayload, bind_eq_ok_iff, pure_eq_ok_iff] at h
      rcases h with ⟨texts, htexts, members, hmembers, rfl⟩
      have hencoded := (mapM_eq_ok_iff_eq_map fun _ _ => readBinary_eq_ok_iff).1 hmembers
      rw [texts_eq_ok_iff.1 htexts, hencoded, List.map_map]
      exact .binarySet members
  | boolean =>
      simp only [fromPayload, map_eq_ok_iff] at h
      rcases h with ⟨value, hvalue, rfl⟩
      rw [boolean_eq_ok_iff.1 hvalue]
      exact .boolean value
  | null =>
      simp only [fromPayload, map_eq_ok_iff] at h
      rcases h with ⟨value, hvalue, rfl⟩
      rw [boolean_eq_ok_iff.1 hvalue]
      exact .null value
  | list =>
      cases payload with
      | arr elements =>
          simp only [fromPayload, bind_eq_ok_iff, pure_eq_ok_iff, itemsFromJson_eq_ok_iff] at h
          rcases h with ⟨_, ⟨entries, rfl, rfl, heach⟩, rfl⟩
          refine .list entries fun entry hentry => ?_
          exact items _ rfl _ (List.mem_map_of_mem hentry) _ (heach entry hentry)
      | _ => cases h
  | map =>
      cases payload with
      | obj members =>
          simp only [fromPayload, bind_eq_ok_iff, pure_eq_ok_iff, fieldsFromJson_eq_ok_iff] at h
          rcases h with ⟨_, ⟨entries, rfl, rfl, heach⟩, rfl⟩
          refine .map entries fun entry hentry => ?_
          exact fields _ rfl _ (List.mem_map_of_mem hentry) _ (heach entry hentry)
      | _ => cases h

/-- What is read has the format, by recursion into the parts of the payload. -/
theorem wire_of_fromJson {json : Json} {v : AttributeValue} (h : fromJson json = .ok v) :
    Wire json v := by
  obtain ⟨type, payload, hjson, hpayload⟩ := fromJson_eq_ok_iff.1 h
  rw [hjson]
  -- `Json` nests through lists and pairs, so the recursion goes by the size of the payload.
  refine wire_of_fromPayload ?_ ?_ hpayload
  · intro elements helements element hmem w hw
    have hsize := List.sizeOf_lt_of_mem hmem
    exact wire_of_fromJson hw
  · intro members hmembers member hmem w hw
    have hsize := List.sizeOf_lt_of_mem hmem
    exact wire_of_fromJson hw
termination_by json
decreasing_by
  · simp only [hjson, helements, Json.obj.sizeOf_spec, Json.arr.sizeOf_spec,
      List.cons.sizeOf_spec, Prod.mk.sizeOf_spec]
    omega
  · rcases member with ⟨name, payload⟩
    simp only [hjson, hmembers, Json.obj.sizeOf_spec, List.cons.sizeOf_spec,
      Prod.mk.sizeOf_spec] at hsize ⊢
    omega

theorem fromJson_of_wire {json : Json} {v : AttributeValue} (h : Wire json v) :
    fromJson json = .ok v := by
  rw [fromJson_eq_ok_iff]
  induction h with
  | string text => exact ⟨.string, _, rfl, by simp [fromPayload, Json.text, Except.map]⟩
  | number text => exact ⟨.number, _, rfl, by simp [fromPayload, Json.text, Except.map]⟩
  | binary bytes =>
      refine ⟨.binary, _, rfl, ?_⟩
      simp only [fromPayload, bind_eq_ok_iff, pure_eq_ok_iff]
      exact ⟨_, text_eq_ok_iff.2 rfl, bytes, readBinary_eq_ok_iff.2 rfl, rfl⟩
  | stringSet members =>
      refine ⟨.stringSet, _, rfl, ?_⟩
      rw [fromPayload, texts_eq_ok_iff.2 rfl]
      rfl
  | numberSet members =>
      refine ⟨.numberSet, _, rfl, ?_⟩
      rw [fromPayload, texts_eq_ok_iff.2 rfl]
      rfl
  | binarySet members =>
      refine ⟨.binarySet, _, rfl, ?_⟩
      simp only [fromPayload, bind_eq_ok_iff, pure_eq_ok_iff]
      refine ⟨members.map Base64.encode, texts_eq_ok_iff.2 ?_, members, ?_, rfl⟩
      · rw [List.map_map]
        rfl
      · exact (mapM_eq_ok_iff_eq_map fun _ _ => readBinary_eq_ok_iff).2 rfl
  | boolean value => exact ⟨.boolean, _, rfl, by simp [fromPayload, Json.boolean, Except.map]⟩
  | null value => exact ⟨.null, _, rfl, by simp [fromPayload, Json.boolean, Except.map]⟩
  | list entries each ih =>
      refine ⟨.list, _, rfl, ?_⟩
      simp only [fromPayload, bind_eq_ok_iff, pure_eq_ok_iff, itemsFromJson_eq_ok_iff]
      exact ⟨_, ⟨entries, rfl, rfl, fun e he => fromJson_eq_ok_iff.2 (ih e he)⟩, rfl⟩
  | map entries each ih =>
      refine ⟨.map, _, rfl, ?_⟩
      simp only [fromPayload, bind_eq_ok_iff, pure_eq_ok_iff, fieldsFromJson_eq_ok_iff]
      exact ⟨_, ⟨entries, rfl, rfl, fun e he => fromJson_eq_ok_iff.2 (ih e he)⟩, rfl⟩

theorem fromJson_eq_ok_iff_wire {json : Json} {v : AttributeValue} :
    fromJson json = .ok v ↔ Wire json v :=
  ⟨wire_of_fromJson, fromJson_of_wire⟩

/-! ## The format and the wire forms -/

/-- What has the format is, up to the order of members, the wire form of what it stands for. -/
theorem Wire.ascending_eq {json : Json} {v : AttributeValue} (h : Wire json v) :
    json.ascending = v.toJson := by
  induction h with
  | string text | number text | binary bytes | boolean value | null value => rfl
  | stringSet members | numberSet members | binarySet members =>
      rw [toJson, ascending_obj_singleton, map_ascending_eq_self]
      simp [Json.ascending]
  | list entries each ih =>
      rw [toJson_list, ascending_obj_singleton, Json.ascending, Json.ascendingItems_eq_map,
        List.map_map, List.map_map]
      exact congrArg (fun parts => Json.obj [("L", .arr parts)]) (List.map_congr_left ih)
  | map entries each ih =>
      have hentries := @Fields.map_congr _ _ (fun part => part.1.ascending)
        (fun part => part.2.toJson) entries ih
      rw [toJson_map, ascending_obj_singleton, Json.ascending, Json.ascendingMembers_eq_map,
        ← Fields.ascending_map, Fields.ascending_eq_self (Fields.ascending_ascending _),
        List.map_map, List.map_map]
      exact congrArg (fun parts => Json.obj [("M", .obj (Fields.ascending parts))]) hentries

/-- An object without repeated members comes into order as itself if it has one member. -/
theorem obj_of_ascending_eq_singleton {json : Json} (hdistinct : json.Distinct) {key : String}
    {payload : Json} (h : json.ascending = .obj [(key, payload)]) :
    ∃ other, json = .obj [(key, other)] ∧ other.Distinct ∧ other.ascending = payload := by
  cases hdistinct with
  | null | bool _ | num _ | str _ | arr _ => cases h
  | @obj members names each =>
      have hnames : ((Json.ascendingMembers members).map Prod.fst).Nodup := by
        rw [Json.ascendingMembers_eq_map, List.map_map]
        exact names
      have hperm := Fields.ascending_perm hnames
      rw [Json.obj.inj h] at hperm
      have hmembers := List.perm_singleton.1 hperm.symm
      rw [Json.ascendingMembers_eq_map] at hmembers
      obtain ⟨member, rfl, hmember⟩ := List.map_eq_singleton_iff.1 hmembers
      cases hmember
      exact ⟨member.2, rfl, each member List.mem_cons_self, rfl⟩

/-! ## Wire forms are read -/

theorem eq_str_of_ascending_eq {json : Json} {text : String} (h : json.ascending = .str text) :
    json = .str text := by
  cases json <;> cases h
  rfl

theorem eq_bool_of_ascending_eq {json : Json} {value : Bool} (h : json.ascending = .bool value) :
    json = .bool value := by
  cases json <;> cases h
  rfl

theorem exists_arr_of_ascending_eq {json : Json} {items : List Json}
    (h : json.ascending = .arr items) :
    ∃ others, json = .arr others ∧ others.map Json.ascending = items := by
  cases json <;> cases h
  exact ⟨_, rfl, (Json.ascendingItems_eq_map _).symm⟩

theorem exists_obj_of_ascending_eq {json : Json} {members : List (String × Json)}
    (h : json.ascending = .obj members) :
    ∃ others, json = .obj others ∧
      Fields.ascending (others.map fun member => (member.1, member.2.ascending)) = members := by
  cases json <;> cases h
  exact ⟨_, rfl, by rw [Json.ascendingMembers_eq_map]⟩

/-- An array of texts has nothing to put in order. -/
theorem eq_texts_of_ascending_eq {α : Type} {json : Json} {text : α → String} {members : List α}
    (h : json.ascending = .arr (members.map fun member => .str (text member))) :
    json = .arr (members.map fun member => .str (text member)) := by
  obtain ⟨items, rfl, hitems⟩ := exists_arr_of_ascending_eq h
  refine congrArg Json.arr ?_
  rw [← List.forall₂_eq_eq_eq, List.forall₂_map_right_iff] at hitems ⊢
  rw [List.forall₂_map_left_iff] at hitems
  exact hitems.imp fun _ _ => eq_str_of_ascending_eq

theorem exists_pairs_of_forall {α β : Type} {R : α → β → Prop} {xs : List α}
    (h : ∀ x ∈ xs, ∃ y, R x y) :
    ∃ pairs : List (α × β), xs = pairs.map Prod.fst ∧ ∀ pair ∈ pairs, R pair.1 pair.2 := by
  induction xs with
  | nil => exact ⟨[], rfl, by simp⟩
  | cons x rest ih =>
      obtain ⟨⟨y, hy⟩, hrest⟩ := List.forall_mem_cons.1 h
      obtain ⟨pairs, rfl, heach⟩ := ih hrest
      exact ⟨(x, y) :: pairs, rfl, List.forall_mem_cons.2 ⟨hy, heach⟩⟩

theorem exists_wire_list {items : List Json} (h : ∀ item ∈ items, ∃ w, Wire item w) :
    ∃ w, Wire (.obj [("L", .arr items)]) w := by
  obtain ⟨entries, rfl, hentries⟩ := exists_pairs_of_forall h
  exact ⟨_, .list entries hentries⟩

theorem exists_wire_map {members : List (String × Json)}
    (h : ∀ member ∈ members, ∃ w, Wire member.2 w) : ∃ w, Wire (.obj [("M", .obj members)]) w := by
  obtain ⟨pairs, rfl, hpairs⟩ := exists_pairs_of_forall h
  have hwire := Wire.map (pairs.map fun pair => (pair.1.1, pair.1.2, pair.2))
    (List.forall_mem_map.2 hpairs)
  rw [List.map_map] at hwire
  exact ⟨_, hwire⟩

/-- A wire form with the members of its objects in any order has the format. -/
theorem exists_wire_of_ascending_eq {json : Json} (hdistinct : json.Distinct) {v : AttributeValue}
    (h : json.ascending = v.toJson) : ∃ w, Wire json w := by
  induction v using AttributeValue.induction generalizing json with
  | string text =>
      obtain ⟨payload, rfl, -, hpayload⟩ := obj_of_ascending_eq_singleton hdistinct h
      rw [eq_str_of_ascending_eq hpayload]
      exact ⟨_, .string text⟩
  | number text =>
      obtain ⟨payload, rfl, -, hpayload⟩ := obj_of_ascending_eq_singleton hdistinct h
      rw [eq_str_of_ascending_eq hpayload]
      exact ⟨_, .number text⟩
  | binary bytes =>
      obtain ⟨payload, rfl, -, hpayload⟩ := obj_of_ascending_eq_singleton hdistinct h
      rw [eq_str_of_ascending_eq hpayload]
      exact ⟨_, .binary bytes⟩
  | stringSet members =>
      obtain ⟨payload, rfl, -, hpayload⟩ := obj_of_ascending_eq_singleton hdistinct h
      rw [eq_texts_of_ascending_eq hpayload]
      exact ⟨_, .stringSet members⟩
  | numberSet members =>
      obtain ⟨payload, rfl, -, hpayload⟩ := obj_of_ascending_eq_singleton hdistinct h
      rw [eq_texts_of_ascending_eq hpayload]
      exact ⟨_, .numberSet members⟩
  | binarySet members =>
      obtain ⟨payload, rfl, -, hpayload⟩ := obj_of_ascending_eq_singleton hdistinct h
      rw [eq_texts_of_ascending_eq hpayload]
      exact ⟨_, .binarySet members⟩
  | boolean value =>
      obtain ⟨payload, rfl, -, hpayload⟩ := obj_of_ascending_eq_singleton hdistinct h
      rw [eq_bool_of_ascending_eq hpayload]
      exact ⟨_, .boolean value⟩
  | null value =>
      obtain ⟨payload, rfl, -, hpayload⟩ := obj_of_ascending_eq_singleton hdistinct h
      rw [eq_bool_of_ascending_eq hpayload]
      exact ⟨_, .null value⟩
  | list values ih =>
      rw [toJson_list] at h
      obtain ⟨payload, rfl, hparts, hpayload⟩ := obj_of_ascending_eq_singleton hdistinct h
      obtain ⟨items, rfl, hitems⟩ := exists_arr_of_ascending_eq hpayload
      have heach : ∀ item ∈ items, ∃ w, Wire item w := by
        intro item hitem
        have hmem : item.ascending ∈ values.map toJson := hitems ▸ List.mem_map_of_mem hitem
        obtain ⟨value, hvalue, heq⟩ := List.mem_map.1 hmem
        cases hparts with
        | arr each => exact ih value hvalue (each item hitem) heq.symm
      exact exists_wire_list heach
  | map fields ih =>
      rw [toJson_map] at h
      obtain ⟨payload, rfl, hparts, hpayload⟩ := obj_of_ascending_eq_singleton hdistinct h
      obtain ⟨members, rfl, hmembers⟩ := exists_obj_of_ascending_eq hpayload
      have heach : ∀ member ∈ members, ∃ w, Wire member.2 w := by
        intro member hmember
        cases hparts with
        | obj names each =>
            -- With names that differ no member is replaced, so this one stands in the wire form.
            have hlast := Fields.last?_of_mem names hmember
            have hpair : (member.1, member.2.ascending) ∈
                Fields.ascending (members.map fun member => (member.1, member.2.ascending)) := by
              rw [Fields.mem_ascending, Fields.last?_map, hlast]
              rfl
            rw [hmembers] at hpair
            obtain ⟨field, hfield, heq⟩ := List.mem_map.1 (Fields.mem_of_mem_ascending hpair)
            exact ih field hfield (each member hmember) (Prod.mk.inj heq).2.symm
      exact exists_wire_map heach

/-! ## The bijection -/

theorem agrees_toJson_of_fromJson {json : Json} {v : AttributeValue} (h : fromJson json = .ok v) :
    json.Agrees v.toJson := by
  have hascending := (fromJson_eq_ok_iff_wire.1 h).ascending_eq
  rw [Json.agrees_iff_ascending_eq, hascending, ascending_toJson]

theorem reads_iff_agrees {json : Json} (hdistinct : json.Distinct) {v : AttributeValue} :
    (∃ w, fromJson json = .ok w ∧ w.Agrees v) ↔ json.Agrees v.toJson := by
  constructor
  · intro h
    rcases h with ⟨w, hread, hagrees⟩
    rw [← toJson_eq_of_agrees hagrees]
    exact agrees_toJson_of_fromJson hread
  · intro h
    have hascending : json.ascending = v.toJson := by
      rw [Json.ascending_eq_of_agrees h, ascending_toJson]
    obtain ⟨w, hw⟩ := exists_wire_of_ascending_eq hdistinct hascending
    have hwire : w.toJson = v.toJson := by rw [← hw.ascending_eq, hascending]
    exact ⟨w, fromJson_eq_ok_iff_wire.2 hw, agrees_of_toJson_eq hwire⟩

/--
On JSON values without repeated members, objects taken as unordered, a value is read exactly from
its wire form.  So reading undoes writing on every value, writing undoes reading on all that is
read, different JSON values are not read as one value, and what is no wire form is refused.
-/
theorem wire_bijective (json : Json) (distinct : json.Distinct) :
    (∀ v, (∃ w, fromJson json = .ok w ∧ w.Agrees v) ↔ json.Agrees v.toJson) ∧
      (∀ v : AttributeValue, v.toJson.Distinct ∧ ∃ w, fromJson v.toJson = .ok w ∧ w.Agrees v) ∧
      (∀ v, fromJson json = .ok v → json.Agrees v.toJson) ∧
      (∀ other v w, fromJson json = .ok v → fromJson other = .ok w → v.Agrees w →
        json.Agrees other) ∧
      ((∀ v : AttributeValue, ¬ json.Agrees v.toJson) → ∃ fault, fromJson json = .error fault) := by
  refine ⟨fun v => reads_iff_agrees distinct, fun v => ?_, fun v => agrees_toJson_of_fromJson,
    fun other v w hread hother hagrees => ?_, fun hnone => ?_⟩
  · have hself : v.toJson.Agrees v.toJson := Json.agrees_iff_ascending_eq.2 rfl
    exact ⟨distinct_toJson v, (reads_iff_agrees (distinct_toJson v)).2 hself⟩
  · have hjson := Json.ascending_eq_of_agrees (agrees_toJson_of_fromJson hread)
    have hsecond := Json.ascending_eq_of_agrees (agrees_toJson_of_fromJson hother)
    rw [Json.agrees_iff_ascending_eq, hjson, hsecond, toJson_eq_of_agrees hagrees]
  · cases hread : fromJson json with
    | error fault => exact ⟨fault, rfl⟩
    | ok v => exact absurd (agrees_toJson_of_fromJson hread) (hnone v)

/-- A map with its members out of order, read from its wire form. -/
theorem shuffled_map_wire_bijective :
    ∃ w, fromJson (.obj [("M", .obj [("b", .obj [("SS", .arr [.str "x", .str "a"])]),
        ("a", .obj [("B", .str "AQ==")])])]) = .ok w ∧
      w.Agrees (.map [("a", .binary [1]), ("b", .stringSet ["x", "a"])]) := by
  refine ((wire_bijective _ ?_).1 _).2 (Json.agrees_iff_ascending_eq.2 rfl)
  refine distinct_obj_singleton (.obj (by decide) ?_)
  simp only [List.forall_mem_cons]
  refine ⟨distinct_obj_singleton (.arr ?_), distinct_obj_singleton (.str _), by simp⟩
  simp only [List.forall_mem_cons]
  exact ⟨.str _, .str _, by simp⟩

end DynamoExpr.AttributeValue
