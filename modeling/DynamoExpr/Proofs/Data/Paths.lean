import DynamoExpr.Path
import DynamoExpr.Proofs.Data.Conversion
import DynamoExpr.Proofs.Fields

/-!
# Paths into data

Data beside the result of its conversion, one step at a time.  A step leads to a part and to the
node that the part converts to, or to nothing on both sides.
-/

namespace DynamoExpr

/-! ## Steps and paths -/

namespace AttributeValue

def step? : AttributeValue → PathStep String → Option AttributeValue
  | .list items, .index i => items[i]?
  | .map fields, .attribute name => Fields.last? name fields
  | _, _ => none

def at? (v : AttributeValue) : List (PathStep String) → Option AttributeValue
  | [] => some v
  | step :: rest => (v.step? step).bind fun node => node.at? rest

end AttributeValue

namespace Data

/-- The data without the options and type names around it. -/
def bare : Data → Data
  | .present inner => bare inner
  | .wrapped inner => bare inner
  | data => data

/-- The entries by the texts of their keys. -/
def named (entries : List (Data × Data)) : List (String × Data) :=
  entries.filterMap fun entry => (keyText entry.1).toOption.map fun name => (name, entry.2)

/-- The part one step into the data, in the place of a value. -/
def step? : Data → PathStep String → Option Data
  | .present inner, step => step? inner step
  | .wrapped inner, step => step? inner step
  | .bytes content, .index i => content[i]?.map fun byte => .int byte.toNat
  | .seq items, .index i => items[i]?
  | .map entries, .attribute name => Fields.last? name (named entries)
  | .record fields, .attribute name => Fields.last? name fields
  | .tagged alternative inner, .attribute name => if alternative = name then some inner else none
  | .json (.arr items), .index i => items[i]?.map .json
  | .json (.obj members), .attribute name => (Fields.last? name members).map .json
  | _, _ => none

def at? (data : Data) : List (PathStep String) → Option Data
  | [] => some data.bare
  | step :: rest => (data.step? step).bind fun part => part.at? rest

end Data

/-! ## Corresponding lists -/

theorem forall₂_getElem? {α β : Type} {R : α → β → Prop} {xs : List α} {ys : List β}
    (h : List.Forall₂ R xs ys) (i : Nat) : Option.Rel R xs[i]? ys[i]? := by
  induction h generalizing i with
  | nil => exact .none
  | cons hxy _ ih =>
      cases i with
      | zero => exact .some hxy
      | succ i => exact ih i

theorem optionRel_or {α β : Type} {R : α → β → Prop} {x x' : Option α} {y y' : Option β}
    (h : Option.Rel R x y) (h' : Option.Rel R x' y') : Option.Rel R (x.or x') (y.or y') := by
  cases h with
  | some hxy => exact .some hxy
  | none => exact h'

theorem optionRel_imp {α β : Type} {R S : α → β → Prop} {x : Option α} {y : Option β}
    (h : Option.Rel R x y) (himp : ∀ a b, R a b → S a b) : Option.Rel S x y := by
  cases h with
  | some hxy => exact .some (himp _ _ hxy)
  | none => exact .none

theorem optionRel_some_left {α β : Type} {R : α → β → Prop} {x : Option α} {y : Option β} {a : α}
    (h : Option.Rel R x y) (hx : x = some a) : ∃ b, y = some b ∧ R a b := by
  subst hx
  cases h with
  | some hab => exact ⟨_, rfl, hab⟩

theorem optionRel_some_right {α β : Type} {R : α → β → Prop} {x : Option α} {y : Option β} {b : β}
    (h : Option.Rel R x y) (hy : y = some b) : ∃ a, x = some a ∧ R a b := by
  subst hy
  cases h with
  | some hab => exact ⟨_, rfl, hab⟩

theorem optionRel_map_right {α β γ : Type} {R : α → β → Prop} {f : γ → β} {x : Option α}
    {y : Option γ} (h : Option.Rel (fun a c => R a (f c)) x y) : Option.Rel R x (y.map f) := by
  cases h with
  | some hxy => exact .some hxy
  | none => exact .none

theorem optionRel_map_map {α β γ : Type} {R : α → β → Prop} {f : γ → α} {g : γ → β}
    (h : ∀ c, R (f c) (g c)) (x : Option γ) : Option.Rel R (x.map f) (x.map g) := by
  cases x with
  | some c => exact .some (h c)
  | none => exact .none

theorem optionRel_bind {α β γ δ : Type} {R : α → β → Prop} {S : γ → δ → Prop} {f : α → Option γ}
    {g : β → Option δ} {x : Option α} {y : Option β} (h : Option.Rel R x y)
    (hnext : ∀ a b, x = some a → R a b → Option.Rel S (f a) (g b)) :
    Option.Rel S (x.bind f) (y.bind g) := by
  cases h with
  | some hxy => exact hnext _ _ rfl hxy
  | none => exact .none

/-- Of fields that correspond in order, those that count correspond. -/
theorem Fields.forall₂_last? {α β : Type} {R : α → β → Prop} {fields : List (String × α)}
    {others : List (String × β)}
    (h : List.Forall₂ (fun field other => field.1 = other.1 ∧ R field.2 other.2) fields others)
    (name : String) : Option.Rel R (last? name fields) (last? name others) := by
  induction h with
  | nil => exact .none
  | cons hfirst _ ih =>
      rw [last?, last?, hfirst.1]
      refine optionRel_or ih ?_
      split
      · exact .some hfirst.2
      · exact .none

/-! ## One step -/

namespace AttributeValue

theorem ofJsonItems_eq_map (items : List Json) : ofJsonItems items = items.map ofJson := by
  induction items with
  | nil => rfl
  | cons item rest ih => rw [ofJsonItems, ih, List.map_cons]

theorem ofJsonMembers_eq_map (members : List (String × Json)) :
    ofJsonMembers members = members.map fun member => (member.1, ofJson member.2) := by
  induction members with
  | nil => rfl
  | cons member rest ih => rw [ofJsonMembers, ih, List.map_cons]

theorem step?_index (items : List Json) (i : Nat) :
    (ofJson (.arr items)).step? (.index i) = items[i]?.map ofJson := by
  rw [ofJson, ofJsonItems_eq_map, step?, List.getElem?_map]

theorem step?_attribute (members : List (String × Json)) (name : String) :
    (ofJson (.obj members)).step? (.attribute name) = (Fields.last? name members).map ofJson := by
  rw [ofJson, ofJsonMembers_eq_map, step?, Fields.last?_ascending, Fields.last?_map]

end AttributeValue

namespace Data

def Converts (part : Data) (node : AttributeValue) : Prop := part.toValue = .ok node

theorem converts_json (value : Json) : Converts (.json value) (.ofJson value) := rfl

theorem converts_byte (byte : UInt8) :
    Converts (.int byte.toNat) (.ofJson (.num (.int byte.toNat))) :=
  toValue_eq_ok_iff.2 ⟨rfl, _, toJson_of_isWord (AttributeValue.isWord_byte byte), rfl⟩

theorem forall₂_itemsToJson {items : List Data} {values : List Json}
    (hfinite : checkItems items = .ok ()) (hjson : itemsToJson items = .ok values) :
    List.Forall₂ (fun item value => item.Converts (.ofJson value)) items values := by
  rw [checkItems_eq_ok_iff] at hfinite
  rw [itemsToJson_eq_mapM, mapM_eq_ok_iff] at hjson
  refine ((List.forall₂_and_left _ _).2 ⟨hfinite, hjson⟩).imp ?_
  rintro item value ⟨hitem, hvalue⟩
  exact toValue_eq_ok_iff.2 ⟨hitem, value, hvalue, rfl⟩

theorem forall₂_fieldsToJson {fields : List (String × Data)} {members : List (String × Json)}
    (hfinite : checkFields fields = .ok ()) (hjson : fieldsToJson fields = .ok members) :
    List.Forall₂ (fun field member =>
      field.1 = member.1 ∧ field.2.Converts (.ofJson member.2)) fields members := by
  rw [checkFields_eq_ok_iff] at hfinite
  rw [fieldsToJson_eq_mapM, mapM_eq_ok_iff] at hjson
  refine ((List.forall₂_and_left _ _).2 ⟨hfinite, hjson⟩).imp ?_
  rintro field member ⟨hfield, hmember⟩
  obtain ⟨hname, hpayload⟩ := fieldToJson_eq_ok_iff.1 hmember
  exact ⟨hname, toValue_eq_ok_iff.2 ⟨hfield, member.2, hpayload, rfl⟩⟩

/-- Every key has a text, so no entry is left out. -/
theorem forall₂_entriesToJson {entries : List (Data × Data)} {members : List (String × Json)}
    (hfinite : checkEntries entries = .ok ()) (hjson : entriesToJson entries = .ok members) :
    List.Forall₂ (fun field member =>
      field.1 = member.1 ∧ field.2.Converts (.ofJson member.2)) (named entries) members := by
  rw [checkEntries_eq_ok_iff] at hfinite
  rw [entriesToJson_eq_mapM, mapM_eq_ok_iff] at hjson
  induction hjson with
  | nil => exact .nil
  | @cons entry member rest members hentry _ ih =>
      obtain ⟨hfirst, hrest⟩ := List.forall_mem_cons.1 hfinite
      obtain ⟨hname, hpayload⟩ := entryToJson_eq_ok_iff.1 hentry
      have hnamed : named (entry :: rest) = (member.1, entry.2) :: named rest := by
        rw [named, List.filterMap_cons_some]
        · rfl
        · rw [hname]
          rfl
      rw [hnamed]
      exact .cons ⟨rfl, toValue_eq_ok_iff.2 ⟨hfirst.2, member.2, hpayload, rfl⟩⟩ (ih hrest)

/-- One step into the data leads to a part that converts to the node one step into the result. -/
theorem converts_step {data : Data} {json : Json} (hfinite : checkFinite data = .ok ())
    (hjson : toJson data = .ok json) (step : PathStep String) :
    Option.Rel Converts (data.step? step) ((AttributeValue.ofJson json).step? step) := by
  induction data using Data.induction with
  | int value =>
      rw [toJson, intJson] at hjson
      split at hjson <;> cases hjson
      cases step <;> exact .none
  | single value =>
      cases hjson
      cases Numeral.widen value <;> cases step <;> exact .none
  | double value =>
      cases hjson
      cases value <;> cases step <;> exact .none
  | bytes content =>
      cases hjson
      rcases step with name | i
      · exact .none
      · rw [AttributeValue.step?_index, List.getElem?_map, Option.map_map, step?]
        exact optionRel_map_map converts_byte _
  | present inner ih => exact ih hfinite hjson
  | wrapped inner ih => exact ih hfinite hjson
  | seq items ih =>
      obtain ⟨values, hvalues, rfl⟩ := map_eq_ok_iff.1 hjson
      rcases step with name | i
      · exact .none
      · rw [AttributeValue.step?_index, step?]
        exact optionRel_map_right (forall₂_getElem? (forall₂_itemsToJson hfinite hvalues) i)
  | map entries ih =>
      obtain ⟨members, hmembers, rfl⟩ := map_eq_ok_iff.1 hjson
      rcases step with name | i
      · rw [AttributeValue.step?_attribute, step?, Fields.last?_ascending]
        exact optionRel_map_right
          (Fields.forall₂_last? (forall₂_entriesToJson hfinite hmembers) name)
      · exact .none
  | record fields ih =>
      obtain ⟨members, hmembers, rfl⟩ := map_eq_ok_iff.1 hjson
      rcases step with name | i
      · rw [AttributeValue.step?_attribute, step?, Fields.last?_ascending]
        exact optionRel_map_right
          (Fields.forall₂_last? (forall₂_fieldsToJson hfinite hmembers) name)
      · exact .none
  | tagged alternative inner ih =>
      obtain ⟨payload, hpayload, rfl⟩ := map_eq_ok_iff.1 hjson
      rcases step with name | i
      · rw [AttributeValue.step?_attribute, step?, Fields.last?, Fields.last?, Option.none_or]
        split
        · exact .some (toValue_eq_ok_iff.2 ⟨hfinite, payload, hpayload, rfl⟩)
        · exact .none
      · exact .none
  | failing reason => cases hfinite
  | json value =>
      cases hjson
      cases json with
      | arr items =>
          rcases step with name | i
          · exact .none
          · rw [AttributeValue.step?_index, step?]
            exact optionRel_map_map converts_json _
      | obj members =>
          rcases step with name | i
          · rw [AttributeValue.step?_attribute, step?]
            exact optionRel_map_map converts_json _
          · exact .none
      | num number => cases number <;> cases step <;> exact .none
      | _ => cases step <;> exact .none
  | _ =>
      cases hjson
      cases step <;> exact .none

end Data

end DynamoExpr
