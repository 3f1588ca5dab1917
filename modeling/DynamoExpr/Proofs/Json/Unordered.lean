import DynamoExpr.Json.Basic
import DynamoExpr.Proofs.Fields

/-!
# JSON values with unordered objects

Two JSON values agree when they differ in the order of object members only, at every depth.  The
ascending form is the same for exactly these.
-/

namespace DynamoExpr.Json

/-- Induction over a JSON value, the hypothesis for a container being about each of its parts. -/
@[elab_as_elim]
theorem induction {motive : Json → Prop} (null : motive .null)
    (bool : ∀ value, motive (.bool value)) (num : ∀ value, motive (.num value))
    (str : ∀ value, motive (.str value))
    (arr : ∀ items, (∀ item ∈ items, motive item) → motive (.arr items))
    (obj : ∀ members, (∀ member ∈ members, motive member.2) → motive (.obj members))
    (json : Json) : motive json := by
  refine @Json.rec motive (fun items => ∀ item ∈ items, motive item)
    (fun members => ∀ member ∈ members, motive member.2) (fun member => motive member.2)
    null bool num str arr obj ?_ ?_ ?_ ?_ ?_ json
  · simp
  · intro first rest hfirst hrest
    exact List.forall_mem_cons.2 ⟨hfirst, hrest⟩
  · simp
  · intro first rest hfirst hrest
    exact List.forall_mem_cons.2 ⟨hfirst, hrest⟩
  · intro name first hfirst
    exact hfirst

inductive Distinct : Json → Prop
  | null : Distinct .null
  | bool (value : Bool) : Distinct (.bool value)
  | num (value : JsonNumber) : Distinct (.num value)
  | str (value : String) : Distinct (.str value)
  | arr {items : List Json} (each : ∀ item ∈ items, Distinct item) : Distinct (.arr items)
  | obj {members : List (String × Json)} (names : (members.map Prod.fst).Nodup)
      (each : ∀ member ∈ members, Distinct member.2) : Distinct (.obj members)

/-- The same value where objects are maps: equal names lead to values that agree. -/
inductive Agrees : Json → Json → Prop
  | null : Agrees .null .null
  | bool (value : Bool) : Agrees (.bool value) (.bool value)
  | num (value : JsonNumber) : Agrees (.num value) (.num value)
  | str (value : String) : Agrees (.str value) (.str value)
  | arr {items others : List Json} (length : items.length = others.length)
      (each : ∀ (i : Nat) x y, items[i]? = some x → others[i]? = some y → Agrees x y) :
      Agrees (.arr items) (.arr others)
  | obj {members others : List (String × Json)}
      (names : ∀ name, name ∈ members.map Prod.fst ↔ name ∈ others.map Prod.fst)
      (each : ∀ name x y, Fields.last? name members = some x → Fields.last? name others = some y →
        Agrees x y) :
      Agrees (.obj members) (.obj others)

theorem ascendingItems_eq_map (items : List Json) : ascendingItems items = items.map ascending := by
  induction items with
  | nil => rfl
  | cons item rest ih => rw [ascendingItems, ih, List.map_cons]

theorem ascendingMembers_eq_map (members : List (String × Json)) :
    ascendingMembers members = members.map fun member => (member.1, member.2.ascending) := by
  induction members with
  | nil => rfl
  | cons member rest ih => rw [ascendingMembers, ih, List.map_cons]

theorem ascending_eq_of_agrees {j k : Json} (h : j.Agrees k) : j.ascending = k.ascending := by
  induction h with
  | null => rfl
  | bool value => rfl
  | num value => rfl
  | str value => rfl
  | arr length each ih =>
      rw [ascending, ascending, ascendingItems_eq_map, ascendingItems_eq_map]
      exact congrArg Json.arr (Fields.map_eq_map_iff.2 ⟨length, ih⟩)
  | obj names each ih =>
      rw [ascending, ascending, ascendingMembers_eq_map, ascendingMembers_eq_map]
      exact congrArg Json.obj (Fields.ascending_map_eq_iff.2 ⟨names, ih⟩)

theorem agrees_of_ascending_eq {j k : Json} (h : j.ascending = k.ascending) : j.Agrees k := by
  induction j using Json.induction generalizing k with
  | null =>
      cases k <;> cases h
      exact .null
  | bool value =>
      cases k <;> cases h
      exact .bool value
  | num value =>
      cases k <;> cases h
      exact .num value
  | str value =>
      cases k <;> cases h
      exact .str value
  | arr items ih =>
      cases k <;> try cases h
      rename_i others
      rw [ascending, ascending, ascendingItems_eq_map, ascendingItems_eq_map] at h
      obtain ⟨hlength, heach⟩ := Fields.map_eq_map_iff.1 (Json.arr.inj h)
      exact .arr hlength fun i x y hx hy => ih x (List.mem_of_getElem? hx) (heach i x y hx hy)
  | obj members ih =>
      cases k <;> try cases h
      rename_i others
      rw [ascending, ascending, ascendingMembers_eq_map, ascendingMembers_eq_map] at h
      obtain ⟨hnames, heach⟩ := Fields.ascending_map_eq_iff.1 (Json.obj.inj h)
      exact .obj hnames fun name x y hx hy =>
        ih (name, x) (Fields.mem_of_last? hx) (heach name x y hx hy)

theorem agrees_iff_ascending_eq {j k : Json} : j.Agrees k ↔ j.ascending = k.ascending :=
  ⟨ascending_eq_of_agrees, agrees_of_ascending_eq⟩

end DynamoExpr.Json
