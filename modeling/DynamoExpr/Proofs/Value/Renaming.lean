import DynamoExpr.Proofs.Value.Equality
import DynamoExpr.Proofs.Value.Storable

/-!
# A change of the strings in values

Replacing the text of every string value keeps the type of a value and the outcome of its check,
and by an injective replacement values stay equal or different as they were.
-/

namespace DynamoExpr.AttributeValue

mutual

/-- The value with each string in it replaced, at every depth; names of fields and sets stay. -/
def mapText (s : String → String) : AttributeValue → AttributeValue
  | .string text => .string (s text)
  | .list items => .list (mapTextItems s items)
  | .map fields => .map (mapTextFields s fields)
  | other => other

def mapTextItems (s : String → String) : List AttributeValue → List AttributeValue
  | [] => []
  | item :: rest => mapText s item :: mapTextItems s rest

def mapTextFields (s : String → String) :
    List (String × AttributeValue) → List (String × AttributeValue)
  | [] => []
  | (name, value) :: rest => (name, mapText s value) :: mapTextFields s rest

end

variable {s : String → String}

theorem mapText_list (items : List AttributeValue) :
    (AttributeValue.list items).mapText s = .list (items.map (mapText s)) := by
  have hitems : mapTextItems s items = items.map (mapText s) := by
    induction items with
    | nil => rfl
    | cons item rest ih => rw [mapTextItems, ih, List.map_cons]
  rw [mapText, hitems]

theorem mapText_map (fields : List (String × AttributeValue)) :
    (AttributeValue.map fields).mapText s =
      .map (fields.map fun field => (field.1, field.2.mapText s)) := by
  have hfields : mapTextFields s fields = fields.map fun field => (field.1, field.2.mapText s) := by
    induction fields with
    | nil => rfl
    | cons field rest ih => rw [mapTextFields, ih, List.map_cons]
  rw [mapText, hfields]

theorem type_mapText (v : AttributeValue) : (v.mapText s).type = v.type := by
  cases v <;> rfl

theorem canonical_mapText (v : AttributeValue) :
    (v.mapText s).canonical = v.canonical.mapText s := by
  induction v using AttributeValue.induction with
  | string text | number text | binary bytes | stringSet members | numberSet members
  | binarySet members | boolean value | null value => rfl
  | list items ih =>
      rw [mapText_list, canonical, canonical, canonicalItems_eq_map, canonicalItems_eq_map,
        mapText_list, List.map_map, List.map_map]
      exact congrArg AttributeValue.list (List.map_congr_left ih)
  | map fields ih =>
      have hfields := @Fields.map_congr _ _ (fun v => (v.mapText s).canonical)
        (fun v => v.canonical.mapText s) fields ih
      rw [mapText_map, canonical, canonical, canonicalFields_eq_map, canonicalFields_eq_map,
        mapText_map, ← Fields.ascending_map, List.map_map, List.map_map]
      exact congrArg (fun parts => AttributeValue.map (Fields.ascending parts)) hfields

theorem eq_of_map_eq {α β : Type} {f : α → β} {xs ys : List α}
    (hf : ∀ x ∈ xs, ∀ y, f x = f y → x = y) (h : xs.map f = ys.map f) : xs = ys := by
  induction xs generalizing ys with
  | nil => exact (List.map_eq_nil_iff.1 h.symm).symm
  | cons x rest ih =>
      obtain ⟨y, more, rfl, hy, hmore⟩ := List.map_eq_cons_iff.1 h.symm
      obtain ⟨hx, hrest⟩ := List.forall_mem_cons.1 hf
      rw [hx y hy.symm, ih hrest hmore.symm]

theorem type_eq_of_mapText_eq {v w : AttributeValue} (h : v.mapText s = w.mapText s) :
    v.type = w.type := by
  have htype := congrArg type h
  rwa [type_mapText, type_mapText] at htype

theorem mapText_injective (hs : Function.Injective s) : Function.Injective (mapText s) := by
  intro v w h
  induction v using AttributeValue.induction generalizing w with
  | string text =>
      cases w <;> cases type_eq_of_mapText_eq h
      rw [hs (AttributeValue.string.inj h)]
  | number text | binary bytes | stringSet members | numberSet members | binarySet members
  | boolean value | null value =>
      cases w <;> cases type_eq_of_mapText_eq h
      exact h
  | list items ih =>
      cases w <;> cases type_eq_of_mapText_eq h
      rw [mapText_list, mapText_list] at h
      refine congrArg AttributeValue.list (eq_of_map_eq ?_ (AttributeValue.list.inj h))
      intro item hitem other heq
      exact ih item hitem heq
  | map fields ih =>
      cases w <;> cases type_eq_of_mapText_eq h
      rw [mapText_map, mapText_map] at h
      refine congrArg AttributeValue.map (eq_of_map_eq ?_ (AttributeValue.map.inj h))
      intro field hfield other heq
      obtain ⟨hname, hvalue⟩ := Prod.mk.inj heq
      exact Prod.ext hname (ih field hfield hvalue)

/-- An injective change keeps what is equal and what is not. -/
theorem beq_mapText (hs : Function.Injective s) (v w : AttributeValue) :
    (v.mapText s == w.mapText s) = (v == w) := by
  rw [Bool.eq_iff_iff, beq_iff_canonical_eq, beq_iff_canonical_eq, canonical_mapText,
    canonical_mapText]
  exact (mapText_injective hs).eq_iff

theorem checkItems_map {f : AttributeValue → AttributeValue} {items : List AttributeValue}
    (h : ∀ item ∈ items, (f item).check = item.check) :
    checkItems (items.map f) = checkItems items := by
  induction items with
  | nil => rfl
  | cons item rest ih =>
      obtain ⟨hitem, hrest⟩ := List.forall_mem_cons.1 h
      rw [List.map_cons, checkItems, checkItems, hitem, ih hrest]

/-- The check never looks at the text of a string. -/
theorem check_mapText (v : AttributeValue) : (v.mapText s).check = v.check := by
  induction v using AttributeValue.induction with
  | string text | number text | binary bytes | stringSet members | numberSet members
  | binarySet members | boolean value | null value => rfl
  | list items ih => rw [mapText_list, check, check, checkItems_map ih]
  | map fields ih =>
      have hfields := @Fields.map_congr _ _ (fun v => (v.mapText s).check) check fields ih
      rw [mapText_map, check, check, checkFields_eq_map, checkFields_eq_map, List.map_map]
      exact congrArg (fun parts => (Fields.ascending parts).forM Prod.snd) hfields

end DynamoExpr.AttributeValue
