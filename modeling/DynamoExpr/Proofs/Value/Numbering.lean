import DynamoExpr.Proofs.Alias.Index
import DynamoExpr.Proofs.Value.Hashing

/-!
# Numbering values

Values numbered through a hash map, by the order in which each is seen first, have one number
exactly when they are equal.  The map relies on equality being an equivalence and on equal values
having one hash.
-/

namespace DynamoExpr.AttributeValue

/-- On top of a lane that is indexed, values get the places at which a search would find them. -/
theorem numberFrom_eq {seen : Std.HashMap AttributeValue Nat} {lane : List AttributeValue}
    (h : Lane.Indexes seen lane) (values : List AttributeValue) :
    numberFrom seen values =
      (values.map (Lane.place · (Lane.enterAll lane values)),
        (Lane.enterAll lane values).length) := by
  induction values generalizing seen lane with
  | nil =>
      rw [numberFrom, h.size]
      rfl
  | cons value rest ih =>
      have hplace : Lane.place value (Lane.enterAll lane (value :: rest)) =
          (Lane.enter value lane).1 := by
        rw [Lane.enter_fst]
        exact Lane.place_of_extension (Lane.holds_enter value lane) (Lane.prefix_enterAll _ rest)
      rw [List.map_cons, hplace, Lane.enterAll_cons, numberFrom, h.number]
      by_cases hin : Lane.Holds value lane
      · rw [Lane.number?_of_holds hin, Lane.enter_of_holds hin]
        simp only [ih h]
      · rw [Lane.number?_of_not_holds hin, Lane.enter_of_not_holds hin]
        simp only [h.size, ih (h.insert hin)]

/-- The values have these numbers when they are numbered by first occurrence. -/
structure FirstSeen (values : List AttributeValue) (indexes : List Nat) (distinct : Nat) :
    Prop where
  /-- There is a number for each value. -/
  length : indexes.length = values.length
  /-- Numbers that come up for the first time ascend from zero without a gap. -/
  ascending : indexes.eraseDups = List.range distinct
  /-- Two values have one number exactly when they are equal. -/
  same_iff : ∀ (i j : Nat) v w m n, values[i]? = some v → indexes[i]? = some m →
    values[j]? = some w → indexes[j]? = some n → (m = n ↔ (v == w) = true)

theorem firstSeen_numbering (values : List AttributeValue) :
    FirstSeen values (numbering values).1 (numbering values).2 := by
  rw [numbering, numberFrom_eq Lane.indexes_empty]
  refine ⟨List.length_map _, Lane.eraseDups_map_place values, ?_⟩
  intro i j v w m n hv hm hw hn
  simp only [List.getElem?_map, hv, hw, Option.map_some, Option.some.injEq] at hm hn
  subst hm
  subst hn
  exact Lane.place_eq_place_iff (Lane.holds_enterAll (List.mem_of_getElem? hv) [])
    (Lane.holds_enterAll (List.mem_of_getElem? hw) [])

/--
Equality is an equivalence that compares values part by part.  A hasher is fed the same writes for
equal values, whatever the order in which their maps and sets are kept, and so values numbered
through a hash map have one number exactly when they are equal.
-/
theorem equality_and_hash_lawful :
    Equivalence (fun a b : AttributeValue => (a == b) = true) ∧
    (∀ a b : AttributeValue, (a == b) = true ↔ a.Matches b) ∧
    (∀ (a : AttributeValue) (fed : List HashWrite), a.Feeds fed ↔ fed = a.hashFeed) ∧
    (∀ a b : AttributeValue, (a == b) = true → a.hashFeed = b.hashFeed ∧ hash a = hash b) ∧
    ∀ values : List AttributeValue, FirstSeen values (numbering values).1 (numbering values).2 := by
  refine ⟨⟨fun _ => BEq.rfl, BEq.symm, BEq.trans⟩, fun _ _ => beq_iff_matches,
    fun _ _ => feeds_iff, fun a b h => ?_, firstSeen_numbering⟩
  exact ⟨hashFeed_eq_of_beq h, hash_eq h⟩

/-- A map of sets, with everything in another order. -/
theorem reordered_equality_and_hash :
    let a : AttributeValue :=
      .map [("s", .stringSet ["x", "y", "x"]), ("l", .list [.numberSet ["2", "1"], .null true])]
    let b : AttributeValue :=
      .map [("l", .list [.numberSet ["1", "2"], .null true]), ("s", .stringSet ["y", "x", "x"])]
    (a == b) = true ∧ a.Matches b ∧ (∀ fed, a.Feeds fed ↔ b.Feeds fed) ∧
      FirstSeen [a, .null true, b] (numbering [a, .null true, b]).1
        (numbering [a, .null true, b]).2 := by
  intro a b
  have hequal : (a == b) = true := by rfl
  obtain ⟨-, hmatches, hfeeds, hfed, hnumbers⟩ := equality_and_hash_lawful
  refine ⟨hequal, (hmatches a b).1 hequal, fun fed => ?_, hnumbers _⟩
  rw [hfeeds, hfeeds, (hfed a b hequal).1]

end DynamoExpr.AttributeValue
