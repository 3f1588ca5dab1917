import DynamoExpr.Proofs.Alias.Lane
import Std.Data.HashMap

/-!
# Hash indexes of lanes

A hash map from entries to numbers can stand in for the search of a lane.  It goes on to do so when
an entry is put at the end of the lane and into the map under the length of the lane.
-/

namespace DynamoExpr.Lane

variable {α : Type} [BEq α]

theorem number?_isSome_iff {x : α} {lane : List α} :
    (number? x lane).isSome = true ↔ Holds x lane := by
  by_cases h : Holds x lane
  · simp [number?_of_holds h, h]
  · simp [number?_of_not_holds h, h]

theorem number?_concat (x y : α) (lane : List α) :
    number? y (lane ++ [x]) =
      (number? y lane).or (if (x == y) = true then some lane.length else none) := by
  rw [number?, List.findIdx?_append]
  by_cases h : (x == y) = true <;> simp [number?, h]

theorem holds_congr [EquivBEq α] {x y : α} (h : (x == y) = true) {lane : List α} :
    Holds x lane ↔ Holds y lane :=
  ⟨fun ⟨z, hz, hzx⟩ => ⟨z, hz, BEq.trans hzx h⟩,
    fun ⟨z, hz, hzy⟩ => ⟨z, hz, BEq.trans hzy (BEq.symm h)⟩⟩

/-- Where no two entries are equal, an entry that equals `x` is the one that is found. -/
theorem number?_of_getElem? [EquivBEq α] {x y : α} {lane : List α} (h : Separate lane) {i : Nat}
    (hy : lane[i]? = some y) (heq : (y == x) = true) : number? x lane = some i := by
  have hin : Holds x lane := ⟨y, List.mem_of_getElem? hy, heq⟩
  obtain ⟨z, hz, hzx⟩ := getElem?_place hin
  obtain ⟨hi, rfl⟩ := List.getElem?_eq_some_iff.1 hy
  obtain ⟨hplace, rfl⟩ := List.getElem?_eq_some_iff.1 hz
  have hdistinct : ∀ (j k : Nat) (hj : j < lane.length) (hk : k < lane.length),
      (lane[j] == x) = true → (lane[k] == x) = true → ¬ j < k := by
    intro j k hj hk hjx hkx hjk
    have hne := List.pairwise_iff_getElem.1 h j k hj hk hjk
    rw [BEq.trans hjx (BEq.symm hkx)] at hne
    cases hne
  have hle := hdistinct _ _ hplace hi hzx heq
  have hge := hdistinct _ _ hi hplace heq hzx
  rw [number?_of_holds hin, Option.some.injEq]
  omega

variable [Hashable α]

/-- The hash map finds what a search of the lane finds. -/
structure Indexes (index : Std.HashMap α Nat) (lane : List α) : Prop where
  number : ∀ x, index[x]? = number? x lane
  size : index.size = lane.length

theorem indexes_empty : Indexes (∅ : Std.HashMap α Nat) [] where
  number x := by simp [number?]
  size := by simp

variable [EquivBEq α] [LawfulHashable α] {index : Std.HashMap α Nat} {lane : List α}

theorem Indexes.mem_iff (h : Indexes index lane) {x : α} : x ∈ index ↔ Holds x lane := by
  rw [← number?_isSome_iff, ← h.number, Std.HashMap.isSome_getElem?_iff_mem]

/-- What is not on the lane yet is added to both. -/
theorem Indexes.insert (h : Indexes index lane) {x : α} (hx : ¬ Holds x lane) :
    Indexes (index.insert x lane.length) (lane ++ [x]) where
  number y := by
    rw [Std.HashMap.getElem?_insert, number?_concat, h.number]
    by_cases hxy : (x == y) = true
    · have hy : ¬ Holds y lane := fun hy => hx ((holds_congr hxy).2 hy)
      simp [hxy, number?_of_not_holds hy]
    · simp [hxy]
  size := by
    rw [Std.HashMap.size_insert, if_neg (fun hmem => hx (h.mem_iff.1 hmem)), h.size,
      List.length_append, List.length_singleton]

end DynamoExpr.Lane
