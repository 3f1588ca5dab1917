import DynamoExpr.Proofs.Value.Members
import Mathlib.Data.List.Basic

/-!
# Equality and hashing of attribute values

What it means for two values to be equal, and what a hasher is fed for a value, each said part by
part and without a canonical form.  Equal values feed a hasher the same writes.
-/

namespace DynamoExpr.AttributeValue

/--
The same kind with the same payload: sets by their members in any order, repetitions counted, lists
item by item, and maps name by name.
-/
inductive Matches : AttributeValue → AttributeValue → Prop
  | string (text : String) : Matches (.string text) (.string text)
  | number (text : String) : Matches (.number text) (.number text)
  | binary (bytes : List UInt8) : Matches (.binary bytes) (.binary bytes)
  | stringSet {members others : List String} (perm : members.Perm others) :
      Matches (.stringSet members) (.stringSet others)
  | numberSet {members others : List String} (perm : members.Perm others) :
      Matches (.numberSet members) (.numberSet others)
  | binarySet {members others : List (List UInt8)} (perm : members.Perm others) :
      Matches (.binarySet members) (.binarySet others)
  | boolean (value : Bool) : Matches (.boolean value) (.boolean value)
  | null (value : Bool) : Matches (.null value) (.null value)
  | list {items others : List AttributeValue} (length : items.length = others.length)
      (each : ∀ (i : Nat) x y, items[i]? = some x → others[i]? = some y → Matches x y) :
      Matches (.list items) (.list others)
  | map {fields others : List (String × AttributeValue)}
      (names : ∀ name, name ∈ fields.map Prod.fst ↔ name ∈ others.map Prod.fst)
      (each : ∀ name x y, Fields.last? name fields = some x → Fields.last? name others = some y →
        Matches x y) :
      Matches (.map fields) (.map others)

theorem canonical_list (items : List AttributeValue) :
    (AttributeValue.list items).canonical = .list (items.map canonical) := by
  rw [canonical, canonicalItems_eq_map]

theorem canonical_map (fields : List (String × AttributeValue)) :
    (AttributeValue.map fields).canonical =
      .map (Fields.ascending (fields.map fun field => (field.1, field.2.canonical))) := by
  rw [canonical, canonicalFields_eq_map]

theorem canonical_eq_of_matches {a b : AttributeValue} (h : a.Matches b) :
    a.canonical = b.canonical := by
  induction h with
  | string text | number text | binary bytes | boolean value | null value => rfl
  | stringSet perm => rw [canonical, canonical, (sortMembers_eq_iff_perm linear_textLe).2 perm]
  | numberSet perm => rw [canonical, canonical, (sortMembers_eq_iff_perm linear_textLe).2 perm]
  | binarySet perm => rw [canonical, canonical, (sortMembers_eq_iff_perm linear_bytesLe).2 perm]
  | list length each ih =>
      rw [canonical_list, canonical_list, Fields.map_eq_map_iff.2 ⟨length, ih⟩]
  | map names each ih =>
      rw [canonical_map, canonical_map, Fields.ascending_map_eq_iff.2 ⟨names, ih⟩]

theorem matches_of_canonical_eq {a b : AttributeValue} (h : a.canonical = b.canonical) :
    a.Matches b := by
  induction a using AttributeValue.induction generalizing b with
  | string text =>
      cases b <;> cases h
      exact .string text
  | number text =>
      cases b <;> cases h
      exact .number text
  | binary bytes =>
      cases b <;> cases h
      exact .binary bytes
  | stringSet members =>
      cases b <;> simp only [canonical, reduceCtorEq, stringSet.injEq] at h
      exact .stringSet ((sortMembers_eq_iff_perm linear_textLe).1 h)
  | numberSet members =>
      cases b <;> simp only [canonical, reduceCtorEq, numberSet.injEq] at h
      exact .numberSet ((sortMembers_eq_iff_perm linear_textLe).1 h)
  | binarySet members =>
      cases b <;> simp only [canonical, reduceCtorEq, binarySet.injEq] at h
      exact .binarySet ((sortMembers_eq_iff_perm linear_bytesLe).1 h)
  | boolean value =>
      cases b <;> cases h
      exact .boolean value
  | null value =>
      cases b <;> cases h
      exact .null value
  | list items ih =>
      cases b <;> simp only [canonical, reduceCtorEq, list.injEq] at h
      rw [canonicalItems_eq_map, canonicalItems_eq_map] at h
      obtain ⟨hlength, heach⟩ := Fields.map_eq_map_iff.1 h
      exact .list hlength fun i x y hx hy => ih x (List.mem_of_getElem? hx) (heach i x y hx hy)
  | map fields ih =>
      cases b <;> simp only [canonical, reduceCtorEq, map.injEq] at h
      rw [canonicalFields_eq_map, canonicalFields_eq_map] at h
      obtain ⟨hnames, heach⟩ := Fields.ascending_map_eq_iff.1 h
      exact .map hnames fun name x y hx hy =>
        ih (name, x) (Fields.mem_of_last? hx) (heach name x y hx hy)

/-- Equality compares kind and payload, part by part. -/
theorem beq_iff_matches {a b : AttributeValue} : (a == b) = true ↔ a.Matches b := by
  rw [beq_iff_canonical_eq]
  exact ⟨matches_of_canonical_eq, canonical_eq_of_matches⟩

/-! ## What a hasher is fed -/

/--
The writes may be what a hasher is fed for the value: the kind, then the payload, the members of a
set in ascending order and the entries of a map by ascending name, in whatever order both are kept.
-/
inductive Feeds : AttributeValue → List HashWrite → Prop
  | string (text : String) : Feeds (.string text) [.kind .string, .text text]
  | number (text : String) : Feeds (.number text) [.kind .number, .text text]
  | binary (bytes : List UInt8) : Feeds (.binary bytes) [.kind .binary, .bytes bytes]
  | stringSet {members sorted : List String} (perm : sorted.Perm members)
      (ascending : Sorted textLe sorted) :
      Feeds (.stringSet members) (.kind .stringSet :: .count sorted.length :: sorted.map .text)
  | numberSet {members sorted : List String} (perm : sorted.Perm members)
      (ascending : Sorted textLe sorted) :
      Feeds (.numberSet members) (.kind .numberSet :: .count sorted.length :: sorted.map .text)
  | binarySet {members sorted : List (List UInt8)} (perm : sorted.Perm members)
      (ascending : Sorted bytesLe sorted) :
      Feeds (.binarySet members) (.kind .binarySet :: .count sorted.length :: sorted.map .bytes)
  | boolean (value : Bool) : Feeds (.boolean value) [.kind .boolean, .flag value]
  | null (value : Bool) : Feeds (.null value) [.kind .null, .flag value]
  | list (parts : List (AttributeValue × List HashWrite))
      (each : ∀ part ∈ parts, Feeds part.1 part.2) :
      Feeds (.list (parts.map Prod.fst))
        (.kind .list :: .count parts.length :: parts.flatMap Prod.snd)
  | map {fields : List (String × AttributeValue)}
      (parts : List (String × AttributeValue × List HashWrite))
      (entries : ∀ name value, (name, value) ∈ parts.map (fun part => (part.1, part.2.1)) ↔
        Fields.last? name fields = some value)
      (ascending : Fields.Ascending parts) (each : ∀ part ∈ parts, Feeds part.2.1 part.2.2) :
      Feeds (.map fields) (.kind .map :: parts.flatMap fun part => .text part.1 :: part.2.2)

theorem itemWrites_eq_flatMap (items : List AttributeValue) :
    itemWrites items = items.flatMap writes := by
  induction items with
  | nil => rfl
  | cons item rest ih => rw [itemWrites, ih, List.flatMap_cons]

theorem fieldWrites_eq_flatMap (fields : List (String × AttributeValue)) :
    fieldWrites fields = fields.flatMap fun field => .text field.1 :: field.2.writes := by
  induction fields with
  | nil => rfl
  | cons field rest ih => rw [fieldWrites, ih, List.flatMap_cons, List.cons_append]

theorem hashFeed_list (items : List AttributeValue) :
    (AttributeValue.list items).hashFeed =
      .kind .list :: .count items.length :: items.flatMap hashFeed := by
  rw [hashFeed, canonical_list, writes, itemWrites_eq_flatMap, List.length_map, List.flatMap_map]
  rfl

theorem hashFeed_map (fields : List (String × AttributeValue)) :
    (AttributeValue.map fields).hashFeed =
      .kind .map :: (Fields.ascending fields).flatMap fun field =>
        .text field.1 :: field.2.hashFeed := by
  rw [hashFeed, canonical_map, writes, fieldWrites_eq_flatMap, Fields.ascending_map,
    List.flatMap_map]
  rfl

/-- A list of the entries that count, by ascending name, is the normal form. -/
theorem entries_eq_ascending {α β : Type} {fields : List (String × α)}
    {parts : List (String × α × β)}
    (entries : ∀ name x, (name, x) ∈ parts.map (fun part => (part.1, part.2.1)) ↔
      Fields.last? name fields = some x)
    (ascending : Fields.Ascending parts) :
    parts.map (fun part => (part.1, part.2.1)) = Fields.ascending fields := by
  have hparts : Fields.Ascending (parts.map fun part => (part.1, part.2.1)) :=
    List.pairwise_map.2 ascending
  refine hparts.eq_of_last?_eq (Fields.ascending_ascending fields) fun name => ?_
  apply Option.ext
  intro x
  rw [← Fields.mem_iff_last? hparts, entries, Fields.last?_ascending]

theorem eq_hashFeed_of_feeds {a : AttributeValue} {fed : List HashWrite} (h : a.Feeds fed) :
    fed = a.hashFeed := by
  induction h with
  | string text | number text | binary bytes | boolean value | null value => rfl
  | stringSet perm ascending =>
      rw [hashFeed, canonical, writes, ← (eq_sortMembers_iff linear_textLe).2 ⟨perm, ascending⟩]
  | numberSet perm ascending =>
      rw [hashFeed, canonical, writes, ← (eq_sortMembers_iff linear_textLe).2 ⟨perm, ascending⟩]
  | binarySet perm ascending =>
      rw [hashFeed, canonical, writes, ← (eq_sortMembers_iff linear_bytesLe).2 ⟨perm, ascending⟩]
  | list parts each ih =>
      rw [hashFeed_list, List.length_map, List.flatMap_map, List.flatMap_congr ih]
  | map parts entries ascending each ih =>
      have hparts : ∀ part ∈ parts, HashWrite.text part.1 :: part.2.2 =
          .text part.1 :: part.2.1.hashFeed := fun part hpart => by rw [ih part hpart]
      rw [hashFeed_map, ← entries_eq_ascending entries ascending, List.flatMap_map,
        List.flatMap_congr hparts]

theorem feeds_hashFeed (a : AttributeValue) : a.Feeds a.hashFeed := by
  induction a using AttributeValue.induction with
  | string text => exact .string text
  | number text => exact .number text
  | binary bytes => exact .binary bytes
  | stringSet members =>
      exact .stringSet (sortMembers_perm textLe members) (sorted_sortMembers linear_textLe members)
  | numberSet members =>
      exact .numberSet (sortMembers_perm textLe members) (sorted_sortMembers linear_textLe members)
  | binarySet members =>
      exact .binarySet (sortMembers_perm bytesLe members)
        (sorted_sortMembers linear_bytesLe members)
  | boolean value => exact .boolean value
  | null value => exact .null value
  | list items ih =>
      have hfeeds := Feeds.list (items.map fun item => (item, item.hashFeed))
        (List.forall_mem_map.2 ih)
      rw [List.map_map, List.length_map, List.flatMap_map] at hfeeds
      rw [hashFeed_list]
      simpa [Function.comp_def] using hfeeds
  | map fields ih =>
      have hfeeds := @Feeds.map fields
        ((Fields.ascending fields).map fun field => (field.1, field.2, field.2.hashFeed)) ?_ ?_ ?_
      · rw [hashFeed_map]
        rwa [List.flatMap_map] at hfeeds
      · intro name value
        rw [List.map_map, ← Fields.mem_ascending]
        simp [Function.comp_def]
      · exact List.pairwise_map.2 (Fields.ascending_ascending fields)
      · exact List.forall_mem_map.2 fun field hfield =>
          ih field (Fields.mem_of_mem_ascending hfield)

/-- A hasher is fed the same writes whatever order the maps and the sets are kept in. -/
theorem feeds_iff {a : AttributeValue} {fed : List HashWrite} : a.Feeds fed ↔ fed = a.hashFeed :=
  ⟨eq_hashFeed_of_feeds, fun h => h ▸ feeds_hashFeed a⟩

theorem hashFeed_eq_of_beq {a b : AttributeValue} (h : (a == b) = true) :
    a.hashFeed = b.hashFeed := by
  rw [hashFeed, hashFeed, beq_iff_canonical_eq.1 h]

instance : LawfulHashable AttributeValue where
  hash_eq a b h := by
    change a.hashFeed.foldl _ 7 = b.hashFeed.foldl _ 7
    rw [hashFeed_eq_of_beq h]

end DynamoExpr.AttributeValue
