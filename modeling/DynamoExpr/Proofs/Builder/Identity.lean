import DynamoExpr.Proofs.Builder.Numbering
import DynamoExpr.Proofs.Tree.Parts

/-!
# Aliases identify names and values

The entries of the two maps are the names and the literals of the trees that the user gave, each
of them once.  Two names have one alias exactly when they are the same, and two literals exactly
when they are equal.
-/

namespace DynamoExpr

namespace Builder

/-- The parts of all trees in the order of their kinds. -/
def parts (builder : Builder) : List SourcePart :=
  builder.condition.elim [] Condition.parts ++ builder.filter.elim [] Condition.parts
    ++ builder.keyCondition.elim [] (fun tree => (tree.map id Literal.value).parts)
    ++ builder.projection.elim [] Projection.parts ++ builder.update.elim [] Update.parts

/-- The attribute names in the paths of all trees. -/
def segments (builder : Builder) : List String := builder.parts.flatMap Part.segments

def literals (builder : Builder) : List AttributeValue := builder.parts.filterMap Part.value?

/-- The builder with each path of its projection once. -/
def distinct (builder : Builder) : Builder :=
  { builder with projection := builder.projection.map Projection.distinct }

theorem mem_parts_distinct_iff {builder : Builder} {part : SourcePart} :
    part ∈ builder.distinct.parts ↔ part ∈ builder.parts := by
  rcases builder with ⟨limits, condition, filter, keyCondition, projection, update⟩
  cases projection with
  | none => rfl
  | some tree => simp [distinct, parts, Projection.distinct, Projection.parts]

theorem mem_segments_distinct_iff {builder : Builder} {name : String} :
    name ∈ builder.distinct.segments ↔ name ∈ builder.segments := by
  simp only [segments, List.mem_flatMap, mem_parts_distinct_iff]

theorem mem_literals_distinct_iff {builder : Builder} {v : AttributeValue} :
    v ∈ builder.distinct.literals ↔ v ∈ builder.literals := by
  simp only [literals, List.mem_filterMap, mem_parts_distinct_iff]

theorem spell_slot {α β : Type} {check : α → Except ParameterFault β}
    {parts : α → List SourcePart} {leaves : β → List Leaf}
    (h : ∀ {x y}, check x = .ok y → Spell (parts x) (leaves y)) {tree : Option α} {plain : Option β}
    (hcheck : tree.mapM check = .ok plain) : Spell (tree.elim [] parts) (plain.elim [] leaves) := by
  cases tree with
  | none =>
      cases hcheck
      exact .nil
  | some x =>
      obtain ⟨y, hy, rfl⟩ := checked_mapM_some_eq_ok_iff.1 hcheck
      exact h hy

/-- The leaves of the plain trees are those of the parts that the user gave. -/
theorem spells {builder : Builder} {draft : Draft} (h : builder.checked = .ok draft) :
    Spell builder.distinct.parts draft.leaves := by
  obtain ⟨hcondition, hfilter, hkey, hprojection, hupdate⟩ := checked_eq_ok_iff.1 h
  -- A projection is checked with all its paths and spells each of them once.
  have hprojected : Spell ((builder.projection.map Projection.distinct).elim [] Projection.parts)
      (draft.projection.elim [] Projection.leaves) := by
    have hslot := @spell_slot _ _ _ (fun tree => tree.distinct.parts) _
      Projection.spells _ _ hprojection
    cases hprojection : builder.projection <;> rw [hprojection] at hslot <;> exact hslot
  exact ((((spell_slot Condition.spells hcondition).append
    (spell_slot Condition.spells hfilter)).append (spell_slot KeyCondition.spells hkey)).append
    hprojected).append (spell_slot Update.spells hupdate)

end Builder

theorem Spell.names_eq {parts : List SourcePart} {leaves : List Leaf} (h : Spell parts leaves) :
    leaves.filterMap Leaf.name? = parts.flatMap Part.segments := by
  have hpart : ∀ part : SourcePart, part.leaves.filterMap Leaf.name? = part.segments := by
    intro part
    simp [Part.leaves, List.filterMap_map, Function.comp_def, Leaf.name?]
  rw [← h.leaves_eq, List.filterMap_flatMap]
  simp only [hpart]

theorem Spell.values_eq {parts : List SourcePart} {leaves : List Leaf} (h : Spell parts leaves) :
    leaves.filterMap Leaf.value? = parts.filterMap Part.value? := by
  have hpart : ∀ part : SourcePart, part.leaves.filterMap Leaf.value? = part.value?.toList := by
    intro part
    simp [Part.leaves, List.filterMap_map, Function.comp_def, Leaf.value?]
  rw [← h.leaves_eq, List.filterMap_flatMap, List.filterMap_eq_flatMap_toList]
  simp only [hpart]

/--
The entries of a map of aliases stand for the items and for nothing else; `occurrences` are the
aliases in the texts, and `written` the items in the order of the texts.
-/
structure Identifies {α : Type} [BEq α] (entries : List (String × α)) (occurrences : List String)
    (items written : List α) : Prop where
  /-- An alias has one entry. -/
  keys : (entries.map Prod.fst).Nodup
  /-- No two entries are equal, so nothing has two aliases. -/
  separate : entries.Pairwise fun a b => (a.2 == b.2) = false
  /-- Every entry is one of the items. -/
  sound : ∀ entry ∈ entries, entry.2 ∈ items
  /-- Every item has an entry that equals it. -/
  complete : ∀ x ∈ items, ∃ entry ∈ entries, (entry.2 == x) = true
  /-- In the texts an item stands as the alias of its entry. -/
  resolves : List.Forall₂ (fun a x => ∃ y, entries.lookup a = some y ∧ (y == x) = true)
    occurrences written
  /-- At any two places there is one alias exactly if the items are equal. -/
  same_alias_iff : ∀ (i j : Nat) (a b : String) (x y : α), occurrences[i]? = some a →
    written[i]? = some x → occurrences[j]? = some b → written[j]? = some y →
      (a = b ↔ (x == y) = true)

/-- Aliases by the places of items on the lane that these items fill. -/
theorem identifies_of_places {α : Type} [BEq α] [EquivBEq α] {kind : AliasKind}
    {occurrences : List String} {items written lane : List α}
    (hlane : lane = Lane.enterAll [] written)
    (hoccurs : occurrences = (written.map (Lane.place · lane)).map kind.text)
    (hitems : ∀ x, x ∈ written ↔ x ∈ items) :
    Identifies (lane.mapIdx fun i x => (kind.text i, x)) occurrences items written := by
  have hholds : ∀ x ∈ written, Lane.Holds x lane := by
    intro x hx
    rw [hlane]
    exact Lane.holds_enterAll hx []
  have hentries : (lane.mapIdx fun i x => (kind.text i, x)).map Prod.snd = lane := by
    apply List.ext_getElem
    · simp
    · simp
  have hlookup : ∀ x ∈ written, ∃ y,
      (lane.mapIdx fun i x => (kind.text i, x)).lookup (kind.text (Lane.place x lane)) = some y ∧
        (y == x) = true := by
    intro x hx
    obtain ⟨y, hy, heq⟩ := Lane.getElem?_place (hholds x hx)
    exact ⟨y, (lookup_mapIdx AliasKind.text_injective lane _).trans hy, heq⟩
  refine ⟨nodup_keys_mapIdx kind lane, ?_, ?_, ?_, ?_, ?_⟩
  · have hseparate : Lane.Separate lane := by
      rw [hlane]
      exact Lane.separate_enterAll List.Pairwise.nil written
    rw [← hentries] at hseparate
    exact List.pairwise_map.1 hseparate
  · intro entry hentry
    have hin : entry.2 ∈ lane := hentries ▸ List.mem_map_of_mem hentry
    rw [hlane] at hin
    rcases Lane.mem_enterAll hin with hnil | hwritten
    · cases hnil
    · exact (hitems _).1 hwritten
  · intro x hx
    obtain ⟨y, hy, heq⟩ := hholds x ((hitems x).2 hx)
    rw [← hentries] at hy
    obtain ⟨entry, hentry, rfl⟩ := List.mem_map.1 hy
    exact ⟨entry, hentry, heq⟩
  · rw [hoccurs, List.forall₂_map_left_iff, List.forall₂_map_left_iff]
    exact List.forall₂_same.2 hlookup
  · intro i j a b x y ha hx hb hy
    simp only [hoccurs, List.getElem?_map, hx, hy, Option.map_some, Option.some.injEq] at ha hb
    subst ha
    subst hb
    rw [← Lane.place_eq_place_iff (hholds x (List.mem_of_getElem? hx))
      (hholds y (List.mem_of_getElem? hy))]
    exact ⟨AliasKind.text_injective, congrArg _⟩

/-- The entries of the lane of a kind, by the items that the leaves of a draft bring to it. -/
theorem Draft.identifies {α : Type} [BEq α] [EquivBEq α] (draft : Draft) {kind : AliasKind}
    {item? : Leaf → Option α} {items written lane : List α}
    (hwritten : draft.leaves.filterMap item? = written)
    (hlane : lane = Lane.enterAll [] (draft.leaves.filterMap item?))
    (hnumber : ∀ leaf,
      Leaf.number? draft.aliases kind leaf = (item? leaf).map (Lane.place · lane))
    (hitems : ∀ x, x ∈ written ↔ x ∈ items) :
    Identifies (lane.mapIdx fun i x => (kind.text i, x)) (draft.expression.occurrences kind)
      items written := by
  have hoccurs := draft.occurrences_eq hnumber
  rw [hwritten] at hlane hoccurs
  exact identifies_of_places hlane hoccurs hitems

theorem AttributeValue.type_eq_of_beq {v w : AttributeValue} (h : (v == w) = true) :
    v.type = w.type := by
  have hcanonical : ∀ x : AttributeValue, x.canonical.type = x.type := by
    intro x
    cases x <;> rfl
  rw [← hcanonical v, ← hcanonical w, beq_iff_canonical_eq.1 h]

/--
In a built expression every part that the user gave is meant, the names map has exactly the
attribute names of the trees, each once, and the values map exactly their literals, each once up
to equality.
-/
theorem Builder.aliases_identify {builder : Builder} {expression : Expression}
    (hbuild : builder.build = .ok expression) :
    (∀ part ∈ builder.parts, part.Meant) ∧
      Identifies expression.names (expression.occurrences .name) builder.segments
        builder.distinct.segments ∧
      Identifies expression.values (expression.occurrences .value) builder.literals
        builder.distinct.literals ∧
      ∀ entry ∈ expression.values, ∀ v, (entry.2 == v) = true → entry.2.type = v.type := by
  obtain ⟨-, draft, hchecked, -, rfl⟩ := build_eq_ok_iff.1 hbuild
  have hspell := spells hchecked
  refine ⟨fun part hpart => hspell.meant part (mem_parts_distinct_iff.2 hpart), ?_, ?_,
    fun _ _ _ => AttributeValue.type_eq_of_beq⟩
  · exact draft.identifies hspell.names_eq draft.names_eq (Leaf.number?_name draft.aliases)
      fun _ => mem_segments_distinct_iff
  · exact draft.identifies hspell.values_eq draft.values_eq (Leaf.number?_value draft.aliases)
      fun _ => mem_literals_distinct_iff

/-- One set in two orders, and one text as bytes and as a string. -/
def Builder.reordered : Builder where
  condition := some (.join .and
    (.compare .eq (.name (.path ⟨"a", []⟩)) (.value (.value (.stringSet ["x", "1"]))))
    (.compare .eq (.name (.path ⟨"b", [.attribute "a"]⟩)) (.value (.value (.binary [49])))))
  update := some { adds := [(.path ⟨"b", []⟩, .value (.stringSet ["1", "x"]))]
                   sets := [(.path ⟨"c", []⟩, .operand (.value (.value (.string "1"))))] }

theorem reordered_aliases_identify :
    ∃ expression, Builder.reordered.build = .ok expression ∧
      expression.texts = ["#0 = :0 AND #1.#0 = :1", "SET #2 = :2 ADD #1 :0"] ∧
      Identifies expression.names ["#0", "#1", "#0", "#2", "#1"] ["a", "b", "a", "c", "b"]
        ["a", "b", "a", "c", "b"] ∧
      Identifies expression.values [":0", ":1", ":2", ":0"]
        [.stringSet ["x", "1"], .binary [49], .string "1", .stringSet ["1", "x"]]
        [.stringSet ["x", "1"], .binary [49], .string "1", .stringSet ["1", "x"]] := by
  have hbuild : Builder.reordered.build = .ok
      { condition := some "#0 = :0 AND #1.#0 = :1", filter := none, keyCondition := none,
        projection := none, update := some "SET #2 = :2 ADD #1 :0",
        aliases := ⟨["a", "b", "c"], [.stringSet ["x", "1"], .binary [49], .string "1"]⟩ } := by rfl
  obtain ⟨-, hnames, hvalues, -⟩ := Builder.aliases_identify hbuild
  exact ⟨_, hbuild, rfl, hnames, hvalues⟩

end DynamoExpr
