import DynamoExpr.Proofs.Alias.Dictionary
import DynamoExpr.Proofs.Alias.Order

/-!
# The numbering of aliases

Read in the order of the kinds, each text from left to right, the texts of an expression bring the
aliases in the order of their numbers, and the two maps have exactly the aliases in the texts.
-/

namespace DynamoExpr

/-- The texts there are, in the order of the kinds. -/
def Expression.texts (expression : Expression) : List String :=
  ExpressionKind.all.filterMap expression.get

/-- The aliases of a kind in the texts, in the order of the texts. -/
def Expression.occurrences (expression : Expression) (kind : AliasKind) : List String :=
  expression.texts.flatMap fun text => aliasTokens kind text.toList

/-- The aliases of a kind and the entries of their map belong together. -/
structure Expression.Numbered {α : Type} (expression : Expression) (kind : AliasKind)
    (entries : List (String × α)) : Prop where
  /-- First occurrences come as number 0, number 1 and so on. -/
  first_occurrences :
    (expression.occurrences kind).eraseDups = (List.range entries.length).map kind.text
  /-- The keys of the map are these aliases. -/
  keys : entries.map Prod.fst = (List.range entries.length).map kind.text
  /-- Every alias in a text has an entry. -/
  resolves : ∀ a ∈ expression.occurrences kind, ∃ x, entries.lookup a = some x
  /-- Every entry is used in a text. -/
  used : ∀ entry ∈ entries, ∃ text ∈ expression.texts, entry.1 ∈ aliasTokens kind text.toList

theorem keys_mapIdx {α : Type} (key : Nat → String) (lane : List α) :
    (lane.mapIdx fun i x => (key i, x)).map Prod.fst = (List.range lane.length).map key := by
  apply List.ext_getElem
  · simp
  · simp

theorem nodup_keys_mapIdx {α : Type} (kind : AliasKind) (lane : List α) :
    ((lane.mapIdx fun i x => (kind.text i, x)).map Prod.fst).Nodup := by
  rw [keys_mapIdx]
  apply List.pairwise_map.2
  apply List.nodup_range.imp
  intro i j hne heq
  exact hne (AliasKind.text_injective heq)

/-- Aliases by the places of items on the lane that these items fill. -/
theorem Expression.numbered_of_occurrences {α : Type} [BEq α] [ReflBEq α]
    {expression : Expression} {kind : AliasKind} {items lane : List α}
    (hlane : lane = Lane.enterAll [] items)
    (h : expression.occurrences kind = (items.map (Lane.place · lane)).map kind.text) :
    expression.Numbered kind (lane.mapIdx fun i x => (kind.text i, x)) := by
  have hlength : (lane.mapIdx fun i x => (kind.text i, x)).length = lane.length :=
    List.length_mapIdx
  have hfirst : (expression.occurrences kind).eraseDups = (List.range lane.length).map kind.text := by
    rw [h, Lane.eraseDups_map AliasKind.text_injective, hlane, Lane.eraseDups_map_place]
  have hmem : ∀ a, a ∈ expression.occurrences kind ↔ ∃ i < lane.length, kind.text i = a := by
    intro a
    rw [← List.mem_eraseDups, hfirst]
    simp
  refine ⟨by rw [hlength, hfirst], by rw [hlength, keys_mapIdx], ?_, ?_⟩
  · intro a ha
    obtain ⟨i, hi, rfl⟩ := (hmem a).1 ha
    exact ⟨lane[i], (lookup_mapIdx AliasKind.text_injective lane i).trans
      (List.getElem?_eq_getElem hi)⟩
  · intro entry hentry
    have hkey : entry.1 ∈ (List.range lane.length).map kind.text := by
      rw [← keys_mapIdx]
      exact List.mem_map_of_mem hentry
    have hoccurs : entry.1 ∈ expression.occurrences kind := by
      rw [hmem]
      simpa using hkey
    exact List.mem_flatMap.1 hoccurs

namespace Draft

theorem occurrences_slot {α : Type} {table : Aliases} {tokens : α → List Token}
    {leaves : α → List Leaf} (h : ∀ tree, Shows table (tokens tree) (leaves tree))
    (kind : AliasKind) (tree : Option α) :
    (tree.map fun tree => Token.texts (tokens tree)).toList.flatMap
        (fun text => aliasTokens kind text.toList) =
      ((tree.elim [] leaves).filterMap (Leaf.number? table kind)).map kind.text := by
  cases tree with
  | none => rfl
  | some tree =>
      rw [Option.map_some, Option.toList_some, List.flatMap_cons, List.flatMap_nil,
        List.append_nil, Option.elim_some, ← h tree kind]
      exact aliasTokens_chars kind (tokens tree)

theorem texts_eq (expression : Expression) :
    expression.texts = expression.condition.toList ++ expression.filter.toList ++
      expression.keyCondition.toList ++ expression.projection.toList ++
      expression.update.toList := by
  rcases expression with ⟨condition, filter, key, projection, update, aliases⟩
  cases condition <;> cases filter <;> cases key <;> cases projection <;> cases update <;> rfl

/-- The aliases in the texts of a draft are the numbers of its leaves. -/
theorem occurrences_expression (draft : Draft) (kind : AliasKind) :
    draft.expression.occurrences kind =
      (draft.leaves.filterMap (Leaf.number? draft.aliases kind)).map kind.text := by
  have hcondition := occurrences_slot (@Condition.shows draft.aliases) kind draft.condition
  have hfilter := occurrences_slot (@Condition.shows draft.aliases) kind draft.filter
  have hkey := occurrences_slot (@KeyCondition.shows draft.aliases) kind draft.keyCondition
  have hprojection := occurrences_slot (@Projection.shows draft.aliases) kind draft.projection
  have hupdate := occurrences_slot (@Update.shows draft.aliases) kind draft.update
  simp only [leaves, List.filterMap_append, List.map_append]
  rw [← hcondition, ← hfilter, ← hkey, ← hprojection, ← hupdate, Expression.occurrences, texts_eq]
  simp only [List.flatMap_append]
  rfl

theorem names_eq (draft : Draft) :
    draft.aliases.names = Lane.enterAll [] (draft.leaves.filterMap Leaf.name?) :=
  Aliases.names_enterAll {} draft.leaves

theorem values_eq (draft : Draft) :
    draft.aliases.values = Lane.enterAll [] (draft.leaves.filterMap Leaf.value?) :=
  Aliases.values_enterAll {} draft.leaves

/-- The aliases of a kind in the texts, by the places of the items that they stand for. -/
theorem occurrences_eq {α : Type} (draft : Draft) {kind : AliasKind} {item? : Leaf → Option α}
    {place : α → Nat}
    (h : ∀ leaf, Leaf.number? draft.aliases kind leaf = (item? leaf).map place) :
    draft.expression.occurrences kind =
      ((draft.leaves.filterMap item?).map place).map kind.text := by
  have hnumbers : draft.leaves.filterMap (Leaf.number? draft.aliases kind) =
      (draft.leaves.filterMap item?).map place := by
    rw [funext h, List.map_filterMap]
  rw [occurrences_expression, hnumbers]

theorem numbered_names (draft : Draft) :
    draft.expression.Numbered .name draft.expression.names :=
  Expression.numbered_of_occurrences draft.names_eq
    (draft.occurrences_eq (Leaf.number?_name draft.aliases))

theorem numbered_values (draft : Draft) :
    draft.expression.Numbered .value draft.expression.values :=
  Expression.numbered_of_occurrences draft.values_eq
    (draft.occurrences_eq (Leaf.number?_value draft.aliases))

end Draft

/--
The aliases of a built expression are numbered by first occurrence in its texts, and its maps have
an entry for each of them and no other.
-/
theorem Builder.aliases_numbered {builder : Builder} {expression : Expression}
    (hbuild : builder.build = .ok expression) :
    expression.Numbered .name expression.names ∧ expression.Numbered .value expression.values := by
  obtain ⟨-, draft, -, -, rfl⟩ := build_eq_ok_iff.1 hbuild
  exact ⟨draft.numbered_names, draft.numbered_values⟩

/-- A filter and a projection that share a name, and a path that is requested twice. -/
def Builder.shared : Builder where
  filter := some (.compare .eq (.name (.path ⟨"b", []⟩))
    (.value (.list [.value (.value (.string "x"))])))
  projection := some ⟨[.path ⟨"a", []⟩, .path ⟨"b", [.index 1]⟩, .path ⟨"a", []⟩]⟩

theorem shared_aliases_numbered :
    ∃ expression, Builder.shared.build = .ok expression ∧
      expression.texts = ["#0 = :0", "#1, #0[1]"] ∧
      (expression.occurrences .name).eraseDups = ["#0", "#1"] ∧
      expression.names.map Prod.fst = ["#0", "#1"] ∧
      (expression.occurrences .value).eraseDups = [":0"] ∧
      expression.values.map Prod.fst = [":0"] := by
  have hbuild : Builder.shared.build = .ok
      { condition := none, filter := some "#0 = :0", keyCondition := none,
        projection := some "#1, #0[1]", update := none,
        aliases := ⟨["b", "a"], [.list [.string "x"]]⟩ } := by rfl
  obtain ⟨hnames, hvalues⟩ := Builder.aliases_numbered hbuild
  exact ⟨_, hbuild, rfl, hnames.first_occurrences, hnames.keys, hvalues.first_occurrences,
    hvalues.keys⟩

end DynamoExpr
