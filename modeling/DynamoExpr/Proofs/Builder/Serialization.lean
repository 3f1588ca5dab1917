import DynamoExpr.Proofs.Builder.Numbering
import DynamoExpr.Proofs.Json.Text
import DynamoExpr.Proofs.Value.Agreement

/-!
# Serialized expressions

The serialized text of an expression shows its values part by part, and so it shows the order of
set members, which equality leaves out.  Equal expressions serialize alike exactly when their
values agree, sets being lists.
-/

namespace DynamoExpr

theorem AttributeValue.numberless_toJson (v : AttributeValue) : v.toJson.Numberless := by
  have hone : ∀ {key : String} {payload : Json}, payload.Numberless →
      (Json.obj [(key, payload)]).Numberless := fun h => .obj (by simpa using h)
  induction v using AttributeValue.induction with
  | string text | number text | binary bytes => exact hone (.str _)
  | boolean value | null value => exact hone (.bool _)
  | stringSet members | numberSet members | binarySet members =>
      refine hone (.arr fun item hitem => ?_)
      obtain ⟨member, -, rfl⟩ := List.mem_map.1 hitem
      exact .str _
  | list items ih =>
      rw [toJson_list]
      refine hone (.arr fun item hitem => ?_)
      obtain ⟨member, hmember, rfl⟩ := List.mem_map.1 hitem
      exact ih member hmember
  | map fields ih =>
      rw [toJson_map]
      refine hone (.obj fun member hmember => ?_)
      obtain ⟨field, hfield, rfl⟩ := List.mem_map.1 (Fields.mem_of_mem_ascending hmember)
      exact ih field hfield

namespace Expression

variable {e f : Expression}

/-- The members for the texts and the names, which come first. -/
def leadingMembers (expression : Expression) : List (String × Json) :=
  (ExpressionKind.all.filterMap fun kind =>
      (expression.get kind).map fun text => (kind.memberName, Json.str text)) ++
    aliasMember "ExpressionAttributeNames"
      (expression.names.map fun entry => (entry.1, Json.str entry.2))

theorem toJson_eq (expression : Expression) :
    expression.toJson = .obj (expression.leadingMembers ++
      aliasMember "ExpressionAttributeValues"
        (expression.values.map fun entry => (entry.1, entry.2.toJson))) :=
  rfl

theorem beq_iff : (e == f) = true ↔ (∀ kind, e.get kind = f.get kind) ∧
    e.aliases.names = f.aliases.names ∧ (e.aliases.values == f.aliases.values) = true := by
  change (ExpressionKind.all.all (fun kind => e.get kind == f.get kind)
    && e.aliases.names == f.aliases.names && e.aliases.values == f.aliases.values) = true ↔ _
  rw [Bool.and_eq_true, Bool.and_eq_true, beq_iff_eq, and_assoc]
  refine and_congr_left fun _ => ?_
  simp only [List.all_eq_true, beq_iff_eq]
  constructor
  · intro h kind
    cases kind <;> exact h _ (by decide)
  · intro h kind _
    exact h kind

theorem leadingMembers_eq (htexts : ∀ kind, e.get kind = f.get kind)
    (hnames : e.aliases.names = f.aliases.names) : e.leadingMembers = f.leadingMembers := by
  simp only [leadingMembers, htexts, names, hnames]

/-- Equal expressions have the same aliases of values. -/
theorem keys_values_eq (hvalues : (e.aliases.values == f.aliases.values) = true) :
    e.values.map Prod.fst = f.values.map Prod.fst := by
  have hlength := List.length_eq_of_beq hvalues
  rw [values, values, keys_mapIdx, keys_mapIdx, hlength]

theorem aliasMember_eq_iff {name : String} {fields others : List (String × Json)}
    (h : fields.isEmpty = others.isEmpty) :
    aliasMember name fields = aliasMember name others ↔
      Fields.ascending fields = Fields.ascending others := by
  unfold aliasMember
  rw [h]
  cases hempty : others.isEmpty with
  | true =>
      rw [List.isEmpty_iff.1 hempty, List.isEmpty_iff.1 (h.trans hempty)]
      simp
  | false => simp

theorem numberless_toJson (expression : Expression) : expression.toJson.Numberless := by
  have halias : ∀ {name : String} {fields : List (String × Json)},
      (∀ field ∈ fields, field.2.Numberless) →
        ∀ member ∈ aliasMember name fields, member.2.Numberless := by
    intro name fields hfields member hmember
    unfold aliasMember at hmember
    split at hmember
    · cases hmember
    · rw [List.mem_singleton.1 hmember]
      exact .obj fun field hfield => hfields field (Fields.mem_of_mem_ascending hfield)
  rw [toJson_eq, leadingMembers]
  refine .obj fun member hmember => ?_
  rcases List.mem_append.1 hmember with hmember | hmember
  · rcases List.mem_append.1 hmember with hmember | hmember
    · obtain ⟨kind, -, hkind⟩ := List.mem_filterMap.1 hmember
      obtain ⟨text, -, rfl⟩ := Option.map_eq_some_iff.1 hkind
      exact .str text
    · refine halias (fun field hfield => ?_) member hmember
      obtain ⟨entry, -, rfl⟩ := List.mem_map.1 hfield
      exact .str entry.2
  · refine halias (fun field hfield => ?_) member hmember
    obtain ⟨entry, -, rfl⟩ := List.mem_map.1 hfield
    exact entry.2.numberless_toJson

/-- The documents of equal expressions differ in their values at most. -/
theorem toJson_eq_iff (equal : (e == f) = true) :
    e.toJson = f.toJson ↔
      ∀ a v w, Fields.last? a e.values = some v → Fields.last? a f.values = some w →
        v.Agrees w := by
  obtain ⟨htexts, hnames, hvalues⟩ := beq_iff.1 equal
  have hkeys := keys_values_eq hvalues
  have hempty : (e.values.map fun entry => (entry.1, entry.2.toJson)).isEmpty =
      (f.values.map fun entry => (entry.1, entry.2.toJson)).isEmpty := by
    rw [List.isEmpty_map, List.isEmpty_map, ← List.isEmpty_map (f := Prod.fst), hkeys,
      List.isEmpty_map]
  rw [toJson_eq, toJson_eq, leadingMembers_eq htexts hnames, Json.obj.injEq,
    List.append_cancel_left_eq, aliasMember_eq_iff hempty, Fields.ascending_map_eq_iff, hkeys]
  simp only [AttributeValue.toJson_eq_iff_agrees, iff_self, implies_true, true_and]

/--
Equal expressions serialize to the same text exactly when their values agree: each alias stands for
the same value, its sets with their members in the same order.
-/
theorem compact_eq_iff (equal : (e == f) = true) :
    e.toJson.compact = f.toJson.compact ↔
      ∀ a v w, (a, v) ∈ e.values → (a, w) ∈ f.values → v.Agrees w := by
  have hcompact : e.toJson.compact = f.toJson.compact ↔ e.toJson = f.toJson :=
    ⟨Json.compact_injective e.numberless_toJson f.numberless_toJson, congrArg Json.compact⟩
  have hentry : ∀ (expression : Expression) a v,
      Fields.last? a expression.values = some v ↔ (a, v) ∈ expression.values :=
    fun expression _ _ => ⟨Fields.mem_of_last?,
      Fields.last?_of_mem (nodup_keys_mapIdx .value expression.aliases.values)⟩
  rw [hcompact, toJson_eq_iff equal]
  simp only [hentry]

end Expression

def Builder.holding (v : AttributeValue) : Builder where
  condition := some (.compare .eq (.name (.path ⟨"a", []⟩)) (.value (.value v)))

/-- A map with its fields in two orders is written in one way. -/
theorem reordered_fields_compact_eq :
    ∃ e f,
      (Builder.holding (.map [("x", .stringSet ["p", "q"]), ("y", .null true)])).build = .ok e ∧
      (Builder.holding (.map [("y", .null true), ("x", .stringSet ["p", "q"])])).build = .ok f ∧
      e.toJson.compact = f.toJson.compact := by
  refine ⟨_, _, rfl, rfl, (Expression.compact_eq_iff rfl).2 ?_⟩
  intro a v w hv hw
  cases List.mem_singleton.1 hv
  cases List.mem_singleton.1 hw
  exact AttributeValue.toJson_eq_iff_agrees.1 rfl

/-- A set with its members in two orders gives equal expressions that are written apart. -/
theorem reordered_members_compact_ne :
    ∃ e f, (Builder.holding (.stringSet ["x", "y"])).build = .ok e ∧
      (Builder.holding (.stringSet ["y", "x"])).build = .ok f ∧
      (e == f) = true ∧ e.toJson.compact ≠ f.toJson.compact := by
  refine ⟨_, _, rfl, rfl, rfl, ?_⟩
  decide

end DynamoExpr
