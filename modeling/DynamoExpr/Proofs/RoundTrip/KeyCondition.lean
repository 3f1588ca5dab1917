import DynamoExpr.Proofs.Builder.Numbering
import DynamoExpr.Proofs.Builder.Acceptance
import DynamoExpr.Proofs.Grammar.KeyCondition

/-!
# Key conditions of queries

What is made from key names builds to a text that a query takes.  The aliases in it stand for the
names as they were given, each name whole under one alias, and for the values in their order.
-/

namespace DynamoExpr

/-! ## The conditions that can be made -/

inductive SortKeyCondition.Made :
    SortKeyCondition String AttributeValue → SourceSortKeyCondition → Prop where
  | equality (name : String) (v : AttributeValue) :
    Made ⟨name, .compare .eq v⟩ ((KeyName.named name).equal v).onSortKey
  | compare (name : String) (op : KeyComparison) (v : AttributeValue) :
    Made ⟨name, .compare op v⟩ ((KeyName.named name).compare op v)
  | between (name : String) (low high : AttributeValue) :
    Made ⟨name, .between low high⟩ ((KeyName.named name).between low high)
  | beginsWith (name leading : String) :
    Made ⟨name, .beginsWith (.string leading)⟩ ((KeyName.named name).beginsWith leading)

inductive KeyCondition.Made : KeyCondition String AttributeValue → SourceKeyCondition → Prop where
  | alone (name : String) (v : AttributeValue) :
    Made ⟨name, v, none⟩ ((KeyName.named name).equal v).alone
  | and (name : String) (v : AttributeValue) {given : SortKeyCondition String AttributeValue}
      {sort : SourceSortKeyCondition} : given.Made sort →
    Made ⟨name, v, some given⟩ (((KeyName.named name).equal v).and sort)

theorem SortKeyCondition.Made.eq {given : SortKeyCondition String AttributeValue}
    {sort : SourceSortKeyCondition} (h : given.Made sort) :
    sort = ⟨.ofKey given.key, given.test⟩ := by
  cases h <;> rfl

theorem KeyCondition.Made.eq_map {given : KeyCondition String AttributeValue}
    {tree : SourceKeyCondition} (h : given.Made tree) : tree = given.map NameRef.ofKey id := by
  cases h with
  | alone name v => rfl
  | and name v hsort =>
      rw [hsort.eq]
      simp only [map, KeyEquality.and, Option.map_some, SortKeyTest.map_id]
      rfl

/-! ## Plain key conditions -/

theorem NameRef.checked_ofKey_eq_ok_iff {name : String} {p : AttributePath} :
    (NameRef.ofKey name).checked = .ok p ↔ name ≠ "" ∧ p = ⟨name, []⟩ := by
  unfold ofKey Path.ofKey
  by_cases h : name = ""
  · simp [h, ofExcept, checked]
  · simp [h, ofExcept, checked, eq_comm]

theorem SortKeyTest.eq_of_checked {test plain : SortKeyTest AttributeValue}
    (h : test.checked = .ok plain) : plain = test := by
  cases test with
  | compare op v =>
      obtain ⟨w, hw, h⟩ := bind_eq_ok_iff.1 h
      cases h
      rw [(AttributeValue.checked_eq_ok_iff.1 hw).2]
  | between low high =>
      obtain ⟨l, hl, h⟩ := bind_eq_ok_iff.1 h
      obtain ⟨u, hu, h⟩ := bind_eq_ok_iff.1 h
      cases h
      rw [(AttributeValue.checked_eq_ok_iff.1 hl).2, (AttributeValue.checked_eq_ok_iff.1 hu).2]
  | beginsWith leading =>
      obtain ⟨w, hw, h⟩ := bind_eq_ok_iff.1 h
      cases h
      rw [(AttributeValue.checked_eq_ok_iff.1 hw).2]

/-- Key names are whole paths, and those of two keys differ. -/
theorem KeyCondition.eq_of_checked {given : KeyCondition String AttributeValue}
    {plain : PlainKeyCondition} (h : (given.map NameRef.ofKey id).checked = .ok plain) :
    plain = given.map (Path.mk · []) id ∧ ∀ sort ∈ given.sort, sort.key ≠ given.key := by
  rcases given with ⟨key, value, sort⟩
  obtain ⟨hdiffer, h⟩ := unlessFault_eq_ok_iff.1 h
  cases sort with
  | none =>
      obtain ⟨p, hp, h⟩ := bind_eq_ok_iff.1 h
      obtain ⟨v, hv, h⟩ := bind_eq_ok_iff.1 h
      cases h
      obtain ⟨-, rfl⟩ := NameRef.checked_ofKey_eq_ok_iff.1 hp
      obtain ⟨-, rfl⟩ := AttributeValue.checked_eq_ok_iff.1 hv
      exact ⟨rfl, fun _ hsort => by cases hsort⟩
  | some sort =>
      obtain ⟨p, hp, h⟩ := bind_eq_ok_iff.1 h
      obtain ⟨v, hv, h⟩ := bind_eq_ok_iff.1 h
      obtain ⟨q, hq, h⟩ := bind_eq_ok_iff.1 h
      obtain ⟨test, htest, h⟩ := bind_eq_ok_iff.1 h
      cases h
      obtain ⟨-, rfl⟩ := NameRef.checked_ofKey_eq_ok_iff.1 hp
      obtain ⟨-, rfl⟩ := AttributeValue.checked_eq_ok_iff.1 hv
      obtain ⟨-, rfl⟩ := NameRef.checked_ofKey_eq_ok_iff.1 hq
      have htest := SortKeyTest.eq_of_checked htest
      subst htest
      refine ⟨rfl, fun other hother heq => ?_⟩
      cases hother
      exact hdiffer (congrArg (fun name => some (NameRef.ofKey name)) heq)

/-! ## What the aliases stand for -/

section Rel

variable {ν μ β γ : Type}

/-- The tests are of one form, and their values correspond place by place. -/
inductive SortKeyTest.Rel (R : β → γ → Prop) : SortKeyTest β → SortKeyTest γ → Prop where
  | compare (op : KeyComparison) {a : β} {b : γ} : R a b → Rel R (.compare op a) (.compare op b)
  | between {a a' : β} {b b' : γ} : R a b → R a' b' → Rel R (.between a a') (.between b b')
  | beginsWith {a : β} {b : γ} : R a b → Rel R (.beginsWith a) (.beginsWith b)

structure SortKeyCondition.Rel (N : ν → μ → Prop) (R : β → γ → Prop) (a : SortKeyCondition ν β)
    (b : SortKeyCondition μ γ) : Prop where
  key : N a.key b.key
  test : a.test.Rel R b.test

structure KeyCondition.Rel (N : ν → μ → Prop) (R : β → γ → Prop) (a : KeyCondition ν β)
    (b : KeyCondition μ γ) : Prop where
  key : N a.key b.key
  value : R a.value b.value
  sort : Option.Rel (SortKeyCondition.Rel N R) a.sort b.sort

end Rel

/-- The alias of the number stands for exactly this name. -/
def Expression.NameIs (expression : Expression) (i : Nat) (name : String) : Prop :=
  expression.names.lookup ("#" ++ toString i) = some name

/-- The alias of the number stands for a value that equals this one. -/
def Expression.ValueIs (expression : Expression) (i : Nat) (v : AttributeValue) : Prop :=
  ∃ w, expression.values.lookup (":" ++ toString i) = some w ∧ (w == v) = true

section Explains

variable {expression : Expression} {table : Aliases}

theorem SortKeyTest.rel_of_explains {test : SortKeyTest AttributeValue}
    (h : ∀ leaf ∈ test.leaves, expression.dictionary.Explains table leaf) :
    (test.map table.valueNumber).Rel expression.ValueIs test := by
  cases test with
  | compare op v => exact .compare op (h (.value v) (by simp [leaves]))
  | between low high =>
      exact .between (h (.value low) (by simp [leaves])) (h (.value high) (by simp [leaves]))
  | beginsWith leading => exact .beginsWith (h (.value leading) (by simp [leaves]))

theorem KeyCondition.rel_of_explains {given : KeyCondition String AttributeValue}
    (h : ∀ leaf ∈ (given.map (Path.mk · []) id).leaves,
      expression.dictionary.Explains table leaf) :
    (given.map table.nameNumber table.valueNumber).Rel expression.NameIs expression.ValueIs
      given := by
  rcases given with ⟨key, value, sort⟩
  have hkey : expression.NameIs (table.nameNumber key) key :=
    h (.name key) (by simp [leaves, map, Path.leaves])
  have hvalue : expression.ValueIs (table.valueNumber value) value :=
    h (.value value) (by simp [leaves, map])
  cases sort with
  | none => exact ⟨hkey, hvalue, .none⟩
  | some sort =>
      have hsort : expression.NameIs (table.nameNumber sort.key) sort.key :=
        h (.name sort.key) (by simp [leaves, map, SortKeyCondition.leaves, Path.leaves])
      have htest : (sort.test.map table.valueNumber).Rel expression.ValueIs sort.test := by
        refine SortKeyTest.rel_of_explains fun leaf hleaf => h leaf ?_
        simp [leaves, map, SortKeyCondition.leaves, SortKeyTest.map_id, hleaf]
      exact ⟨hkey, hvalue, .some ⟨hsort, htest⟩⟩

end Explains

/-! ## Built key conditions -/

/-- Two names of the trees have different numbers. -/
theorem Draft.nameNumber_ne {draft : Draft} {a b : String} (ha : .name a ∈ draft.leaves)
    (hb : .name b ∈ draft.leaves) (hne : a ≠ b) :
    draft.aliases.nameNumber a ≠ draft.aliases.nameNumber b := by
  intro h
  have hsame := (Lane.place_eq_place_iff (holds_name ha) (holds_name hb)).1 h
  exact hne (beq_iff_eq.1 hsame)

theorem Draft.leaves_keyCondition {draft : Draft} {plain : PlainKeyCondition}
    (h : draft.keyCondition = some plain) : ∀ leaf ∈ plain.leaves, leaf ∈ draft.leaves := by
  intro leaf hleaf
  exact mem_leaves_iff.2 (.inr (.inr (.inl ⟨plain, h, hleaf⟩)))

/-- A key name has one number, as the one segment of its path. -/
theorem KeyCondition.map_single (table : Aliases) (given : KeyCondition String AttributeValue) :
    (given.map (Path.mk · []) id).map table.numberPath table.valueNumber =
      (given.map table.nameNumber table.valueNumber).map (Path.mk · []) id := by
  rcases given with ⟨key, value, sort⟩
  cases sort with
  | none => rfl
  | some sort =>
      simp only [map, Option.map_some, SortKeyTest.map_id]
      rfl

theorem Draft.get_keyCondition {draft : Draft} {given : KeyCondition String AttributeValue}
    (h : draft.keyCondition = some (given.map (Path.mk · []) id)) :
    draft.expression.keyCondition =
      some (given.map draft.aliases.nameNumber draft.aliases.valueNumber).text := by
  change draft.keyCondition.map (keyConditionText draft.aliases) = _
  rw [h, Option.map_some, keyConditionText, KeyCondition.map_single, KeyCondition.texts_tokens]

namespace Builder

theorem exists_numbers {builder : Builder} {draft : Draft}
    {given : KeyCondition String AttributeValue} (hchecked : builder.checked = .ok draft)
    (hslot : builder.keyCondition = some (given.map NameRef.ofKey id)) :
    ∃ numbers : KeyCondition Nat Nat, draft.expression.keyCondition = some numbers.text ∧
      (∀ sort ∈ numbers.sort, sort.key ≠ numbers.key) ∧
      numbers.Rel draft.expression.NameIs draft.expression.ValueIs given := by
  have hkey := (checked_eq_ok_iff.1 hchecked).2.2.1
  rw [hslot] at hkey
  obtain ⟨plain, hplain, hdraft⟩ := checked_mapM_some_eq_ok_iff.1 hkey
  obtain ⟨rfl, hdiffer⟩ := KeyCondition.eq_of_checked hplain
  have hleaves := Draft.leaves_keyCondition hdraft
  refine ⟨given.map draft.aliases.nameNumber draft.aliases.valueNumber,
    Draft.get_keyCondition hdraft, ?_,
    KeyCondition.rel_of_explains fun leaf hleaf => draft.explains leaf (hleaves leaf hleaf)⟩
  intro sort hsort
  obtain ⟨other, hother, rfl⟩ := Option.map_eq_some_iff.1 hsort
  have hfirst : .name given.key ∈ draft.leaves :=
    hleaves _ (by simp [KeyCondition.leaves, KeyCondition.map, Path.leaves])
  have hsecond : .name other.key ∈ draft.leaves :=
    hleaves _ (by simp [KeyCondition.leaves, KeyCondition.map, SortKeyCondition.leaves,
      Path.leaves, hother])
  exact Draft.nameNumber_ne hsecond hfirst (hdiffer other hother)

/--
A key condition made from key names builds to a text of the query grammar with the aliases of two
different keys.  They stand for the key names as given, and for values that equal those given, in
their order.  On one same key name twice it never builds.
-/
theorem key_condition_grammatical {builder : Builder} {tree : SourceKeyCondition}
    {given : KeyCondition String AttributeValue} (hmade : given.Made tree)
    (hslot : builder.keyCondition = some tree) :
    (∀ expression, builder.build = .ok expression →
      ∃ numbers : KeyCondition Nat Nat, expression.keyCondition = some numbers.text ∧
        (∀ sort ∈ numbers.sort, sort.key ≠ numbers.key) ∧
        numbers.Rel expression.NameIs expression.ValueIs given) ∧
    ((∃ sort ∈ given.sort, sort.key = given.key) →
      ∃ fault, builder.build = .error (.invalid fault)) := by
  rw [hmade.eq_map] at hslot
  constructor
  · intro expression hbuild
    obtain ⟨-, draft, hchecked, -, rfl⟩ := build_eq_ok_iff.1 hbuild
    exact exists_numbers hchecked hslot
  · intro hsame
    rcases hsame with ⟨sort, hsort, hkey⟩
    have hholds : builder.Holds .keyCondition := by
      change builder.keyCondition ≠ none
      rw [hslot]
      exact Option.some_ne_none _
    refine build_invalid_iff.2 ⟨⟨_, hholds⟩, fun hgood => ?_⟩
    obtain ⟨draft, hchecked⟩ := checked_succeeds_iff.2 hgood.1
    have hslotted := (checked_eq_ok_iff.1 hchecked).2.2.1
    rw [hslot] at hslotted
    obtain ⟨plain, hplain, -⟩ := checked_mapM_some_eq_ok_iff.1 hslotted
    exact (KeyCondition.eq_of_checked hplain).2 sort hsort hkey

/-- A filter on a path whose first name is a key name, and a key name with points and brackets. -/
def dottedKeys : Builder where
  filter := some (.presence .attributeExists (.path ⟨"id", [.attribute "a.b[0]"]⟩))
  keyCondition := some (((KeyName.named "a.b[0]").equal (.string "p")).and
    ((KeyName.named "id").beginsWith "x"))

theorem dottedKeys_key_condition_grammatical :
    ∃ expression, dottedKeys.build = .ok expression ∧
      expression.texts = ["attribute_exists(#0.#1)", "#1 = :0 AND begins_with(#0, :1)"] ∧
      ∃ numbers : KeyCondition Nat Nat,
        numbers.text = "#1 = :0 AND begins_with(#0, :1)" ∧
        numbers.Rel expression.NameIs expression.ValueIs
          ⟨"a.b[0]", .string "p", some ⟨"id", .beginsWith (.string "x")⟩⟩ := by
  have hbuild : dottedKeys.build = .ok
      { condition := none, filter := some "attribute_exists(#0.#1)",
        keyCondition := some "#1 = :0 AND begins_with(#0, :1)", projection := none,
        update := none, aliases := ⟨["id", "a.b[0]"], [.string "p", .string "x"]⟩ } := by rfl
  have hslot : dottedKeys.keyCondition = some _ := rfl
  have hgrammatical := key_condition_grammatical
    (.and "a.b[0]" (.string "p") (.beginsWith "id" "x")) hslot
  obtain ⟨numbers, htext, -, hrel⟩ := hgrammatical.1 _ hbuild
  exact ⟨_, hbuild, rfl, numbers, (Option.some.inj htext).symm, hrel⟩

end Builder

end DynamoExpr
