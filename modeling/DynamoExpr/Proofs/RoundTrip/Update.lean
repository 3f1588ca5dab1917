import DynamoExpr.Proofs.Grammar.Update
import DynamoExpr.Proofs.Tree.Alike

/-!
# Reading updates back

The text of an update made by any calls has one derivation tree.  With the entries for its aliases
that tree has the actions of the calls, kind by kind in the order of the calls, so the way in which
the kinds were interleaved leaves no trace.
-/

namespace DynamoExpr

open Grammar

/-! ## Calls -/

inductive UpdateCall (ν β : Type) where
  | set (target : ν) (value : SetValue ν β)
  | remove (target : ν)
  | add (target : ν) (value : β)
  | delete (target : ν) (value : β)

namespace UpdateCall

variable {ν β : Type}

def set? : UpdateCall ν β → Option (ν × SetValue ν β)
  | .set target value => some (target, value)
  | _ => none

def remove? : UpdateCall ν β → Option ν
  | .remove target => some target
  | _ => none

def add? : UpdateCall ν β → Option (ν × β)
  | .add target value => some (target, value)
  | _ => none

def delete? : UpdateCall ν β → Option (ν × β)
  | .delete target value => some (target, value)
  | _ => none

def apply (update : Update ν β) : UpdateCall ν β → Update ν β
  | .set target value => update.set target value
  | .remove target => update.remove target
  | .add target value => update.add target value
  | .delete target value => update.delete target value

end UpdateCall

namespace Update

variable {ν β : Type}

def ofCalls (calls : List (UpdateCall ν β)) : Update ν β := calls.foldl UpdateCall.apply {}

def byKind (calls : List (UpdateCall ν β)) : Update ν β where
  sets := calls.filterMap UpdateCall.set?
  removes := calls.filterMap UpdateCall.remove?
  adds := calls.filterMap UpdateCall.add?
  deletes := calls.filterMap UpdateCall.delete?

theorem foldl_apply (update : Update ν β) (calls : List (UpdateCall ν β)) :
    calls.foldl UpdateCall.apply update =
      ⟨update.sets ++ (byKind calls).sets, update.removes ++ (byKind calls).removes,
        update.adds ++ (byKind calls).adds, update.deletes ++ (byKind calls).deletes⟩ := by
  induction calls generalizing update with
  | nil => simp [byKind]
  | cons call rest ih =>
      rw [List.foldl_cons, ih]
      cases call <;>
        simp [byKind, UpdateCall.apply, set, remove, add, delete, UpdateCall.set?,
          UpdateCall.remove?, UpdateCall.add?, UpdateCall.delete?, List.filterMap_cons]

theorem ofCalls_eq_byKind (calls : List (UpdateCall ν β)) : ofCalls calls = byKind calls := by
  unfold ofCalls
  rw [foldl_apply]
  rfl

end Update

/-! ## SET values -/

namespace SetValue

variable {dictionary : Dictionary} {table : Aliases}

/-- The grammar has no size, and no sum or difference directly within another. -/
def Grammatical {ν β : Type} : SetValue ν β → Prop
  | .operand (.size _) => False
  | .operand _ => True
  | .arithmetic _ left right =>
    left.isArithmetic = false ∧ right.isArithmetic = false ∧ left.Grammatical ∧ right.Grammatical
  | .listAppend left right => left.Grammatical ∧ right.Grammatical
  | .ifNotExists _ fallback => fallback.Grammatical

def numbered (table : Aliases) (value : PlainSetValue) : List Token :=
  (value.map table.numberPath table.valueNumber).tokens

def ReadsAs (read : Option PlainSetValue) (value : PlainSetValue) : Prop :=
  ∃ v, read = some v ∧ v.Like AttributeValue.Equals value

/-- A tree for the value, and a term for one that is no sum or difference. -/
structure Reads (dictionary : Dictionary) (table : Aliases) (value : PlainSetValue) : Prop where
  whole : ∃ v : Value, v.tokens = value.numbered table ∧ ReadsAs (v.setValue? dictionary) value
  term : value.isArithmetic = false →
    ∃ t : Term, t.tokens = value.numbered table ∧ ReadsAs (t.setValue? dictionary) value

theorem Reads.ofTerm {value : PlainSetValue}
    (h : ∃ t : Term, t.tokens = value.numbered table ∧ ReadsAs (t.setValue? dictionary) value) :
    value.Reads dictionary table := by
  refine ⟨?_, fun _ => h⟩
  rcases h with ⟨t, htokens, hread⟩
  exact ⟨.single t, htokens, hread⟩

theorem reads {value : PlainSetValue} (hvalue : value.Grammatical)
    (h : ∀ leaf ∈ value.leaves, dictionary.Explains table leaf) :
    value.Reads dictionary table := by
  induction value with
  | operand source =>
      cases source with
      | name path =>
          refine .ofTerm ⟨.name (table.numberPath path), rfl, .operand (.name path), ?_,
            .operand (.name path)⟩
          rw [Term.setValue?, Dictionary.path?_numberPath h]
          rfl
      | value v =>
          obtain ⟨w, hw, heq⟩ := h (.value v) (List.mem_singleton.2 rfl)
          refine .ofTerm ⟨.value (table.valueNumber v), rfl, .operand (.value w), ?_,
            .operand (.value heq)⟩
          rw [Term.setValue?, hw]
          rfl
      | size path => exact hvalue.elim
  | arithmetic op left right hleft hright =>
      rcases hvalue with ⟨hleft', hright', hl, hr⟩
      obtain ⟨hleaves, hleaves'⟩ := List.forall_mem_append.1 h
      obtain ⟨t, htokens, x, hx, hlikex⟩ := (hleft hl hleaves).term hleft'
      obtain ⟨u, hutokens, y, hy, hlikey⟩ := (hright hr hleaves').term hright'
      refine ⟨⟨.arithmetic op t u, ?_, .arithmetic op x y, ?_, .arithmetic op hlikex hlikey⟩, ?_⟩
      · rw [Value.tokens, htokens, hutokens]
        rfl
      · rw [Value.setValue?, hx, hy]
        rfl
      · intro hno
        cases hno
  | listAppend left right hleft hright =>
      obtain ⟨hleaves, hleaves'⟩ := List.forall_mem_append.1 h
      obtain ⟨v, htokens, x, hx, hlikex⟩ := (hleft hvalue.1 hleaves).whole
      obtain ⟨w, hwtokens, y, hy, hlikey⟩ := (hright hvalue.2 hleaves').whole
      refine .ofTerm ⟨.listAppend v w, ?_, .listAppend x y, ?_, .listAppend hlikex hlikey⟩
      · rw [Term.tokens, htokens, hwtokens]
        simp [numbered, map, tokens]
      · rw [Term.setValue?, hx, hy]
        rfl
  | ifNotExists path fallback hfallback =>
      obtain ⟨hpath, hleaves⟩ := List.forall_mem_append.1 h
      obtain ⟨v, htokens, x, hx, hlike⟩ := (hfallback hvalue hleaves).whole
      refine .ofTerm ⟨.ifNotExists (table.numberPath path) v, ?_, .ifNotExists path x, ?_,
        .ifNotExists path hlike⟩
      · rw [Term.tokens, htokens]
        simp [numbered, map, tokens]
      · rw [Term.setValue?, Dictionary.path?_numberPath hpath, hx]
        rfl

theorem isArithmetic_of_checked {source : SetValue NameRef Literal} {plain : PlainSetValue}
    (h : source.checked = .ok plain) : plain.isArithmetic = source.isArithmetic := by
  have hlike := SetValue.like_of_checked h
  cases source <;> cases plain <;> first | rfl | cases hlike

theorem grammatical_of_checked {source : SetValue NameRef Literal} {plain : PlainSetValue}
    (h : source.checked = .ok plain) : plain.Grammatical := by
  induction source generalizing plain with
  | operand source =>
      cases source with
      | name ref =>
          obtain ⟨o, ho, h⟩ := bind_eq_ok_iff.1 h
          obtain ⟨p, -, ho⟩ := bind_eq_ok_iff.1 ho
          cases h
          cases ho
          trivial
      | value l =>
          obtain ⟨o, ho, h⟩ := bind_eq_ok_iff.1 h
          obtain ⟨v, -, ho⟩ := bind_eq_ok_iff.1 ho
          cases h
          cases ho
          trivial
      | size ref => cases h
  | arithmetic op left right hleft hright =>
      obtain ⟨hsides, h⟩ := unlessFault_eq_ok_iff.1 h
      obtain ⟨l, hl, h⟩ := bind_eq_ok_iff.1 h
      obtain ⟨r, hr, h⟩ := bind_eq_ok_iff.1 h
      cases h
      simp only [Bool.or_eq_true, not_or, Bool.not_eq_true] at hsides
      exact ⟨(isArithmetic_of_checked hl).trans hsides.1,
        (isArithmetic_of_checked hr).trans hsides.2, hleft hl, hright hr⟩
  | listAppend left right hleft hright =>
      obtain ⟨l, hl, h⟩ := bind_eq_ok_iff.1 h
      obtain ⟨r, hr, h⟩ := bind_eq_ok_iff.1 h
      cases h
      exact ⟨hleft hl, hright hr⟩
  | ifNotExists ref fallback hfallback =>
      obtain ⟨p, -, h⟩ := bind_eq_ok_iff.1 h
      obtain ⟨v, hv, h⟩ := bind_eq_ok_iff.1 h
      cases h
      have hgrammatical := hfallback hv
      exact hgrammatical

end SetValue

/-! ## Lists of actions -/

/-- Trees for all items of a list when there is one for each item. -/
theorem exists_trees {α β γ : Type} {shown : α → List Token} {tokens : β → List Token}
    {read? : β → Option γ} {Like : γ → α → Prop} {xs : List α}
    (h : ∀ x ∈ xs, ∃ y z, tokens y = shown x ∧ read? y = some z ∧ Like z x) :
    ∃ (ys : List β) (zs : List γ), ys.map tokens = xs.map shown ∧
      ys.mapM read? = some zs ∧ List.Forall₂ Like zs xs := by
  induction xs with
  | nil => exact ⟨[], [], rfl, rfl, .nil⟩
  | cons x rest ih =>
      obtain ⟨⟨y, z, htokens, hread, hlike⟩, hrest⟩ := List.forall_mem_cons.1 h
      obtain ⟨ys, zs, hys, hzs, hall⟩ := ih hrest
      refine ⟨y :: ys, z :: zs, ?_, ?_, .cons hlike hall⟩
      · rw [List.map_cons, List.map_cons, htokens, hys]
      · rw [List.mapM_cons, hread, hzs]
        rfl

namespace Update

variable {dictionary : Dictionary} {table : Aliases}

def numbered (table : Aliases) (update : PlainUpdate) : List Token :=
  (update.map table.numberPath table.valueNumber).tokens

theorem exists_set {action : AttributePath × PlainSetValue} (haction : action.2.Grammatical)
    (h : ∀ leaf ∈ action.1.leaves ++ action.2.leaves, dictionary.Explains table leaf) :
    ∃ (y : Path Nat × Value) (z : AttributePath × PlainSetValue),
      setTokens y = (table.numberPath action.1).tokens ++ .comparison .eq ::
        action.2.numbered table ∧
      readSet? dictionary y = some z ∧ z.1 = action.1 ∧ z.2.Like AttributeValue.Equals action.2 := by
  obtain ⟨hpath, hvalue⟩ := List.forall_mem_append.1 h
  obtain ⟨v, htokens, x, hx, hlike⟩ := (SetValue.reads haction hvalue).whole
  refine ⟨(table.numberPath action.1, v), (action.1, x), ?_, ?_, rfl, hlike⟩
  · rw [setTokens, htokens]
  · rw [readSet?, Dictionary.path?_numberPath hpath, hx]
    rfl

theorem exists_change {action : AttributePath × AttributeValue}
    (h : ∀ leaf ∈ action.1.leaves ++ [.value action.2], dictionary.Explains table leaf) :
    ∃ (y : Path Nat × Nat) (z : AttributePath × AttributeValue),
      changeTokens y = (table.numberPath action.1).tokens ++
        [.space, .valueAlias (table.valueNumber action.2)] ∧
      readChange? dictionary y = some z ∧ z.1 = action.1 ∧ z.2.Equals action.2 := by
  obtain ⟨hpath, hvalue⟩ := List.forall_mem_append.1 h
  obtain ⟨w, hw, heq⟩ := hvalue (.value action.2) (List.mem_singleton.2 rfl)
  refine ⟨(table.numberPath action.1, table.valueNumber action.2), (action.1, w), rfl, ?_, rfl, heq⟩
  rw [readChange?, Dictionary.path?_numberPath hpath, hw]
  rfl

theorem exists_actions {update : PlainUpdate}
    (hsets : ∀ action ∈ update.sets, action.2.Grammatical)
    (h : ∀ leaf ∈ update.leaves, dictionary.Explains table leaf) :
    ∃ (actions : Actions) (read : PlainUpdate), actions.tokens = update.numbered table ∧
      actions.update? dictionary = some read ∧ read.Like AttributeValue.Equals update := by
  simp only [leaves, List.forall_mem_append] at h
  rcases h with ⟨⟨⟨hset, hremove⟩, hadd⟩, hdelete⟩
  have hchange : ∀ actions : List (AttributePath × AttributeValue),
      (∀ leaf ∈ actions.flatMap fun action => action.1.leaves ++ [.value action.2],
        dictionary.Explains table leaf) →
      ∀ action ∈ actions, _ := fun actions hactions action haction =>
    exists_change fun leaf hleaf => hactions leaf (List.mem_flatMap.2 ⟨action, haction, hleaf⟩)
  obtain ⟨sets, reads, hsets, hreads, hlike⟩ := exists_trees fun action haction =>
    exists_set (hsets action haction) fun leaf hleaf =>
      hset leaf (List.mem_flatMap.2 ⟨action, haction, hleaf⟩)
  obtain ⟨adds, addReads, hadds, haddReads, haddLike⟩ := exists_trees (hchange _ hadd)
  obtain ⟨deletes, deleteReads, hdeletes, hdeleteReads, hdeleteLike⟩ :=
    exists_trees (hchange _ hdelete)
  have hremoves := Dictionary.paths?_numberPath hremove
  refine ⟨⟨sets, update.removes.map table.numberPath, adds, deletes⟩,
    ⟨reads, update.removes, addReads, deleteReads⟩, ?_, ?_, hlike, rfl, haddLike, hdeleteLike⟩
  · rw [Actions.tokens, Actions.clauses, hsets, hadds, hdeletes]
    simp only [numbered, map, tokens, List.map_map]
    rfl
  · rw [Actions.update?, hreads, hremoves, haddReads, hdeleteReads]
    rfl

theorem grammatical_of_checked {source : SourceUpdate} {plain : PlainUpdate}
    (h : source.checked = .ok plain) : ∀ action ∈ plain.sets, action.2.Grammatical := by
  obtain ⟨hsets, -⟩ := lists_of_checked h
  intro action haction
  obtain ⟨source', hsource'⟩ := exists_checked_of_mem hsets haction
  obtain ⟨p, -, hsource'⟩ := bind_eq_ok_iff.1 hsource'
  obtain ⟨v, hv, hsource'⟩ := bind_eq_ok_iff.1 hsource'
  cases hsource'
  exact SetValue.grammatical_of_checked hv

end Update

/-! ## Built updates -/

theorem Builder.update_checked {builder : Builder} {draft : Draft} {tree : SourceUpdate}
    (h : builder.checked = .ok draft) (htree : builder.update = some tree) :
    ∃ plain, tree.checked = .ok plain ∧ draft.update = some plain := by
  obtain ⟨-, -, -, -, hupdate⟩ := checked_eq_ok_iff.1 h
  rw [htree] at hupdate
  exact checked_mapM_some_eq_ok_iff.1 hupdate

/--
The text of a built update has exactly one derivation tree.  With the entries of the two maps for
its aliases this is the update of the calls, each kind in the order of its calls, up to the folding
of lists and the equality of values.  Calls with the same actions of each kind have the same outcome
in every builder, be it an expression or an error.
-/
theorem Builder.update_round_trip (calls : List (UpdateCall NameRef Literal)) :
    (∀ (builder : Builder) (expression : Expression),
      builder.update = some (Update.ofCalls calls) → builder.build = .ok expression →
      ∃ (text : String) (parsed : Actions) (read : PlainUpdate),
        expression.update = some text ∧
        (∀ actions : Actions, actions.text = text ↔ actions = parsed) ∧
        parsed.update? expression.dictionary = some read ∧
        (read.map NameRef.path Literal.value).Like Literal.Alike (Update.byKind calls)) ∧
    ∀ calls' : List (UpdateCall NameRef Literal), Update.byKind calls' = Update.byKind calls →
      ∀ other : Builder, (other.withUpdate (Update.ofCalls calls')).build =
        (other.withUpdate (Update.ofCalls calls)).build := by
  refine ⟨?_, ?_⟩
  · intro builder expression hcalls hbuild
    obtain ⟨-, draft, hdraft, -, rfl⟩ := build_eq_ok_iff.1 hbuild
    obtain ⟨plain, hchecked, hplain⟩ := update_checked hdraft hcalls
    have hleaves : ∀ leaf ∈ plain.leaves, leaf ∈ draft.leaves := by
      intro leaf hleaf
      unfold Draft.leaves
      rw [hplain]
      exact List.mem_append_right _ hleaf
    obtain ⟨parsed, read, htokens, hread, hlike⟩ := Update.exists_actions
      (Update.grammatical_of_checked hchecked) fun leaf hleaf =>
        draft.explains leaf (hleaves leaf hleaf)
    have htext : draft.expression.update = some parsed.text := by
      rw [Draft.expression, hplain, ← parsed.texts_tokens, htokens]
      rfl
    refine ⟨parsed.text, parsed, read, htext,
      fun actions => ⟨Actions.text_injective, fun h => by rw [h]⟩, hread, ?_⟩
    rw [← Update.ofCalls_eq_byKind]
    have hequals : (read.map NameRef.path Literal.value).Like Literal.Alike
        (plain.map NameRef.path Literal.value) :=
      hlike.map NameRef.path fun _ _ heq => Literal.alike_of_equals heq
    exact hequals.trans Literal.Alike.trans (Update.like_of_checked hchecked)
  · intro calls' hkinds other
    rw [Update.ofCalls_eq_byKind, Update.ofCalls_eq_byKind, hkinds]

/-- Calls of all four kinds, the two for SET with others between them. -/
def UpdateCall.interleaved : List (UpdateCall NameRef Literal) :=
  [.delete (.path ⟨"c", []⟩) (.value (.stringSet ["x", "y"])),
    .set (.path ⟨"a", []⟩) (.arithmetic .minus (.operand (.name (.path ⟨"a", []⟩)))
      (.ifNotExists (.path ⟨"b", []⟩) (.operand (.value (.value (.string "x")))))),
    .remove (.path ⟨"d", []⟩),
    .set (.path ⟨"b", []⟩) (.operand (.value (.list [.value (.value (.string "x"))]))),
    .add (.path ⟨"c", []⟩) (.value (.stringSet ["y", "x"]))]

theorem interleaved_update_round_trip :
    ∃ (parsed : Actions) (read : PlainUpdate),
      (∀ actions : Actions, actions.text =
        "SET #0 = #0 - if_not_exists(#1, :0), #1 = :1 REMOVE #2 ADD #3 :2 DELETE #3 :2" ↔
          actions = parsed) ∧
      (read.map NameRef.path Literal.value).Like Literal.Alike
        (Update.byKind UpdateCall.interleaved) := by
  have hbuild : ({ update := some (Update.ofCalls UpdateCall.interleaved) } : Builder).build = .ok
      { condition := none, filter := none, keyCondition := none, projection := none,
        update :=
          some "SET #0 = #0 - if_not_exists(#1, :0), #1 = :1 REMOVE #2 ADD #3 :2 DELETE #3 :2",
        aliases := ⟨["a", "b", "d", "c"],
          [.string "x", .list [.string "x"], .stringSet ["y", "x"]]⟩ } := by rfl
  obtain ⟨text, parsed, read, htext, hunique, -, hlike⟩ :=
    (Builder.update_round_trip UpdateCall.interleaved).1 _ _ rfl hbuild
  cases htext
  exact ⟨parsed, read, hunique, hlike⟩

end DynamoExpr
