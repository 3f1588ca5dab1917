import Mathlib.Data.List.Forall2
import DynamoExpr.Proofs.Tree.WellFormed

/-!
# Trees that say the same

Two trees are alike when they differ in their literals only, and those are related; conditions may
also differ in how a chain of one connective is grouped.  Alike conditions have the same truth,
whatever the truth of their atoms is.
-/

namespace DynamoExpr

variable {ν μ β γ τ : Type}

/-- The values are equal by the equality of values, which disregards the order in sets. -/
abbrev AttributeValue.Equals (v w : AttributeValue) : Prop := (v == w) = true

/-- The literals stand for equal values, a list standing for the value that it folds to. -/
def Literal.Alike (a b : Literal) : Prop :=
  ∃ v w, a.value? = some v ∧ b.value? = some w ∧ v.Equals w

inductive Operand.Like (R : β → β → Prop) : Operand ν β → Operand ν β → Prop where
  | name (path : ν) : Like R (.name path) (.name path)
  | value {a b : β} : R a b → Like R (.value a) (.value b)
  | size (path : ν) : Like R (.size path) (.size path)

inductive Condition.AtomLike (R : β → β → Prop) : Condition ν β → Condition ν β → Prop where
  | compare (op : Comparison) {left left' right right' : Operand ν β} :
      left.Like R left' → right.Like R right' →
      AtomLike R (.compare op left right) (.compare op left' right')
  | between {value value' low low' high high' : Operand ν β} :
      value.Like R value' → low.Like R low' → high.Like R high' →
      AtomLike R (.between value low high) (.between value' low' high')
  | within {value value' : Operand ν β} {candidates candidates' : List (Operand ν β)} :
      value.Like R value' → List.Forall₂ (Operand.Like R) candidates candidates' →
      AtomLike R (.within value candidates) (.within value' candidates')
  | presence (function : Presence) (path : ν) :
      AtomLike R (.presence function path) (.presence function path)
  | test (function : PathTest) (path : ν) {a b : β} :
      R a b → AtomLike R (.test function path a) (.test function path b)

/-- Conditions with like atoms, up to the grouping of chains of one connective. -/
inductive Condition.Like (R : β → β → Prop) : Condition ν β → Condition ν β → Prop where
  | atom {a b : Condition ν β} : AtomLike R a b → Like R a b
  | join (op : Connective) {left left' right right' : Condition ν β} :
      Like R left left' → Like R right right' →
      Like R (.join op left right) (.join op left' right')
  | not {inner inner' : Condition ν β} : Like R inner inner' → Like R (.not inner) (.not inner')
  | assoc (op : Connective) (a b c : Condition ν β) :
      Like R (.join op (.join op a b) c) (.join op a (.join op b c))
  | symm {a b : Condition ν β} : Like R a b → Like R b a
  | trans {a b c : Condition ν β} : Like R a b → Like R b c → Like R a c

inductive SetValue.Like (R : β → β → Prop) : SetValue ν β → SetValue ν β → Prop where
  | operand {a b : Operand ν β} : a.Like R b → Like R (.operand a) (.operand b)
  | arithmetic (op : Arithmetic) {left left' right right' : SetValue ν β} :
      Like R left left' → Like R right right' →
      Like R (.arithmetic op left right) (.arithmetic op left' right')
  | listAppend {left left' right right' : SetValue ν β} :
      Like R left left' → Like R right right' →
      Like R (.listAppend left right) (.listAppend left' right')
  | ifNotExists (path : ν) {fallback fallback' : SetValue ν β} :
      Like R fallback fallback' →
      Like R (.ifNotExists path fallback) (.ifNotExists path fallback')

structure Update.Like (R : β → β → Prop) (a b : Update ν β) : Prop where
  sets : List.Forall₂ (fun x y => x.1 = y.1 ∧ x.2.Like R y.2) a.sets b.sets
  removes : a.removes = b.removes
  adds : List.Forall₂ (fun x y => x.1 = y.1 ∧ R x.2 y.2) a.adds b.adds
  deletes : List.Forall₂ (fun x y => x.1 = y.1 ∧ R x.2 y.2) a.deletes b.deletes

theorem Operand.Like.refl {R : β → β → Prop} (hR : ∀ a, R a a) (operand : Operand ν β) :
    operand.Like R operand := by
  cases operand with
  | name path => exact .name path
  | value a => exact .value (hR a)
  | size path => exact .size path

theorem Condition.Like.refl {R : β → β → Prop} (hR : ∀ a, R a a) (condition : Condition ν β) :
    condition.Like R condition := by
  induction condition with
  | compare op left right =>
      exact .atom (.compare op (Operand.Like.refl hR left) (Operand.Like.refl hR right))
  | between value low high =>
      exact .atom (.between (Operand.Like.refl hR value) (Operand.Like.refl hR low)
        (Operand.Like.refl hR high))
  | within value candidates =>
      exact .atom (.within (Operand.Like.refl hR value)
        (List.forall₂_same.2 fun candidate _ => Operand.Like.refl hR candidate))
  | presence function path => exact .atom (.presence function path)
  | test function path a => exact .atom (.test function path (hR a))
  | join op left right hleft hright => exact .join op hleft hright
  | not inner hinner => exact .not hinner

/-! ## Truth -/

/-- Truth values with two associative connectives and a negation. -/
structure Logic (τ : Type) where
  and : τ → τ → τ
  or : τ → τ → τ
  not : τ → τ
  and_assoc : ∀ a b c, and (and a b) c = and a (and b c)
  or_assoc : ∀ a b c, or (or a b) c = or a (or b c)

def Logic.join (logic : Logic τ) : Connective → τ → τ → τ
  | .and => logic.and
  | .or => logic.or

theorem Logic.join_assoc (logic : Logic τ) (op : Connective) (a b c : τ) :
    logic.join op (logic.join op a b) c = logic.join op a (logic.join op b c) := by
  cases op with
  | and => exact logic.and_assoc a b c
  | or => exact logic.or_assoc a b c

/-- The truth of a condition by the truth of its atoms. -/
def Condition.truth (logic : Logic τ) (atom : Condition ν β → τ) : Condition ν β → τ
  | .join op left right => logic.join op (left.truth logic atom) (right.truth logic atom)
  | .not inner => logic.not (inner.truth logic atom)
  | c => atom c

theorem Condition.Like.truth_eq {R : β → β → Prop} {logic : Logic τ} {atom : Condition ν β → τ}
    (hatom : ∀ a b, AtomLike R a b → atom a = atom b) {a b : Condition ν β} (h : a.Like R b) :
    a.truth logic atom = b.truth logic atom := by
  induction h with
  | atom h =>
      have heq := hatom _ _ h
      cases h <;> exact heq
  | join op _ _ hleft hright => simp only [truth, hleft, hright]
  | not _ hinner => simp only [truth, hinner]
  | assoc op a b c => exact logic.join_assoc op _ _ _
  | symm _ h => exact h.symm
  | trans _ _ h k => exact h.trans k

/-! ## Change of literals -/

section Map

variable {R : β → β → Prop} {S : γ → γ → Prop} {g : β → γ}

theorem Operand.Like.map (f : ν → μ) (hR : ∀ a b, R a b → S (g a) (g b)) {a b : Operand ν β}
    (h : a.Like R b) : (a.map f g).Like S (b.map f g) := by
  cases h with
  | name path => exact .name _
  | value h => exact .value (hR _ _ h)
  | size path => exact .size _

theorem Condition.AtomLike.map (f : ν → μ) (hR : ∀ a b, R a b → S (g a) (g b))
    {a b : Condition ν β} (h : a.AtomLike R b) : (a.map f g).AtomLike S (b.map f g) := by
  cases h with
  | compare op hleft hright => exact .compare op (hleft.map f hR) (hright.map f hR)
  | between hvalue hlow hhigh =>
      exact .between (hvalue.map f hR) (hlow.map f hR) (hhigh.map f hR)
  | within hvalue hcandidates =>
      refine .within (hvalue.map f hR) ?_
      rw [List.forall₂_map_left_iff, List.forall₂_map_right_iff]
      exact hcandidates.imp fun _ _ h => h.map f hR
  | presence function path => exact .presence function _
  | test function path h => exact .test function _ (hR _ _ h)

theorem Condition.Like.map (f : ν → μ) (hR : ∀ a b, R a b → S (g a) (g b))
    {a b : Condition ν β} (h : a.Like R b) : (a.map f g).Like S (b.map f g) := by
  induction h with
  | atom h => exact .atom (h.map f hR)
  | join op _ _ hleft hright => exact .join op hleft hright
  | not _ hinner => exact .not hinner
  | assoc op a b c => exact .assoc op _ _ _
  | symm _ h => exact h.symm
  | trans _ _ h k => exact h.trans k

theorem SetValue.Like.map (f : ν → μ) (hR : ∀ a b, R a b → S (g a) (g b))
    {a b : SetValue ν β} (h : a.Like R b) : (a.map f g).Like S (b.map f g) := by
  induction h with
  | operand h => exact .operand (h.map f hR)
  | arithmetic op _ _ hleft hright => exact .arithmetic op hleft hright
  | listAppend _ _ hleft hright => exact .listAppend hleft hright
  | ifNotExists path _ hfallback => exact .ifNotExists _ hfallback

/-- Actions with the same targets and related values, after a change of both. -/
theorem forall₂_actions_map {α α' : Type} {P : α → α → Prop} {Q : α' → α' → Prop} {k : α → α'}
    (f : ν → μ) (hk : ∀ a b, P a b → Q (k a) (k b)) {xs ys : List (ν × α)}
    (h : List.Forall₂ (fun x y => x.1 = y.1 ∧ P x.2 y.2) xs ys) :
    List.Forall₂ (fun x y => x.1 = y.1 ∧ Q x.2 y.2) (xs.map fun x => (f x.1, k x.2))
      (ys.map fun y => (f y.1, k y.2)) := by
  rw [List.forall₂_map_left_iff, List.forall₂_map_right_iff]
  apply h.imp
  intro x y hxy
  exact ⟨congrArg f hxy.1, hk _ _ hxy.2⟩

theorem Update.Like.map (f : ν → μ) (hR : ∀ a b, R a b → S (g a) (g b)) {a b : Update ν β}
    (h : a.Like R b) : (a.map f g).Like S (b.map f g) where
  sets := forall₂_actions_map f (fun _ _ ha => ha.map f hR) h.sets
  removes := congrArg (List.map f) h.removes
  adds := forall₂_actions_map f hR h.adds
  deletes := forall₂_actions_map f hR h.deletes

end Map

/-! ## Transitivity -/

section Trans

variable {R : β → β → Prop}

theorem Operand.Like.trans (hR : ∀ a b c, R a b → R b c → R a c) {a b c : Operand ν β}
    (h : a.Like R b) (k : b.Like R c) : a.Like R c := by
  cases h with
  | name path => exact k
  | value hab =>
      cases k with
      | value hbc => exact .value (hR _ _ _ hab hbc)
  | size path => exact k

theorem SetValue.Like.trans (hR : ∀ a b c, R a b → R b c → R a c) {a b c : SetValue ν β}
    (h : a.Like R b) (k : b.Like R c) : a.Like R c := by
  induction h generalizing c with
  | operand hab =>
      cases k with
      | operand hbc => exact .operand (hab.trans hR hbc)
  | arithmetic op _ _ hleft hright =>
      cases k with
      | arithmetic _ kleft kright => exact .arithmetic op (hleft kleft) (hright kright)
  | listAppend _ _ hleft hright =>
      cases k with
      | listAppend kleft kright => exact .listAppend (hleft kleft) (hright kright)
  | ifNotExists path _ hfallback =>
      cases k with
      | ifNotExists _ kfallback => exact .ifNotExists path (hfallback kfallback)

theorem forall₂_trans {α : Type} {S : α → α → Prop} (hS : ∀ a b c, S a b → S b c → S a c)
    {xs ys zs : List α} (h : List.Forall₂ S xs ys) (k : List.Forall₂ S ys zs) :
    List.Forall₂ S xs zs := by
  induction h generalizing zs with
  | nil => exact k
  | cons hxy _ ih =>
      cases k with
      | cons hyz hrest => exact .cons (hS _ _ _ hxy hyz) (ih hrest)

theorem Update.Like.trans (hR : ∀ a b c, R a b → R b c → R a c) {a b c : Update ν β}
    (h : a.Like R b) (k : b.Like R c) : a.Like R c where
  sets := forall₂_trans (fun _ _ _ hxy hyz => ⟨hxy.1.trans hyz.1, hxy.2.trans hR hyz.2⟩)
    h.sets k.sets
  removes := h.removes.trans k.removes
  adds := forall₂_trans (fun _ _ _ hxy hyz => ⟨hxy.1.trans hyz.1, hR _ _ _ hxy.2 hyz.2⟩)
    h.adds k.adds
  deletes := forall₂_trans (fun _ _ _ hxy hyz => ⟨hxy.1.trans hyz.1, hR _ _ _ hxy.2 hyz.2⟩)
    h.deletes k.deletes

end Trans

theorem Literal.Alike.trans (a b c : Literal) (h : a.Alike b) (k : b.Alike c) : a.Alike c := by
  rcases h with ⟨v, w, hv, hw, hvw⟩
  rcases k with ⟨w', u, hw', hu, hwu⟩
  rw [hw] at hw'
  cases hw'
  exact ⟨v, u, hv, hu, BEq.trans hvw hwu⟩

/-! ## The plain tree and the tree of the user -/

theorem Literal.alike_of_equals {v w : AttributeValue} (h : v.Equals w) :
    (Literal.value v).Alike (.value w) := ⟨v, w, rfl, rfl, h⟩

theorem NameRef.checked_eq_ok_iff {ref : NameRef} {p : AttributePath} :
    ref.checked = .ok p ↔ ref = .path p := by
  cases ref <;> simp [checked]

theorem Literal.alike_of_checked {l : Literal} {v : AttributeValue} (h : l.checked = .ok v) :
    (Literal.value v).Alike l := ⟨v, v, rfl, (checked_eq_ok_iff.1 h).1, BEq.rfl⟩

theorem Operand.like_of_checked {source : SourceOperand} {plain : PlainOperand}
    (h : source.checked = .ok plain) :
    (plain.map NameRef.path Literal.value).Like Literal.Alike source := by
  cases source with
  | name ref =>
      obtain ⟨p, hp, h⟩ := bind_eq_ok_iff.1 h
      cases h
      rw [NameRef.checked_eq_ok_iff.1 hp]
      exact .name _
  | value l =>
      obtain ⟨v, hv, h⟩ := bind_eq_ok_iff.1 h
      cases h
      exact .value (Literal.alike_of_checked hv)
  | size ref =>
      obtain ⟨p, hp, h⟩ := bind_eq_ok_iff.1 h
      cases h
      rw [NameRef.checked_eq_ok_iff.1 hp]
      exact .size _

theorem forall₂_of_mapM_checked {ι : Type} {check : ι → Except ParameterFault β} {xs : List ι}
    {ys : List β} (h : xs.mapM check = .ok ys) :
    List.Forall₂ (fun y x => check x = .ok y) ys xs := by
  induction xs generalizing ys with
  | nil =>
      cases h
      exact .nil
  | cons x rest ih =>
      rw [List.mapM_cons, bind_eq_ok_iff] at h
      rcases h with ⟨y, hy, h⟩
      obtain ⟨more, hmore, h⟩ := bind_eq_ok_iff.1 h
      cases h
      exact .cons hy (ih hmore)

theorem Condition.like_of_checked {limits : Limits} {source : SourceCondition}
    {plain : PlainCondition} (h : source.checked limits = .ok plain) :
    (plain.map NameRef.path Literal.value).Like Literal.Alike source := by
  induction source generalizing plain with
  | compare op left right =>
      obtain ⟨l, hl, h⟩ := bind_eq_ok_iff.1 h
      obtain ⟨r, hr, h⟩ := bind_eq_ok_iff.1 h
      cases h
      exact .atom (.compare op (Operand.like_of_checked hl) (Operand.like_of_checked hr))
  | between value low high =>
      obtain ⟨v, hv, h⟩ := bind_eq_ok_iff.1 h
      obtain ⟨l, hl, h⟩ := bind_eq_ok_iff.1 h
      obtain ⟨u, hu, h⟩ := bind_eq_ok_iff.1 h
      cases h
      exact .atom (.between (Operand.like_of_checked hv) (Operand.like_of_checked hl)
        (Operand.like_of_checked hu))
  | within value candidates =>
      have h := (unlessFault_eq_ok_iff.1 (unlessFault_eq_ok_iff.1 h).2).2
      obtain ⟨v, hv, h⟩ := bind_eq_ok_iff.1 h
      obtain ⟨cs, hcs, h⟩ := bind_eq_ok_iff.1 h
      cases h
      refine .atom (.within (Operand.like_of_checked hv) ?_)
      rw [List.forall₂_map_left_iff]
      exact (forall₂_of_mapM_checked hcs).imp fun _ _ hc => Operand.like_of_checked hc
  | presence function ref =>
      obtain ⟨p, hp, h⟩ := bind_eq_ok_iff.1 h
      cases h
      rw [NameRef.checked_eq_ok_iff.1 hp]
      exact .atom (.presence function _)
  | test function ref l =>
      obtain ⟨p, hp, h⟩ := bind_eq_ok_iff.1 h
      obtain ⟨v, hv, h⟩ := bind_eq_ok_iff.1 h
      cases h
      rw [NameRef.checked_eq_ok_iff.1 hp]
      exact .atom (.test function _ (Literal.alike_of_checked hv))
  | join op left right hleft hright =>
      obtain ⟨l, hl, h⟩ := bind_eq_ok_iff.1 h
      obtain ⟨r, hr, h⟩ := bind_eq_ok_iff.1 h
      cases h
      exact .join op (hleft hl) (hright hr)
  | not inner hinner =>
      obtain ⟨i, hi, h⟩ := bind_eq_ok_iff.1 h
      cases h
      exact .not (hinner hi)

theorem SetValue.like_of_checked {source : SetValue NameRef Literal} {plain : PlainSetValue}
    (h : source.checked = .ok plain) :
    (plain.map NameRef.path Literal.value).Like Literal.Alike source := by
  induction source generalizing plain with
  | operand source =>
      cases source with
      | name ref =>
          obtain ⟨o, ho, h⟩ := bind_eq_ok_iff.1 h
          cases h
          exact .operand (Operand.like_of_checked ho)
      | value l =>
          obtain ⟨o, ho, h⟩ := bind_eq_ok_iff.1 h
          cases h
          exact .operand (Operand.like_of_checked ho)
      | size ref => cases h
  | arithmetic op left right hleft hright =>
      have h := (unlessFault_eq_ok_iff.1 h).2
      obtain ⟨l, hl, h⟩ := bind_eq_ok_iff.1 h
      obtain ⟨r, hr, h⟩ := bind_eq_ok_iff.1 h
      cases h
      exact .arithmetic op (hleft hl) (hright hr)
  | listAppend left right hleft hright =>
      obtain ⟨l, hl, h⟩ := bind_eq_ok_iff.1 h
      obtain ⟨r, hr, h⟩ := bind_eq_ok_iff.1 h
      cases h
      exact .listAppend (hleft hl) (hright hr)
  | ifNotExists ref fallback hfallback =>
      obtain ⟨p, hp, h⟩ := bind_eq_ok_iff.1 h
      obtain ⟨v, hv, h⟩ := bind_eq_ok_iff.1 h
      cases h
      rw [NameRef.checked_eq_ok_iff.1 hp]
      exact .ifNotExists _ (hfallback hv)

theorem SetValue.like_of_checkedAction {action : NameRef × SetValue NameRef Literal}
    {plain : AttributePath × PlainSetValue} (h : SetValue.checkedAction action = .ok plain) :
    NameRef.path plain.1 = action.1 ∧
      (plain.2.map NameRef.path Literal.value).Like Literal.Alike action.2 := by
  obtain ⟨p, hp, h⟩ := bind_eq_ok_iff.1 h
  obtain ⟨v, hv, h⟩ := bind_eq_ok_iff.1 h
  cases h
  exact ⟨(NameRef.checked_eq_ok_iff.1 hp).symm, SetValue.like_of_checked hv⟩

theorem LiteralClause.alike_of_checkedAction {clause : LiteralClause} {action : NameRef × Literal}
    {plain : AttributePath × AttributeValue} (h : clause.checkedAction action = .ok plain) :
    NameRef.path plain.1 = action.1 ∧ (Literal.value plain.2).Alike action.2 := by
  have h := (unlessFault_eq_ok_iff.1 h).2
  obtain ⟨p, hp, h⟩ := bind_eq_ok_iff.1 h
  obtain ⟨v, hv, h⟩ := bind_eq_ok_iff.1 h
  cases h
  exact ⟨(NameRef.checked_eq_ok_iff.1 hp).symm, Literal.alike_of_checked hv⟩

/-- Each list of the plain update is what the check of its actions gives. -/
theorem Update.lists_of_checked {source : SourceUpdate} {plain : PlainUpdate}
    (h : source.checked = .ok plain) :
    source.sets.mapM SetValue.checkedAction = .ok plain.sets ∧
      source.removes.mapM NameRef.checked = .ok plain.removes ∧
      source.adds.mapM LiteralClause.add.checkedAction = .ok plain.adds ∧
      source.deletes.mapM LiteralClause.delete.checkedAction = .ok plain.deletes := by
  have h := (unlessFault_eq_ok_iff.1 h).2
  obtain ⟨sets, hsets, h⟩ := bind_eq_ok_iff.1 h
  obtain ⟨removes, hremoves, h⟩ := bind_eq_ok_iff.1 h
  obtain ⟨adds, hadds, h⟩ := bind_eq_ok_iff.1 h
  obtain ⟨deletes, hdeletes, h⟩ := bind_eq_ok_iff.1 h
  cases h
  exact ⟨hsets, hremoves, hadds, hdeletes⟩

theorem Update.like_of_checked {source : SourceUpdate} {plain : PlainUpdate}
    (h : source.checked = .ok plain) :
    (plain.map NameRef.path Literal.value).Like Literal.Alike source := by
  obtain ⟨hsets, hremoves, hadds, hdeletes⟩ := lists_of_checked h
  refine ⟨?_, ?_, ?_, ?_⟩
  · have hactions := (forall₂_of_mapM_checked hsets).imp fun _ _ ha =>
      SetValue.like_of_checkedAction ha
    exact List.forall₂_map_left_iff.2 hactions
  · have hpaths := (forall₂_of_mapM_checked hremoves).imp fun p ref hp =>
      (NameRef.checked_eq_ok_iff.1 hp).symm
    exact List.forall₂_eq_eq_eq ▸ List.forall₂_map_left_iff.2 hpaths
  · have hactions := (forall₂_of_mapM_checked hadds).imp fun _ _ ha =>
      LiteralClause.alike_of_checkedAction ha
    exact List.forall₂_map_left_iff.2 hactions
  · have hactions := (forall₂_of_mapM_checked hdeletes).imp fun _ _ ha =>
      LiteralClause.alike_of_checkedAction ha
    exact List.forall₂_map_left_iff.2 hactions

end DynamoExpr
