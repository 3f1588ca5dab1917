import DynamoExpr.Proofs.Alias.Lane
import DynamoExpr.Proofs.Tree.Checked
import DynamoExpr.Proofs.Value.Storable

/-!
# What aliasing does to the table

A table is sound when its values are storable.  From a sound table, aliasing a tree fails with the
first fault of the tree, or enters the leaves of the plain tree in order and gives the plain tree
with the numbers of its leaves, which no later entry changes.
-/

namespace DynamoExpr

namespace Aliases

def enter (table : Aliases) : Leaf → Aliases
  | .name n => { table with names := (Lane.enter n table.names).2 }
  | .value v => { table with values := (Lane.enter v table.values).2 }

def enterAll (table : Aliases) (leaves : List Leaf) : Aliases := leaves.foldl enter table

def nameNumber (table : Aliases) (n : String) : Nat := Lane.place n table.names

def valueNumber (table : Aliases) (v : AttributeValue) : Nat := Lane.place v table.values

def numberPath (table : Aliases) (p : AttributePath) : Path Nat := p.map table.nameNumber

/-- The later table has the entries of the earlier one, with the same numbers. -/
structure Extends (earlier later : Aliases) : Prop where
  names : earlier.names <+: later.names
  values : earlier.values <+: later.values

/-- All values can be stored. -/
def Sound (table : Aliases) : Prop := ∀ v ∈ table.values, v.Storable

theorem sound_empty : Sound {} := fun _ hv => by cases hv

theorem Extends.refl (table : Aliases) : table.Extends table :=
  ⟨List.prefix_refl _, List.prefix_refl _⟩

theorem Extends.trans {first second third : Aliases} (h : first.Extends second)
    (k : second.Extends third) : first.Extends third :=
  ⟨h.names.trans k.names, h.values.trans k.values⟩

theorem extends_enter (table : Aliases) (leaf : Leaf) : table.Extends (table.enter leaf) := by
  cases leaf with
  | name n => exact ⟨Lane.prefix_enter n table.names, List.prefix_refl _⟩
  | value v => exact ⟨List.prefix_refl _, Lane.prefix_enter v table.values⟩

theorem extends_enterAll (table : Aliases) (leaves : List Leaf) :
    table.Extends (table.enterAll leaves) := by
  induction leaves generalizing table with
  | nil => exact Extends.refl table
  | cons leaf rest ih => exact (extends_enter table leaf).trans (ih (table.enter leaf))

theorem enterAll_append (table : Aliases) (first second : List Leaf) :
    table.enterAll (first ++ second) = (table.enterAll first).enterAll second :=
  List.foldl_append

theorem names_enterAll (table : Aliases) (leaves : List Leaf) :
    (table.enterAll leaves).names = Lane.enterAll table.names (leaves.filterMap Leaf.name?) := by
  induction leaves generalizing table with
  | nil => rfl
  | cons leaf rest ih =>
      cases leaf with
      | name n => exact ih (table.enter (.name n))
      | value v => exact ih (table.enter (.value v))

theorem values_enterAll (table : Aliases) (leaves : List Leaf) :
    (table.enterAll leaves).values = Lane.enterAll table.values (leaves.filterMap Leaf.value?) := by
  induction leaves generalizing table with
  | nil => rfl
  | cons leaf rest ih =>
      cases leaf with
      | name n => exact ih (table.enter (.name n))
      | value v => exact ih (table.enter (.value v))

def Has (table : Aliases) : Leaf → Prop
  | .name n => Lane.Holds n table.names
  | .value v => Lane.Holds v table.values

theorem Has.of_extends {table later : Aliases} {leaf : Leaf} (h : table.Has leaf)
    (hext : table.Extends later) : later.Has leaf := by
  cases leaf with
  | name n => exact Lane.Holds.of_extension h hext.names
  | value v => exact Lane.Holds.of_extension h hext.values

theorem has_enterAll {leaf : Leaf} {leaves : List Leaf} (h : leaf ∈ leaves) (table : Aliases) :
    (table.enterAll leaves).Has leaf := by
  cases leaf with
  | name n =>
      have hmem : n ∈ leaves.filterMap Leaf.name? := List.mem_filterMap.2 ⟨_, h, rfl⟩
      rw [Has, names_enterAll]
      exact Lane.holds_enterAll hmem _
  | value v =>
      have hmem : v ∈ leaves.filterMap Leaf.value? := List.mem_filterMap.2 ⟨_, h, rfl⟩
      rw [Has, values_enterAll]
      exact Lane.holds_enterAll hmem _

theorem enter_of_has {table : Aliases} {leaf : Leaf} (h : table.Has leaf) :
    table.enter leaf = table := by
  cases leaf with
  | name n => rw [enter, Lane.enter_of_holds h]
  | value v => rw [enter, Lane.enter_of_holds h]

/-- Leaves that all have an entry enter nothing. -/
theorem enterAll_of_has {table : Aliases} {leaves : List Leaf}
    (h : ∀ leaf ∈ leaves, table.Has leaf) : table.enterAll leaves = table := by
  induction leaves with
  | nil => rfl
  | cons leaf rest ih =>
      obtain ⟨hleaf, hrest⟩ := List.forall_mem_cons.1 h
      have hfirst := enter_of_has hleaf
      calc table.enterAll (leaf :: rest)
          = (table.enter leaf).enterAll rest := rfl
        _ = table.enterAll rest := by rw [hfirst]
        _ = table := ih hrest

theorem nameNumber_of_extends {first later : Aliases} {n : String}
    (h : ((first.enter (.name n)).Extends later)) :
    later.nameNumber n = (Lane.enter n first.names).1 := by
  rw [Lane.enter_fst]
  exact Lane.place_of_extension (Lane.holds_enter n first.names) h.names

theorem valueNumber_of_extends {first later : Aliases} {v : AttributeValue}
    (h : ((first.enter (.value v)).Extends later)) :
    later.valueNumber v = (Lane.enter v first.values).1 := by
  rw [Lane.enter_fst]
  exact Lane.place_of_extension (Lane.holds_enter v first.values) h.values

theorem Sound.enter_name {table : Aliases} (h : table.Sound) (n : String) :
    (table.enter (.name n)).Sound := h

theorem Sound.enter_value {table : Aliases} (h : table.Sound) {v : AttributeValue}
    (hv : v.Storable) : (table.enter (.value v)).Sound := by
  intro w hw
  change w ∈ (Lane.enter v table.values).2 at hw
  by_cases hin : Lane.Holds v table.values
  · rw [Lane.enter_of_holds hin] at hw
    exact h w hw
  · rw [Lane.enter_of_not_holds hin] at hw
    rcases List.mem_append.1 hw with hw | hw
    · exact h w hw
    · rw [List.mem_singleton.1 hw]
      exact hv

/-- A value that equals an entry of a sound table can be stored. -/
theorem Sound.storable {table : Aliases} (h : table.Sound) {v : AttributeValue}
    (hin : Lane.Holds v table.values) : v.Storable := by
  rcases hin with ⟨w, hw, heq⟩
  exact (AttributeValue.storable_congr heq).1 (h w hw)

end Aliases

/-! ## Runs -/

section Runs

variable {α β : Type} {m : Aliasing α} {k : α → Aliasing β} {table later : Aliases}

theorem run_bind_of_ok {a : α} (h : m.run.run table = (.ok a, later)) :
    (m >>= k).run.run table = (k a).run.run later := by
  rw [ExceptT.run_bind, StateT.run_bind, h]
  rfl

theorem run_bind_of_error {e : ExpressionError} (h : m.run.run table = (.error e, later)) :
    (m >>= k).run.run table = (.error e, later) := by
  rw [ExceptT.run_bind, StateT.run_bind, h]
  rfl

theorem run_pure (a : α) : (pure a : Aliasing α).run.run table = (.ok a, table) := rfl

theorem run_refuse (fault : ParameterFault) :
    (refuse fault : Aliasing α).run.run table = (.error (.invalid fault), table) := rfl

end Runs

/--
From every sound table, `m` fails with the fault of `r`, or enters the leaves of the result of `r`
and gives that result with its numbers, which stay those of every later table.
-/
structure Enters {α β : Type} (m : Aliasing α) (r : Except ParameterFault β)
    (leaves : β → List Leaf) (number : Aliases → β → α) : Prop where
  ok : ∀ {table : Aliases} {b : β}, table.Sound → r = .ok b →
    ∃ a, m.run.run table = (.ok a, table.enterAll (leaves b)) ∧
      (table.enterAll (leaves b)).Sound ∧
      ∀ later, (table.enterAll (leaves b)).Extends later → a = number later b
  error : ∀ {table : Aliases} {fault : ParameterFault}, table.Sound → r = .error fault →
    ∃ later, m.run.run table = (.error (.invalid fault), later) ∧
      later.Sound ∧ table.Extends later

namespace Enters

variable {α β α' β' : Type} {m : Aliasing α} {r : Except ParameterFault β}
  {leaves : β → List Leaf} {number : Aliases → β → α}
  {m' : Aliasing α'} {r' : Except ParameterFault β'}
  {leaves' : β' → List Leaf} {number' : Aliases → β' → α'}

theorem refuse (fault : ParameterFault) :
    Enters (DynamoExpr.refuse fault) (.error fault) leaves number where
  ok _ h := by cases h
  error {table _} hs h := by
    cases h
    exact ⟨table, run_refuse _, hs, .refl table⟩

theorem map (h : Enters m r leaves number) (f : α → α') (g : β → β')
    (hleaves : ∀ b, leaves' (g b) = leaves b)
    (hnumber : ∀ table b, number' table (g b) = f (number table b)) :
    Enters (do return f (← m)) (do return g (← r)) leaves' number' where
  ok {table b'} hs hr := by
    cases r with
    | error e => cases hr
    | ok b =>
        cases hr
        obtain ⟨a, hrun, hsound, hlater⟩ := h.ok hs rfl
        rw [hleaves]
        refine ⟨f a, ?_, hsound, ?_⟩
        · rw [run_bind_of_ok hrun, run_pure]
        · intro later hl
          rw [hnumber, hlater later hl]
  error {table fault} hs hr := by
    cases r with
    | ok b => cases hr
    | error e =>
        cases hr
        obtain ⟨later, hrun, hsound, hext⟩ := h.error hs rfl
        exact ⟨later, run_bind_of_error hrun, hsound, hext⟩

theorem pair (h : Enters m r leaves number) (h' : Enters m' r' leaves' number') :
    Enters (do let a ← m; let a' ← m'; return (a, a'))
      (do let b ← r; let b' ← r'; return (b, b'))
      (fun b => leaves b.1 ++ leaves' b.2)
      (fun table b => (number table b.1, number' table b.2)) where
  ok {table bs} hs hr := by
    cases r with
    | error e => cases hr
    | ok b =>
        cases r' with
        | error e => cases hr
        | ok b' =>
            cases hr
            obtain ⟨a, hrun, hsound, hlater⟩ := h.ok hs rfl
            obtain ⟨a', hrun', hsound', hlater'⟩ := h'.ok hsound rfl
            rw [Aliases.enterAll_append]
            refine ⟨(a, a'), ?_, hsound', ?_⟩
            · rw [run_bind_of_ok hrun, run_bind_of_ok hrun', run_pure]
            · intro later hl
              rw [hlater' later hl,
                hlater later ((Aliases.extends_enterAll _ _).trans hl)]
  error {table fault} hs hr := by
    cases r with
    | error e =>
        cases hr
        obtain ⟨later, hrun, hsound, hext⟩ := h.error hs rfl
        exact ⟨later, run_bind_of_error hrun, hsound, hext⟩
    | ok b =>
        cases r' with
        | ok b' => cases hr
        | error e =>
            cases hr
            obtain ⟨a, hrun, hsound, -⟩ := h.ok hs rfl
            obtain ⟨later, hrun', hsound', hext⟩ := h'.error hsound rfl
            refine ⟨later, ?_, hsound', (Aliases.extends_enterAll _ _).trans hext⟩
            rw [run_bind_of_ok hrun, run_bind_of_error hrun']

theorem map₂ (h : Enters m r leaves number) (h' : Enters m' r' leaves' number')
    {α'' β'' : Type} {leaves'' : β'' → List Leaf} {number'' : Aliases → β'' → α''}
    (f : α → α' → α'') (g : β → β' → β'')
    (hleaves : ∀ b b', leaves'' (g b b') = leaves b ++ leaves' b')
    (hnumber : ∀ table b b', number'' table (g b b') = f (number table b) (number' table b')) :
    Enters (do let a ← m; let a' ← m'; return f a a')
      (do let b ← r; let b' ← r'; return g b b') leaves'' number'' := by
  have hpair := @map _ _ _ _ _ _ _ _ leaves'' number'' (h.pair h')
    (fun a => f a.1 a.2) (fun b => g b.1 b.2) (fun b => hleaves b.1 b.2)
    (fun table b => hnumber table b.1 b.2)
  simpa using hpair

variable {α'' β'' : Type} {m'' : Aliasing α''} {r'' : Except ParameterFault β''}
  {leaves'' : β'' → List Leaf} {number'' : Aliases → β'' → α''}

theorem map₃ (h : Enters m r leaves number) (h' : Enters m' r' leaves' number')
    (h'' : Enters m'' r'' leaves'' number'')
    {α₃ β₃ : Type} {leaves₃ : β₃ → List Leaf} {number₃ : Aliases → β₃ → α₃}
    (f : α → α' → α'' → α₃) (g : β → β' → β'' → β₃)
    (hleaves : ∀ b b' b'', leaves₃ (g b b' b'') = leaves b ++ leaves' b' ++ leaves'' b'')
    (hnumber : ∀ table b b' b'', number₃ table (g b b' b'') =
      f (number table b) (number' table b') (number'' table b'')) :
    Enters (do let a ← m; let a' ← m'; let a'' ← m''; return f a a' a'')
      (do let b ← r; let b' ← r'; let b'' ← r''; return g b b' b'') leaves₃ number₃ := by
  have hboth := @map₂ _ _ _ _ _ _ _ _ _ _ _ _ (h.pair h') h'' _ _ leaves₃ number₃
    (fun a a'' => f a.1 a.2 a'') (fun b b'' => g b.1 b.2 b'')
    (fun b b'' => hleaves b.1 b.2 b'') (fun table b b'' => hnumber table b.1 b.2 b'')
  simpa using hboth

theorem map₄ (h : Enters m r leaves number) (h' : Enters m' r' leaves' number')
    (h'' : Enters m'' r'' leaves'' number'')
    {α₃ β₃ : Type} {m₃ : Aliasing α₃} {r₃ : Except ParameterFault β₃}
    {leaves₃ : β₃ → List Leaf} {number₃ : Aliases → β₃ → α₃} (h₃ : Enters m₃ r₃ leaves₃ number₃)
    {α₄ β₄ : Type} {leaves₄ : β₄ → List Leaf} {number₄ : Aliases → β₄ → α₄}
    (f : α → α' → α'' → α₃ → α₄) (g : β → β' → β'' → β₃ → β₄)
    (hleaves : ∀ b b' b'' b₃, leaves₄ (g b b' b'' b₃) =
      leaves b ++ leaves' b' ++ leaves'' b'' ++ leaves₃ b₃)
    (hnumber : ∀ table b b' b'' b₃, number₄ table (g b b' b'' b₃) =
      f (number table b) (number' table b') (number'' table b'') (number₃ table b₃)) :
    Enters (do let a ← m; let a' ← m'; let a'' ← m''; let a₃ ← m₃; return f a a' a'' a₃)
      (do let b ← r; let b' ← r'; let b'' ← r''; let b₃ ← r₃; return g b b' b'' b₃)
      leaves₄ number₄ := by
  have hall := @map₃ _ _ _ _ _ _ _ _ _ _ _ _ _ _ _ _ _ _ (h.pair h') h'' h₃ _ _ leaves₄ number₄
    (fun a a'' a₃ => f a.1 a.2 a'' a₃) (fun b b'' b₃ => g b.1 b.2 b'' b₃)
    (fun b b'' b₃ => hleaves b.1 b.2 b'' b₃) (fun table b b'' b₃ => hnumber table b.1 b.2 b'' b₃)
  simpa using hall

/-- A check that comes first. -/
theorem unlessFault (h : Enters m r leaves number) (bad : Prop) [Decidable bad]
    (fault : ParameterFault) :
    Enters
      (do
        if bad then DynamoExpr.refuse fault
        m)
      (DynamoExpr.unlessFault bad fault r) leaves number := by
  by_cases hbad : bad
  · rw [DynamoExpr.unlessFault, if_pos hbad, if_pos hbad]
    refine ⟨fun _ hr => (by cases hr), fun {table _} hs hr => ?_⟩
    cases hr
    exact ⟨table, run_bind_of_error (run_refuse fault), hs, .refl table⟩
  · rw [DynamoExpr.unlessFault, if_neg hbad, if_neg hbad]
    exact h

/-- Items in order, each by its own run. -/
theorem mapM {ι : Type} {step : ι → Aliasing α} {check : ι → Except ParameterFault β}
    (h : ∀ x, Enters (step x) (check x) leaves number) (xs : List ι) :
    Enters (xs.mapM step) (xs.mapM check) (fun bs => bs.flatMap leaves)
      (fun table bs => bs.map (number table)) := by
  induction xs with
  | nil =>
      refine ⟨fun {table bs} hs hr => ?_, fun _ hr => by cases hr⟩
      cases hr
      exact ⟨[], rfl, hs, fun _ _ => rfl⟩
  | cons x rest ih =>
      rw [List.mapM_cons, List.mapM_cons]
      exact (h x).map₂ ih List.cons List.cons (fun _ _ => rfl) (fun _ _ _ => rfl)

end Enters

/-! ## Leaves and operands -/

namespace Aliases

theorem name_enters (n : String) :
    Enters (name n) (.ok n) (fun n => [.name n]) nameNumber where
  ok {table b} hs hr := by
    cases hr
    refine ⟨(Lane.enter n table.names).1, rfl, hs.enter_name n, ?_⟩
    intro later hl
    exact (nameNumber_of_extends hl).symm
  error _ hr := by cases hr

section Value

variable {v : AttributeValue} {table : Aliases}

theorem run_get : (get : Aliasing Aliases).run.run table = (.ok table, table) := rfl

theorem run_value_of_number {i : Nat} (h : Lane.number? v table.values = some i) :
    (value v).run.run table = (.ok i, table) := by
  unfold value
  rw [run_bind_of_ok run_get]
  simp only [h]
  rfl

theorem run_value_of_ok (h : Lane.number? v table.values = none) (hcheck : v.check = .ok ()) :
    (value v).run.run table =
      (.ok table.values.length, { table with values := table.values ++ [v] }) := by
  unfold value
  rw [run_bind_of_ok run_get]
  simp only [h, hcheck]
  rfl

theorem run_value_of_error {fault : StorageFault} (h : Lane.number? v table.values = none)
    (hcheck : v.check = .error fault) :
    (value v).run.run table = (.error (.invalid (.storage fault)), table) := by
  unfold value
  rw [run_bind_of_ok run_get]
  simp only [h, hcheck]
  rfl

/-- A value that can be stored gets its number on the lane of the values. -/
theorem run_value_of_storable (hv : v.Storable) (table : Aliases) :
    (value v).run.run table = (.ok (Lane.enter v table.values).1, table.enter (.value v)) := by
  by_cases hin : Lane.Holds v table.values
  · rw [run_value_of_number (Lane.number?_of_holds hin), enter, Lane.enter_of_holds hin]
  · rw [run_value_of_ok (Lane.number?_of_not_holds hin) (AttributeValue.check_eq_ok_iff.2 hv),
      enter, Lane.enter_of_not_holds hin]

/-- What can be stored gets an alias in any table. -/
theorem exists_run_value (hv : v.Storable) (table : Aliases) :
    ∃ i, ((value v).run.run table).1 = .ok i :=
  ⟨_, congrArg Prod.fst (run_value_of_storable hv table)⟩

/-- After a value no other is entered that equals it. -/
theorem run_value_enter {w : AttributeValue} (h : (v == w) = true) (table : Aliases) :
    (value w).run.run (table.enter (.value v)) =
      (.ok (Lane.enter v table.values).1, table.enter (.value v)) :=
  run_value_of_number (Lane.number?_enter h table.values)

end Value

/-- The check that is left out for an equal entry would have passed. -/
theorem value_enters (v : AttributeValue) :
    Enters (value v) v.checked (fun v => [.value v]) valueNumber := by
  by_cases hv : v.Storable
  · have hcheck : v.check = .ok () := AttributeValue.check_eq_ok_iff.2 hv
    have hchecked : v.checked = .ok v := by rw [AttributeValue.checked, hcheck]
    refine ⟨fun {table b} hs hr => ?_, fun _ hr => by rw [hchecked] at hr; cases hr⟩
    rw [hchecked] at hr
    cases hr
    refine ⟨(Lane.enter v table.values).1, run_value_of_storable hv table, hs.enter_value hv, ?_⟩
    intro later hl
    exact (valueNumber_of_extends hl).symm
  · cases hcheck : v.check with
    | ok u => exact absurd (AttributeValue.check_eq_ok_iff.1 hcheck) hv
    | error fault =>
        have hchecked : v.checked = .error (.storage fault) := by
          rw [AttributeValue.checked, hcheck]
        refine ⟨fun _ hr => (by rw [hchecked] at hr; cases hr), fun {table f} hs hr => ?_⟩
        rw [hchecked] at hr
        cases hr
        have hnot : ¬ Lane.Holds v table.values := fun hin => hv (hs.storable hin)
        exact ⟨table, run_value_of_error (Lane.number?_of_not_holds hnot) hcheck, hs, .refl table⟩

theorem step_enters (step : PathStep String) :
    Enters (step.traverse name) (.ok step) PathStep.leaves
      (fun table step => step.map table.nameNumber) := by
  rcases step with n | i
  · exact (name_enters n).map PathStep.attribute PathStep.attribute (fun _ => rfl) (fun _ _ => rfl)
  · refine ⟨fun {table b} hs hr => ?_, fun _ hr => by cases hr⟩
    cases hr
    exact ⟨.index i, rfl, hs, fun _ _ => rfl⟩

theorem path_enters (p : AttributePath) :
    Enters (path p) (.ok p) Path.leaves numberPath := by
  have htail := Enters.mapM step_enters p.tail
  have hpure : p.tail.mapM (fun step => (.ok step : Except ParameterFault _)) = .ok p.tail := by
    have h := List.mapM_pure (m := Except ParameterFault) (l := p.tail) (f := id)
    rwa [List.map_id] at h
  rw [hpure] at htail
  exact (name_enters p.head).map₂ htail Path.mk Path.mk (fun _ _ => rfl) (fun _ _ _ => rfl)

theorem nameRef_enters (ref : NameRef) :
    Enters (nameRef ref) ref.checked Path.leaves numberPath := by
  cases ref with
  | path p => exact path_enters p
  | faulty error => exact .refuse (.name error)

theorem literal_enters (l : Literal) :
    Enters (literal l) l.checked (fun v => [.value v]) valueNumber := by
  unfold literal Literal.checked
  cases l.value? with
  | none => exact .refuse .listMember
  | some v => exact value_enters v

theorem operand_enters (source : SourceOperand) :
    Enters (operand source) source.checked Operand.leaves
      (fun table o => o.map table.numberPath table.valueNumber) := by
  cases source with
  | name ref => exact (nameRef_enters ref).map Operand.name Operand.name (fun _ => rfl) (fun _ _ => rfl)
  | value l => exact (literal_enters l).map Operand.value Operand.value (fun _ => rfl) (fun _ _ => rfl)
  | size ref => exact (nameRef_enters ref).map Operand.size Operand.size (fun _ => rfl) (fun _ _ => rfl)

end Aliases

end DynamoExpr
