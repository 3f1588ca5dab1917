import DynamoExpr.Proofs.Builder.Numbering

/-!
# Building under other limits

Limits decide only whether an expression is built, never which.  The limit on candidates is met by
the tree, the limit on lengths by the texts, and neither is seen in a plain tree or in a number.  So
what builds under some limits has least limits, and builds under exactly those that reach them.
-/

namespace DynamoExpr

variable {ν β : Type} {limits other : Limits}

/-- Both limits are at most those of the other. -/
instance : LE Limits where
  le limits other :=
    limits.expressionLength ≤ other.expressionLength ∧ limits.inOperands ≤ other.inOperands

theorem Limits.le_trans {third : Limits} (h : limits ≤ other) (k : other ≤ third) :
    limits ≤ third := ⟨Nat.le_trans h.1 k.1, Nat.le_trans h.2 k.2⟩

/-- The greatest of the lengths; zero where there is none. -/
def longest (lengths : List Nat) : Nat := lengths.foldr max 0

theorem longest_le_iff {lengths : List Nat} {bound : Nat} :
    longest lengths ≤ bound ↔ ∀ length ∈ lengths, length ≤ bound := by
  induction lengths with
  | nil => simp [longest]
  | cons length rest ih =>
      rw [List.forall_mem_cons, ← ih]
      exact Nat.max_le

/-! ## The lengths of candidate lists -/

/-- The lengths of the candidate lists in the condition, at every depth. -/
def Condition.candidateCounts : Condition ν β → List Nat
  | .within _ candidates => [candidates.length]
  | .join _ left right => left.candidateCounts ++ right.candidateCounts
  | .not inner => inner.candidateCounts
  | _ => []

theorem Condition.checked_join_eq_ok_iff {op : Connective} {left right : SourceCondition}
    {l r : PlainCondition} :
    (join op left right).checked limits = .ok (.join op l r) ↔
      left.checked limits = .ok l ∧ right.checked limits = .ok r := by
  simp only [checked, bind_eq_ok_iff, pure_eq_ok_iff, join.injEq, true_and]
  constructor
  · intro h
    rcases h with ⟨_, hleft, _, hright, rfl, rfl⟩
    exact ⟨hleft, hright⟩
  · intro h
    exact ⟨l, h.1, r, h.2, rfl, rfl⟩

theorem Condition.checked_not_eq_ok_iff {inner : SourceCondition} {i : PlainCondition} :
    (not inner).checked limits = .ok (.not i) ↔ inner.checked limits = .ok i := by
  simp only [checked, bind_eq_ok_iff, pure_eq_ok_iff, not.injEq, exists_eq_right]

/-- Other limits pass the same plain tree where they pass each candidate list. -/
theorem Condition.checked_iff_counts {tree : SourceCondition} {plain : PlainCondition}
    (h : tree.checked limits = .ok plain) :
    tree.checked other = .ok plain ↔ ∀ count ∈ tree.candidateCounts, count ≤ other.inOperands := by
  induction tree generalizing plain with
  | compare op left right => exact iff_of_true h (List.forall_mem_nil _)
  | between value low high => exact iff_of_true h (List.forall_mem_nil _)
  | within value candidates =>
      have h := unlessFault_eq_ok_iff.1 h
      have hrest := (unlessFault_eq_ok_iff.1 h.2).2
      rw [candidateCounts, List.forall_mem_singleton, ← Nat.not_lt]
      exact unlessFault_eq_ok_iff.trans ((and_iff_right h.1).trans
        (unlessFault_eq_ok_iff.trans (and_iff_left hrest)))
  | presence function path => exact iff_of_true h (List.forall_mem_nil _)
  | test function path literal => exact iff_of_true h (List.forall_mem_nil _)
  | join op left right hleft hright =>
      obtain ⟨l, hl, hjoin⟩ := bind_eq_ok_iff.1 h
      obtain ⟨r, hr, hjoin⟩ := bind_eq_ok_iff.1 hjoin
      cases hjoin
      rw [checked_join_eq_ok_iff, hleft hl, hright hr, candidateCounts, List.forall_mem_append]
  | not inner hinner =>
      obtain ⟨i, hi, hnot⟩ := bind_eq_ok_iff.1 h
      cases hnot
      rw [checked_not_eq_ok_iff, hinner hi, candidateCounts]

theorem checked_slot_iff_counts {tree : Option SourceCondition} {plain : Option PlainCondition}
    (h : tree.mapM (Condition.checked limits) = .ok plain) :
    tree.mapM (Condition.checked other) = .ok plain ↔
      ∀ count ∈ tree.elim [] Condition.candidateCounts, count ≤ other.inOperands := by
  cases tree with
  | none => exact iff_of_true h (List.forall_mem_nil _)
  | some tree =>
      obtain ⟨p, hp, rfl⟩ := checked_mapM_some_eq_ok_iff.1 h
      rw [checked_mapM_some_eq_ok_iff, Option.elim_some, ← Condition.checked_iff_counts hp]
      simp

/-! ## Least limits -/

theorem Expression.fits_iff_longest {expression : Expression} :
    expression.Fits limits ↔
      longest (expression.texts.map String.utf8ByteSize) ≤ limits.expressionLength := by
  rw [longest_le_iff]
  simp only [Fits, texts, List.mem_map, List.mem_filterMap]
  constructor
  · intro h _ hlength
    rcases hlength with ⟨text, ⟨kind, -, htext⟩, rfl⟩
    exact h kind text htext
  · intro h kind text htext
    have hall : kind ∈ ExpressionKind.all := by cases kind <;> decide
    exact h _ ⟨text, ⟨kind, hall, htext⟩, rfl⟩

namespace Builder

variable {builder : Builder} {expression : Expression}

def candidateCounts (builder : Builder) : List Nat :=
  builder.condition.elim [] Condition.candidateCounts
    ++ builder.filter.elim [] Condition.candidateCounts

/-- The longest text in bytes and the longest candidate list. -/
def leastLimits (builder : Builder) (expression : Expression) : Limits where
  expressionLength := longest (expression.texts.map String.utf8ByteSize)
  inOperands := longest builder.candidateCounts

theorem checked_iff_counts {draft : Draft} (h : (builder.withLimits limits).checked = .ok draft) :
    (builder.withLimits other).checked = .ok draft ↔
      longest builder.candidateCounts ≤ other.inOperands := by
  obtain ⟨hcondition, hfilter, hrest⟩ := checked_eq_ok_iff.1 h
  rw [longest_le_iff, candidateCounts, List.forall_mem_append, checked_eq_ok_iff]
  exact and_congr (checked_slot_iff_counts hcondition)
    ((and_iff_left hrest).trans (checked_slot_iff_counts hfilter))

/-- The draft does not depend on the limits that let it pass. -/
theorem draft_eq_of_checked {draft draft' : Draft}
    (h : (builder.withLimits limits).checked = .ok draft)
    (h' : (builder.withLimits other).checked = .ok draft') : draft = draft' := by
  have hcounts := (checked_iff_counts h').1 h'
  have hsame := (checked_iff_counts h).2 hcounts
  rw [h'] at hsame
  exact (Except.ok.inj hsame).symm

/-- What builds under some limits builds nothing else, and builds where its least limits fit. -/
theorem build_iff_leastLimits (h : (builder.withLimits limits).build = .ok expression)
    {expression' : Expression} :
    (builder.withLimits other).build = .ok expression' ↔
      expression' = expression ∧ builder.leastLimits expression ≤ other := by
  obtain ⟨hempty, draft, hchecked, -, rfl⟩ := build_eq_ok_iff.1 h
  rw [build_eq_ok_iff]
  constructor
  · intro hbuild
    rcases hbuild with ⟨-, draft', hchecked', hfits, rfl⟩
    cases draft_eq_of_checked hchecked hchecked'
    exact ⟨rfl, Expression.fits_iff_longest.1 hfits, (checked_iff_counts hchecked).1 hchecked'⟩
  · intro hleast
    rcases hleast with ⟨rfl, hlength, hcounts⟩
    exact ⟨hempty, draft, (checked_iff_counts hchecked).2 hcounts,
      Expression.fits_iff_longest.2 hlength, rfl⟩

/--
Raising the limits of a builder that builds leaves its expression as it is, and all limits under
which it builds give this expression.  They are those that reach its longest text in bytes and its
longest candidate list.
-/
theorem build_under_limits (builder : Builder) :
    (∀ limits higher expression, limits ≤ higher →
      (builder.withLimits limits).build = .ok expression →
        (builder.withLimits higher).build = .ok expression) ∧
    (∀ limits other expression expression', (builder.withLimits limits).build = .ok expression →
      (builder.withLimits other).build = .ok expression' → expression = expression') ∧
    ∀ limits expression, (builder.withLimits limits).build = .ok expression →
      ∀ other, (∃ expression', (builder.withLimits other).build = .ok expression') ↔
        builder.leastLimits expression ≤ other := by
  refine ⟨?_, ?_, ?_⟩
  · intro limits higher expression hle hbuild
    have hleast := ((build_iff_leastLimits hbuild).1 hbuild).2
    exact (build_iff_leastLimits hbuild).2 ⟨rfl, Limits.le_trans hleast hle⟩
  · intro limits other expression expression' hbuild hbuild'
    exact ((build_iff_leastLimits hbuild).1 hbuild').1.symm
  · intro limits expression hbuild other
    constructor
    · rintro ⟨expression', hbuild'⟩
      exact ((build_iff_leastLimits hbuild).1 hbuild').2
    · intro hleast
      exact ⟨expression, (build_iff_leastLimits hbuild).2 ⟨rfl, hleast⟩⟩

/-- The longer list stands under NOT in the condition, and the longer text is that of the filter. -/
def crowded : Builder where
  condition := some (.not (.within (.name (.path ⟨"a", []⟩))
    [.value (.value (.string "x")), .value (.value (.string "y")), .name (.path ⟨"b", []⟩)]))
  filter := some (.join .or
    (.within (.name (.path ⟨"b", []⟩))
      [.value (.value (.string "x")), .value (.value (.string "y"))])
    (.presence .attributeExists (.path ⟨"c", []⟩)))

theorem crowded_build_under_limits :
    ∃ expression, crowded.leastLimits expression = ⟨38, 3⟩ ∧
      expression.texts = ["NOT (#0 IN (:0, :1, #1))", "#1 IN (:0, :1) OR attribute_exists(#2)"] ∧
      (crowded.withLimits ⟨38, 3⟩).build = .ok expression ∧
      (crowded.withLimits ⟨4096, 100⟩).build = .ok expression ∧
      (crowded.withLimits ⟨37, 100⟩).build = .error (.invalid (.tooLong .filter 38 37)) ∧
      (crowded.withLimits ⟨4096, 2⟩).build = .error (.invalid (.longIn 2 3)) ∧
      ∀ limits : Limits, (∃ expression', (crowded.withLimits limits).build = .ok expression') ↔
        (⟨38, 3⟩ : Limits) ≤ limits := by
  have hbuild : (crowded.withLimits ⟨38, 3⟩).build = .ok
      { condition := some "NOT (#0 IN (:0, :1, #1))",
        filter := some "#1 IN (:0, :1) OR attribute_exists(#2)",
        keyCondition := none, projection := none, update := none,
        aliases := ⟨["a", "b", "c"], [.string "x", .string "y"]⟩ } := by rfl
  have hle : (⟨38, 3⟩ : Limits) ≤ ⟨4096, 100⟩ := ⟨by decide, by decide⟩
  obtain ⟨hraised, -, hleast⟩ := build_under_limits crowded
  exact ⟨_, rfl, rfl, hbuild, hraised _ _ _ hle hbuild, rfl, rfl, hleast _ _ hbuild⟩

end Builder

end DynamoExpr
