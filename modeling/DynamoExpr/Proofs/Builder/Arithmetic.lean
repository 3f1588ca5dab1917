import DynamoExpr.Proofs.Builder.Acceptance

/-!
# Sums and differences in SET values

Of every sum or difference the two sides are looked at, and neither may be another.  What stands in
the argument of a call is not such a side, so there is at most one sum or difference outside the
calls of a value, and at most one outside the calls of each argument.
-/

namespace DynamoExpr

namespace SetValue

variable {ν β : Type}

/-- The sums and differences in the value, at every depth. -/
def arithmeticCount : SetValue ν β → Nat
  | .operand _ => 0
  | .arithmetic _ left right => 1 + left.arithmeticCount + right.arithmeticCount
  | .listAppend left right => left.arithmeticCount + right.arithmeticCount
  | .ifNotExists _ fallback => fallback.arithmeticCount

/-- The sums and differences that stand in no call. -/
def openCount : SetValue ν β → Nat
  | .operand _ => 0
  | .arithmetic _ left right => 1 + left.openCount + right.openCount
  | .listAppend .. => 0
  | .ifNotExists .. => 0

/-- The values that are arguments of calls, at every depth. -/
def arguments : SetValue ν β → List (SetValue ν β)
  | .operand _ => []
  | .arithmetic _ left right => left.arguments ++ right.arguments
  | .listAppend left right => left :: left.arguments ++ right :: right.arguments
  | .ifNotExists _ fallback => fallback :: fallback.arguments

/-- Where no argument has any, all stand in no call. -/
theorem arithmeticCount_eq_openCount {v : SetValue ν β}
    (h : ∀ argument ∈ v.arguments, argument.openCount = 0) :
    v.arithmeticCount = v.openCount := by
  induction v with
  | operand source => rfl
  | arithmetic op left right hleft hright =>
      obtain ⟨hl, hr⟩ := List.forall_mem_append.1 h
      rw [arithmeticCount, openCount, hleft hl, hright hr]
  | listAppend left right hleft hright =>
      obtain ⟨hl, hr⟩ := List.forall_mem_append.1 h
      obtain ⟨hleftOpen, hl⟩ := List.forall_mem_cons.1 hl
      obtain ⟨hrightOpen, hr⟩ := List.forall_mem_cons.1 hr
      rw [arithmeticCount, openCount, hleft hl, hright hr, hleftOpen, hrightOpen]
  | ifNotExists path fallback hfallback =>
      obtain ⟨hopen, hrest⟩ := List.forall_mem_cons.1 h
      rw [arithmeticCount, openCount, hfallback hrest, hopen]

theorem openCount_eq_zero_iff {v : SetValue ν β} : v.openCount = 0 ↔ v.isArithmetic = false := by
  cases v <;> simp [openCount, isArithmetic]

/-- Paths that could be read, literals that can be stored, and no size, at every depth. -/
def LeavesFormed : SetValue NameRef Literal → Prop
  | .operand (.name path) => path.Parsed
  | .operand (.value l) => l.WellFormed
  | .operand (.size _) => False
  | .arithmetic _ left right => left.LeavesFormed ∧ right.LeavesFormed
  | .listAppend left right => left.LeavesFormed ∧ right.LeavesFormed
  | .ifNotExists path fallback => path.Parsed ∧ fallback.LeavesFormed

/-- What passes apart from its leaves is what has one sum or difference at most outside calls. -/
theorem wellFormed_iff_openCount {v : SetValue NameRef Literal} :
    v.WellFormed ↔
      v.LeavesFormed ∧ v.openCount ≤ 1 ∧ ∀ argument ∈ v.arguments, argument.openCount ≤ 1 := by
  induction v with
  | operand source => cases source <;> simp [WellFormed, LeavesFormed, openCount, arguments]
  | arithmetic op left right hleft hright =>
      have hsides : 1 + left.openCount + right.openCount ≤ 1 ↔
          left.openCount = 0 ∧ right.openCount = 0 := by omega
      simp only [WellFormed, LeavesFormed, openCount, arguments, hleft, hright, hsides,
        ← openCount_eq_zero_iff, List.forall_mem_append]
      constructor
      · intro h
        rcases h with ⟨hl, hr, ⟨hleftLeaves, -, hleftArgs⟩, hrightLeaves, -, hrightArgs⟩
        exact ⟨⟨hleftLeaves, hrightLeaves⟩, ⟨hl, hr⟩, hleftArgs, hrightArgs⟩
      · intro h
        rcases h with ⟨⟨hleftLeaves, hrightLeaves⟩, ⟨hl, hr⟩, hleftArgs, hrightArgs⟩
        exact ⟨hl, hr, ⟨hleftLeaves, by omega, hleftArgs⟩, hrightLeaves, by omega, hrightArgs⟩
  | listAppend left right hleft hright =>
      simp only [WellFormed, LeavesFormed, openCount, arguments, hleft, hright,
        List.forall_mem_append, List.forall_mem_cons, Nat.zero_le, true_and]
      exact and_and_and_comm
  | ifNotExists path fallback hfallback =>
      simp only [WellFormed, LeavesFormed, openCount, arguments, hfallback,
        List.forall_mem_cons, Nat.zero_le, true_and, and_assoc]

end SetValue

/--
In a SET value that builds, and in each argument of a call in it, at most one sum or difference
stands outside the calls.  The whole value has at most one if no argument has any.
-/
theorem Builder.single_arithmetic_outside_calls {builder : Builder} {expression : Expression}
    {tree : SourceUpdate} (hbuild : builder.build = .ok expression)
    (htree : builder.update = some tree) :
    ∀ action ∈ tree.sets, (∀ part ∈ action.2 :: action.2.arguments, part.openCount ≤ 1) ∧
      ((∀ argument ∈ action.2.arguments, argument.openCount = 0) →
        action.2.arithmeticCount ≤ 1) := by
  obtain ⟨-, hwell, -⟩ := build_succeeds_iff.1 ⟨expression, hbuild⟩
  intro action haction
  obtain ⟨-, hvalue⟩ := (hwell.update tree htree).sets action haction
  obtain ⟨-, hopen, harguments⟩ := SetValue.wellFormed_iff_openCount.1 hvalue
  refine ⟨List.forall_mem_cons.2 ⟨hopen, harguments⟩, fun hnone => ?_⟩
  rw [SetValue.arithmeticCount_eq_openCount hnone]
  exact hopen

def Update.counting : SourceUpdate where
  sets := [
    (.path ⟨"n", []⟩, .arithmetic .plus
      (.ifNotExists (.path ⟨"n", []⟩) (.operand (.name (.path ⟨"start", []⟩))))
      (.operand (.name (.path ⟨"step", []⟩)))),
    (.path ⟨"l", []⟩, .listAppend (.operand (.name (.path ⟨"l", []⟩)))
      (.operand (.value (.list [.value (.value (.string "x"))]))))]

theorem counting_single_arithmetic :
    ∃ expression, ({ update := some .counting } : Builder).build = .ok expression ∧
      expression.update =
        some "SET #0 = if_not_exists(#0, #1) + #2, #3 = list_append(#3, :0)" ∧
      ∀ action ∈ Update.counting.sets, action.2.arithmeticCount ≤ 1 := by
  have hbuild : ({ update := some .counting } : Builder).build = .ok
      { condition := none, filter := none, keyCondition := none, projection := none,
        update := some "SET #0 = if_not_exists(#0, #1) + #2, #3 = list_append(#3, :0)",
        aliases := ⟨["n", "start", "step", "l"], [.list [.string "x"]]⟩ } := by rfl
  refine ⟨_, hbuild, rfl, fun action haction => ?_⟩
  refine (Builder.single_arithmetic_outside_calls hbuild rfl action haction).2 ?_
  simp only [Update.counting, List.mem_cons, List.not_mem_nil, or_false] at haction
  rcases haction with rfl | rfl <;> simp [SetValue.arguments, SetValue.openCount]

/-- A sum in the argument of a call, which is a side of another sum. -/
def Update.chained : SourceUpdate where
  sets := [(.path ⟨"a", []⟩, .arithmetic .plus
    (.ifNotExists (.path ⟨"a", []⟩) (.arithmetic .plus
      (.operand (.name (.path ⟨"b", []⟩))) (.operand (.name (.path ⟨"c", []⟩)))))
    (.operand (.name (.path ⟨"d", []⟩))))]

/-- Two sums in one SET value build. -/
theorem chained_arithmetic_builds :
    ∃ expression, ({ update := some .chained } : Builder).build = .ok expression ∧
      expression.update = some "SET #0 = if_not_exists(#0, #1 + #2) + #3" ∧
      ∃ action ∈ Update.chained.sets, action.2.arithmeticCount = 2 :=
  ⟨_, rfl, rfl, _, List.mem_singleton.2 rfl, rfl⟩

end DynamoExpr
