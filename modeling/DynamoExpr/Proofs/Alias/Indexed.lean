import DynamoExpr.Proofs.Alias.Index
import DynamoExpr.Proofs.Alias.Table
import DynamoExpr.Proofs.Value.Hashing
import DynamoExpr.Token

/-!
# The alias table with hash indexes

The alias table as it is kept for speed, with a hash index beside each lane.  Call by call it gives
the aliases that the table without indexes gives.  A value that the index has is not checked again;
from a reachable table it would pass, so a value gets an alias exactly when it can be stored.
-/

namespace DynamoExpr

inductive AliasCall where
  | name (name : String)
  | value (value : AttributeValue)

def AliasCall.text : AliasCall → Nat → String
  | .name _, i => (Token.nameAlias i).text
  | .value _, i => (Token.valueAlias i).text

/-! ## Requests to the table without indexes -/

namespace Aliases

def answer : AliasCall → Aliasing Nat
  | .name n => name n
  | .value v => value v

/-- The table that the requests leave, made one after another and whether they fail or not. -/
def after (calls : List AliasCall) : Aliases :=
  calls.foldl (fun table call => ((answer call).run.run table).2) {}

theorem run_name (n : String) (table : Aliases) :
    (name n).run.run table = (.ok (Lane.enter n table.names).1, table.enter (.name n)) := rfl

/-- A request changes nothing, or enters a name or a value that can be stored. -/
theorem answer_cases (table : Aliases) (call : AliasCall) :
    ((answer call).run.run table).2 = table ∨
      (∃ n, ((answer call).run.run table).2 = table.enter (.name n)) ∨
      ∃ v : AttributeValue, v.Storable ∧
        ((answer call).run.run table).2 = table.enter (.value v) := by
  cases call with
  | name n => exact .inr (.inl ⟨n, rfl⟩)
  | value v =>
      rw [answer]
      by_cases hin : Lane.Holds v table.values
      · rw [run_value_of_number (Lane.number?_of_holds hin)]
        exact .inl rfl
      · cases hcheck : v.check with
        | error fault =>
            rw [run_value_of_error (Lane.number?_of_not_holds hin) hcheck]
            exact .inl rfl
        | ok u =>
            refine .inr (.inr ⟨v, AttributeValue.check_eq_ok_iff.1 hcheck, ?_⟩)
            rw [run_value_of_ok (Lane.number?_of_not_holds hin) hcheck, enter,
              Lane.enter_of_not_holds hin]

/-- Every value can be stored, and nothing is entered twice. -/
structure Proper (table : Aliases) : Prop where
  sound : table.Sound
  names : Lane.Separate table.names
  values : Lane.Separate table.values

theorem proper_empty : Proper {} := ⟨sound_empty, List.Pairwise.nil, List.Pairwise.nil⟩

theorem Proper.answer {table : Aliases} (h : table.Proper) (call : AliasCall) :
    ((Aliases.answer call).run.run table).2.Proper := by
  rcases answer_cases table call with heq | ⟨n, heq⟩ | ⟨v, hv, heq⟩ <;> rw [heq]
  · exact h
  · exact ⟨h.sound.enter_name n, Lane.separate_enter n h.names, h.values⟩
  · exact ⟨h.sound.enter_value hv, h.names, Lane.separate_enter v h.values⟩

/-- No sequence of requests leads out of the proper tables. -/
theorem proper_after (calls : List AliasCall) : (after calls).Proper :=
  List.foldlRecOn calls _ proper_empty fun _ h call _ => h.answer call

end Aliases

/-! ## Requests to the indexed table -/

/-- The aliased names and values, and the number of each by its hash. -/
structure IndexedAliases where
  names : List String := []
  nameIndex : Std.HashMap String Nat := ∅
  values : List AttributeValue := []
  valueIndex : Std.HashMap AttributeValue Nat := ∅

namespace IndexedAliases

def name (name : String) (table : IndexedAliases) : String × IndexedAliases :=
  match table.nameIndex[name]? with
  | some i => ((Token.nameAlias i).text, table)
  | none =>
    ((Token.nameAlias table.names.length).text,
      { table with
        names := table.names ++ [name]
        nameIndex := table.nameIndex.insert name table.names.length })

/-- The alias of a value and the table after that.  A value that the index has is not checked. -/
def value (value : AttributeValue) (table : IndexedAliases) :
    Except ExpressionError String × IndexedAliases :=
  match table.valueIndex[value]? with
  | some i => (.ok (Token.valueAlias i).text, table)
  | none =>
    match value.check with
    | .error fault => (.error (.invalid (.storage fault)), table)
    | .ok _ =>
      (.ok (Token.valueAlias table.values.length).text,
        { table with
          values := table.values ++ [value]
          valueIndex := table.valueIndex.insert value table.values.length })

def answer (table : IndexedAliases) : AliasCall → Except ExpressionError String × IndexedAliases
  | .name n => ((.ok (name n table).1), (name n table).2)
  | .value v => value v table

def after (calls : List AliasCall) : IndexedAliases :=
  calls.foldl (fun table call => (table.answer call).2) {}

/-- The lanes are those of the table, and the indexes find what a search of them finds. -/
structure Represents (indexed : IndexedAliases) (table : Aliases) : Prop where
  names : indexed.names = table.names
  nameIndex : Lane.Indexes indexed.nameIndex table.names
  values : indexed.values = table.values
  valueIndex : Lane.Indexes indexed.valueIndex table.values

theorem represents_empty : Represents {} {} :=
  ⟨rfl, Lane.indexes_empty, rfl, Lane.indexes_empty⟩

/-- A request is answered as it is without indexes, and the tables go on to correspond. -/
theorem Represents.answer {indexed : IndexedAliases} {table : Aliases}
    (h : indexed.Represents table) (call : AliasCall) :
    (indexed.answer call).1 = ((Aliases.answer call).run.run table).1.map call.text ∧
      (indexed.answer call).2.Represents ((Aliases.answer call).run.run table).2 := by
  cases call with
  | name n =>
      rw [Aliases.answer, Aliases.run_name, Aliases.enter, IndexedAliases.answer, name,
        h.nameIndex.number]
      by_cases hin : Lane.Holds n table.names
      · rw [Lane.number?_of_holds hin, Lane.enter_of_holds hin]
        exact ⟨rfl, h⟩
      · rw [Lane.number?_of_not_holds hin, Lane.enter_of_not_holds hin, h.names]
        exact ⟨rfl, rfl, h.nameIndex.insert hin, h.values, h.valueIndex⟩
  | value v =>
      rw [Aliases.answer, IndexedAliases.answer, value, h.valueIndex.number]
      by_cases hin : Lane.Holds v table.values
      · rw [Aliases.run_value_of_number (Lane.number?_of_holds hin), Lane.number?_of_holds hin]
        exact ⟨rfl, h⟩
      · rw [Lane.number?_of_not_holds hin]
        cases hcheck : v.check with
        | error fault =>
            rw [Aliases.run_value_of_error (Lane.number?_of_not_holds hin) hcheck]
            exact ⟨rfl, h⟩
        | ok u =>
            rw [Aliases.run_value_of_ok (Lane.number?_of_not_holds hin) hcheck, h.values]
            exact ⟨rfl, h.names, h.nameIndex, rfl, h.valueIndex.insert hin⟩

theorem represents_after (calls : List AliasCall) :
    (after calls).Represents (Aliases.after calls) := by
  have hfold : ∀ {indexed : IndexedAliases} {table : Aliases}, indexed.Represents table →
      (calls.foldl (fun table call => (table.answer call).2) indexed).Represents
        (calls.foldl (fun table call => ((Aliases.answer call).run.run table).2) table) := by
    induction calls with
    | nil => exact fun h => h
    | cons call rest ih => exact fun h => ih (h.answer call).2
  exact hfold represents_empty

/-! ## Exactness -/

/-- What a request for the alias of a value does to a table. -/
structure Exact (v : AttributeValue) (before : IndexedAliases)
    (outcome : Except ExpressionError String) (after : IndexedAliases) : Prop where
  /-- There is an alias exactly for what can be stored. -/
  succeeds_iff : (∃ a, outcome = .ok a) ↔ v.Storable
  /-- The alias has the number of an entry that equals the value. -/
  entry : ∀ a, outcome = .ok a → ∃ (i : Nat) (w : AttributeValue),
    a = ":" ++ toString i ∧ after.values[i]? = some w ∧ (w == v) = true
  /-- If such an entry was there, it is the one, and nothing changes. -/
  known : ∀ (i : Nat) w, before.values[i]? = some w → (w == v) = true →
    outcome = .ok (":" ++ toString i) ∧ after = before
  /-- A new entry has the next number. -/
  fresh : (∀ w ∈ before.values, (w == v) = false) → ∀ a, outcome = .ok a →
    a = ":" ++ toString before.values.length ∧
      after = { before with
        values := before.values ++ [v]
        valueIndex := before.valueIndex.insert v before.values.length }
  /-- A failure leaves both lanes and both indexes as they were. -/
  failed : ∀ e, outcome = .error e → after = before

section Value

variable {v : AttributeValue} {indexed : IndexedAliases} {table : Aliases}

/-- An entry is found and the value not checked, though it would pass. -/
theorem exact_of_holds (h : indexed.Represents table) (hproper : table.Proper)
    (hin : Lane.Holds v table.values) :
    Exact v indexed (value v indexed).1 (value v indexed).2 := by
  have hstorable : v.Storable := hproper.sound.storable hin
  have hrun : value v indexed =
      (.ok (":" ++ toString (Lane.place v table.values)), indexed) := by
    rw [value, h.valueIndex.number, Lane.number?_of_holds hin]
    rfl
  rw [hrun]
  refine ⟨⟨fun _ => hstorable, fun _ => ⟨_, rfl⟩⟩, ?_, ?_, ?_, fun _ _ => rfl⟩
  · intro a ha
    cases ha
    obtain ⟨w, hw, heq⟩ := Lane.getElem?_place hin
    exact ⟨_, w, rfl, h.values ▸ hw, heq⟩
  · intro i w hw heq
    rw [h.values] at hw
    have hfound := Lane.number?_of_getElem? hproper.values hw heq
    rw [Lane.number?_of_holds hin, Option.some.injEq] at hfound
    rw [hfound]
    exact ⟨rfl, rfl⟩
  · intro hfresh
    obtain ⟨w, hw, heq⟩ := hin
    rw [hfresh w (h.values ▸ hw)] at heq
    cases heq

/-- No entry is found, and the check decides. -/
theorem exact_of_not_holds (h : indexed.Represents table) (hin : ¬ Lane.Holds v table.values) :
    Exact v indexed (value v indexed).1 (value v indexed).2 := by
  have hnone : indexed.valueIndex[v]? = none := by
    rw [h.valueIndex.number, Lane.number?_of_not_holds hin]
  have hunknown : ∀ (i : Nat) w, indexed.values[i]? = some w → ¬ (w == v) = true := by
    intro i w hw heq
    exact hin ⟨w, List.mem_of_getElem? (h.values ▸ hw), heq⟩
  cases hcheck : v.check with
  | error fault =>
      have hrun : value v indexed = (.error (.invalid (.storage fault)), indexed) := by
        rw [value, hnone]
        simp only [hcheck]
      have hnot : ¬ v.Storable := by
        rw [← AttributeValue.check_eq_ok_iff, hcheck]
        exact fun heq => by cases heq
      rw [hrun]
      refine ⟨⟨fun ⟨_, hok⟩ => (by cases hok), fun hv => absurd hv hnot⟩,
        fun _ hok => (by cases hok), fun i w hw heq => absurd heq (hunknown i w hw),
        fun _ _ hok => (by cases hok), fun _ _ => rfl⟩
  | ok u =>
      have hrun : value v indexed = (.ok (":" ++ toString indexed.values.length),
          { indexed with
            values := indexed.values ++ [v]
            valueIndex := indexed.valueIndex.insert v indexed.values.length }) := by
        rw [value, hnone]
        simp only [hcheck]
        rfl
      rw [hrun]
      refine ⟨⟨fun _ => AttributeValue.check_eq_ok_iff.1 hcheck, fun _ => ⟨_, rfl⟩⟩, ?_,
        fun i w hw heq => absurd heq (hunknown i w hw), ?_, fun _ herror => by cases herror⟩
      · intro a ha
        cases ha
        exact ⟨_, v, rfl, List.getElem?_concat_length, BEq.rfl⟩
      · intro _ a ha
        cases ha
        exact ⟨rfl, rfl⟩

end Value

/--
From every table that requests lead to, the alias of a value is given exactly if the value can be
stored, by the entry that equals it or by a new one, and a failure changes nothing.  The table
without indexes gives the same alias and keeps in step.
-/
theorem value_exact (calls : List AliasCall) (v : AttributeValue) :
    Exact v (after calls) (value v (after calls)).1 (value v (after calls)).2 ∧
      (value v (after calls)).1 =
        ((Aliases.value v).run.run (Aliases.after calls)).1.map (fun i => ":" ++ toString i) ∧
      (value v (after calls)).2.Represents
        ((Aliases.value v).run.run (Aliases.after calls)).2 := by
  have hrepresents := represents_after calls
  refine ⟨?_, hrepresents.answer (.value v)⟩
  by_cases hin : Lane.Holds v (Aliases.after calls).values
  · exact exact_of_holds hrepresents (Aliases.proper_after calls) hin
  · exact exact_of_not_holds hrepresents hin

end IndexedAliases

end DynamoExpr
