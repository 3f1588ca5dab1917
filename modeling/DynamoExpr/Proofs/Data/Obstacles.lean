import Mathlib.Data.List.Basic
import DynamoExpr.Data
import DynamoExpr.Proofs.Outcome

/-!
# Obstacles in data

The parts of data in the order in which they are reached, and the obstacles among them: numbers
that are not finite, and data that cannot be had.  The check before a conversion finds the first
obstacle, wherever it stands, and nothing else.
-/

namespace DynamoExpr

/-- Where a part stands: in the key of a map, or nowhere in a key. -/
inductive Place where
  | key
  | value
deriving DecidableEq

namespace Data

/-- Induction over data, the hypothesis for a compound being about each of its parts. -/
@[elab_as_elim]
theorem induction {motive : Data → Prop}
    (bool : ∀ value, motive (.bool value)) (int : ∀ value, motive (.int value))
    (single : ∀ value, motive (.single value)) (double : ∀ value, motive (.double value))
    (text : ∀ value, motive (.text value)) (bytes : ∀ value, motive (.bytes value))
    (absent : motive .absent) (present : ∀ inner, motive inner → motive (.present inner))
    (wrapped : ∀ inner, motive inner → motive (.wrapped inner))
    (seq : ∀ items, (∀ item ∈ items, motive item) → motive (.seq items))
    (map : ∀ entries, (∀ entry ∈ entries, motive entry.1 ∧ motive entry.2) →
      motive (.map entries))
    (record : ∀ fields, (∀ field ∈ fields, motive field.2) → motive (.record fields))
    (tag : ∀ name, motive (.tag name))
    (tagged : ∀ name inner, motive inner → motive (.tagged name inner))
    (failing : ∀ reason, motive (.failing reason)) (json : ∀ value, motive (.json value))
    (data : Data) : motive data := by
  refine @Data.rec motive (fun items => ∀ item ∈ items, motive item)
    (fun entries => ∀ entry ∈ entries, motive entry.1 ∧ motive entry.2)
    (fun fields => ∀ field ∈ fields, motive field.2)
    (fun entry => motive entry.1 ∧ motive entry.2) (fun field => motive field.2)
    bool int single double text bytes absent present wrapped seq map record tag tagged failing
    json ?_ ?_ ?_ ?_ ?_ ?_ ?_ ?_ data
  · simp
  · exact fun _ _ hfirst hrest => List.forall_mem_cons.2 ⟨hfirst, hrest⟩
  · simp
  · exact fun _ _ hfirst hrest => List.forall_mem_cons.2 ⟨hfirst, hrest⟩
  · simp
  · exact fun _ _ hfirst hrest => List.forall_mem_cons.2 ⟨hfirst, hrest⟩
  · exact fun _ _ hkey hvalue => ⟨hkey, hvalue⟩
  · exact fun _ _ hvalue => hvalue

mutual

/-- The data and its parts in the order in which they are reached, each with its place. -/
def parts (place : Place) : Data → List (Place × Data)
  | .present inner => (place, .present inner) :: parts place inner
  | .wrapped inner => (place, .wrapped inner) :: parts place inner
  | .seq items => (place, .seq items) :: itemParts place items
  | .map entries => (place, .map entries) :: entryParts place entries
  | .record fields => (place, .record fields) :: fieldParts place fields
  | .tagged name inner => (place, .tagged name inner) :: parts place inner
  | leaf => [(place, leaf)]

def itemParts (place : Place) : List Data → List (Place × Data)
  | [] => []
  | item :: rest => parts place item ++ itemParts place rest

/-- The parts of the entries in order, those of a key before those of its value. -/
def entryParts (place : Place) : List (Data × Data) → List (Place × Data)
  | [] => []
  | (key, value) :: rest => parts .key key ++ (parts place value ++ entryParts place rest)

def fieldParts (place : Place) : List (String × Data) → List (Place × Data)
  | [] => []
  | (_, value) :: rest => parts place value ++ fieldParts place rest

end

section Parts

variable {place : Place} {P : Place × Data → Prop}

theorem forall_mem_itemParts {items : List Data} :
    (∀ part ∈ itemParts place items, P part) ↔
      ∀ item ∈ items, ∀ part ∈ parts place item, P part := by
  induction items with
  | nil => simp [itemParts]
  | cons item rest ih => rw [itemParts, List.forall_mem_append, ih, List.forall_mem_cons]

theorem forall_mem_entryParts {entries : List (Data × Data)} :
    (∀ part ∈ entryParts place entries, P part) ↔
      ∀ entry ∈ entries,
        (∀ part ∈ parts .key entry.1, P part) ∧ ∀ part ∈ parts place entry.2, P part := by
  induction entries with
  | nil => simp [entryParts]
  | cons entry rest ih =>
      rw [entryParts, List.forall_mem_append, List.forall_mem_append, ih, List.forall_mem_cons,
        and_assoc]

theorem forall_mem_fieldParts {fields : List (String × Data)} :
    (∀ part ∈ fieldParts place fields, P part) ↔
      ∀ field ∈ fields, ∀ part ∈ parts place field.2, P part := by
  induction fields with
  | nil => simp [fieldParts]
  | cons field rest ih => rw [fieldParts, List.forall_mem_append, ih, List.forall_mem_cons]

end Parts

/-- What stands in a key is nowhere a value. -/
theorem place_of_mem_parts {data : Data} : ∀ part ∈ parts .key data, part.1 = .key := by
  induction data using Data.induction with
  | present inner ih => exact List.forall_mem_cons.2 ⟨rfl, ih⟩
  | wrapped inner ih => exact List.forall_mem_cons.2 ⟨rfl, ih⟩
  | seq items ih => exact List.forall_mem_cons.2 ⟨rfl, forall_mem_itemParts.2 ih⟩
  | map entries ih => exact List.forall_mem_cons.2 ⟨rfl, forall_mem_entryParts.2 ih⟩
  | record fields ih => exact List.forall_mem_cons.2 ⟨rfl, forall_mem_fieldParts.2 ih⟩
  | tagged name inner ih => exact List.forall_mem_cons.2 ⟨rfl, ih⟩
  | _ => exact List.forall_mem_singleton.2 rfl

/-- The obstacle that the part is by itself. -/
def obstacle? : Data → Option DataFault
  | .single number => if number.isFinite then none else some (.notFinite number)
  | .double number => if number.isFinite then none else some (.notFinite number)
  | .failing reason => some (.custom reason)
  | _ => none

def faults (parts : List (Place × Data)) : List DataFault :=
  parts.filterMap fun part => part.2.obstacle?

/-- The obstacles in the data, in the order in which they are reached. -/
def obstacles (data : Data) : List DataFault := faults (parts .value data)

/-- A failure with the first fault, if there is one. -/
def verdict : List DataFault → Except DataFault Unit
  | [] => .ok ()
  | fault :: _ => .error fault

theorem verdict_append (earlier later : List DataFault) :
    verdict (earlier ++ later) = (verdict earlier >>= fun _ => verdict later) := by
  cases earlier with
  | nil => rfl
  | cons fault rest => rfl

theorem verdict_eq_ok_iff {found : List DataFault} : verdict found = .ok () ↔ found = [] := by
  cases found with
  | nil => simp [verdict]
  | cons fault rest => simp [verdict]

theorem faults_append (earlier later : List (Place × Data)) :
    faults (earlier ++ later) = faults earlier ++ faults later := List.filterMap_append

theorem faults_cons_of_none {part : Place × Data} (rest : List (Place × Data))
    (h : part.2.obstacle? = none) : faults (part :: rest) = faults rest :=
  List.filterMap_cons_none h

theorem finiteNumber_eq_verdict (number : Numeral.Binary) :
    finiteNumber number =
      verdict (if number.isFinite then none else some (.notFinite number)).toList := by
  rw [finiteNumber]
  cases number.isFinite <;> rfl

/-! ## The check -/

section Lists

variable {place : Place}

theorem checkItems_eq_verdict {items : List Data}
    (h : ∀ item ∈ items, checkFinite item = verdict (faults (parts place item))) :
    checkItems items = verdict (faults (itemParts place items)) := by
  induction items with
  | nil => rfl
  | cons item rest ih =>
      obtain ⟨hitem, hrest⟩ := List.forall_mem_cons.1 h
      rw [checkItems, itemParts, faults_append, verdict_append, hitem, ih hrest]

theorem checkEntries_eq_verdict {entries : List (Data × Data)}
    (h : ∀ entry ∈ entries, checkFinite entry.1 = verdict (faults (parts .key entry.1)) ∧
      checkFinite entry.2 = verdict (faults (parts place entry.2))) :
    checkEntries entries = verdict (faults (entryParts place entries)) := by
  induction entries with
  | nil => rfl
  | cons entry rest ih =>
      obtain ⟨hentry, hrest⟩ := List.forall_mem_cons.1 h
      rw [checkEntries, entryParts, faults_append, verdict_append, faults_append, verdict_append,
        hentry.1, hentry.2, ih hrest]

theorem checkFields_eq_verdict {fields : List (String × Data)}
    (h : ∀ field ∈ fields, checkFinite field.2 = verdict (faults (parts place field.2))) :
    checkFields fields = verdict (faults (fieldParts place fields)) := by
  induction fields with
  | nil => rfl
  | cons field rest ih =>
      obtain ⟨hfield, hrest⟩ := List.forall_mem_cons.1 h
      rw [checkFields, fieldParts, faults_append, verdict_append, hfield, ih hrest]

end Lists

/-- The check of data in any place finds the first obstacle of all. -/
theorem checkFinite_eq_verdict (place : Place) (data : Data) :
    checkFinite data = verdict (faults (parts place data)) := by
  induction data using Data.induction generalizing place with
  | bool value => rfl
  | int value => rfl
  | single value => exact finiteNumber_eq_verdict value
  | double value => exact finiteNumber_eq_verdict value
  | text value => rfl
  | bytes value => rfl
  | absent => rfl
  | present inner ih => rw [checkFinite, parts, faults_cons_of_none _ rfl, ih place]
  | wrapped inner ih => rw [checkFinite, parts, faults_cons_of_none _ rfl, ih place]
  | seq items ih =>
      rw [checkFinite, parts, faults_cons_of_none _ rfl]
      exact checkItems_eq_verdict fun item hitem => ih item hitem place
  | map entries ih =>
      rw [checkFinite, parts, faults_cons_of_none _ rfl]
      exact checkEntries_eq_verdict fun entry hentry =>
        ⟨(ih entry hentry).1 .key, (ih entry hentry).2 place⟩
  | record fields ih =>
      rw [checkFinite, parts, faults_cons_of_none _ rfl]
      exact checkFields_eq_verdict fun field hfield => ih field hfield place
  | tag name => rfl
  | tagged name inner ih => rw [checkFinite, parts, faults_cons_of_none _ rfl, ih place]
  | failing reason => rfl
  | json value => rfl

theorem checkFinite_eq_ok_iff (place : Place) {data : Data} :
    checkFinite data = .ok () ↔ ∀ part ∈ parts place data, part.2.obstacle? = none := by
  rw [checkFinite_eq_verdict place, verdict_eq_ok_iff, faults, List.filterMap_eq_nil_iff]

end Data

end DynamoExpr
