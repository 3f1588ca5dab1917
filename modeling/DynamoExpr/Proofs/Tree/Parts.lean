import DynamoExpr.Proofs.Alias.Lane
import DynamoExpr.Proofs.Tree.Alike

/-!
# The parts of a tree

The paths and the literals in a tree from left to right, whatever a path and a literal are.  The
leaves of the plain tree are those of the parts that the user gave, a list of literals counting as
the value that it folds to.
-/

namespace DynamoExpr

variable {ν β : Type}

inductive Part (ν β : Type) where
  | name (path : ν)
  | literal (literal : β)

def Operand.parts : Operand ν β → List (Part ν β)
  | .name path => [.name path]
  | .value literal => [.literal literal]
  | .size path => [.name path]

def Condition.parts : Condition ν β → List (Part ν β)
  | .compare _ left right => left.parts ++ right.parts
  | .between value low high => value.parts ++ low.parts ++ high.parts
  | .within value candidates => value.parts ++ candidates.flatMap Operand.parts
  | .presence _ path => [.name path]
  | .test _ path literal => [.name path, .literal literal]
  | .join _ left right => left.parts ++ right.parts
  | .not inner => inner.parts

def SortKeyTest.parts : SortKeyTest β → List (Part ν β)
  | .compare _ value => [.literal value]
  | .between low high => [.literal low, .literal high]
  | .beginsWith leading => [.literal leading]

def KeyCondition.parts (tree : KeyCondition ν β) : List (Part ν β) :=
  [.name tree.key, .literal tree.value] ++
    tree.sort.elim [] fun sort => .name sort.key :: sort.test.parts

def Projection.parts (tree : Projection ν) : List (Part ν β) := tree.names.map .name

def SetValue.parts : SetValue ν β → List (Part ν β)
  | .operand source => source.parts
  | .arithmetic _ left right => left.parts ++ right.parts
  | .listAppend left right => left.parts ++ right.parts
  | .ifNotExists path fallback => .name path :: fallback.parts

def Update.parts (tree : Update ν β) : List (Part ν β) :=
  (tree.sets.flatMap fun action => .name action.1 :: action.2.parts)
    ++ tree.removes.map .name
    ++ (tree.adds.flatMap fun action => [.name action.1, .literal action.2])
    ++ (tree.deletes.flatMap fun action => [.name action.1, .literal action.2])

/-! ## The parts that the user gives -/

abbrev SourcePart := Part NameRef Literal

/-- The part is a path that parsed, or a literal that folds. -/
def Part.Meant : SourcePart → Prop
  | .name ref => ref.Parsed
  | .literal l => ∃ v, l.value? = some v

def Part.segments : SourcePart → List String
  | .name (.path p) => p.names
  | _ => []

def Part.value? : SourcePart → Option AttributeValue
  | .literal l => l.value?
  | .name _ => none

def Part.leaves (part : SourcePart) : List Leaf :=
  part.segments.map .name ++ part.value?.toList.map .value

theorem Path.map_names (p : AttributePath) : p.names.map Leaf.name = p.leaves := by
  rcases p with ⟨head, tail⟩
  induction tail with
  | nil => rfl
  | cons step rest ih =>
      simp only [names, steps, leaves, List.filterMap_cons, List.map_cons, List.flatMap_cons,
        List.cons.injEq, true_and] at ih ⊢
      rcases step with name | i
      · simp [PathStep.leaves, ih]
      · simpa [PathStep.leaves] using ih

/-- All parts are meant, and the leaves are theirs in order. -/
structure Spell (parts : List SourcePart) (leaves : List Leaf) : Prop where
  meant : ∀ part ∈ parts, part.Meant
  leaves_eq : parts.flatMap Part.leaves = leaves

namespace Spell

variable {parts more : List SourcePart} {leaves others : List Leaf}

theorem nil : Spell [] [] := ⟨by simp, rfl⟩

theorem append (h : Spell parts leaves) (k : Spell more others) :
    Spell (parts ++ more) (leaves ++ others) := by
  refine ⟨List.forall_mem_append.2 ⟨h.meant, k.meant⟩, ?_⟩
  rw [List.flatMap_append, h.leaves_eq, k.leaves_eq]

theorem name {ref : NameRef} {p : AttributePath} (h : ref.checked = .ok p) :
    Spell [.name ref] p.leaves := by
  rw [NameRef.checked_eq_ok_iff.1 h]
  refine ⟨by simp [Part.Meant, NameRef.Parsed], ?_⟩
  simp [Part.leaves, Part.segments, Part.value?, Path.map_names]

theorem literal {l : Literal} {v : AttributeValue} (h : l.checked = .ok v) :
    Spell [.literal l] [.value v] := by
  have hvalue := (Literal.checked_eq_ok_iff.1 h).1
  refine ⟨by simp [Part.Meant, hvalue], ?_⟩
  simp [Part.leaves, Part.segments, Part.value?, hvalue]

theorem value {w v : AttributeValue} (h : w.checked = .ok v) :
    Spell [.literal (.value w)] [.value v] :=
  @literal (.value w) v h

/-- Items in order, each with parts and leaves of its own. -/
theorem mapM {ι α : Type} {check : ι → Except ParameterFault α} {parts : ι → List SourcePart}
    {leaves : α → List Leaf} (h : ∀ x y, check x = .ok y → Spell (parts x) (leaves y))
    {xs : List ι} {ys : List α} (hcheck : xs.mapM check = .ok ys) :
    Spell (xs.flatMap parts) (ys.flatMap leaves) := by
  have hitems := mapM_eq_ok_iff.1 hcheck
  clear hcheck
  induction hitems with
  | nil => exact nil
  | cons hitem _ ih => exact (h _ _ hitem).append ih

end Spell

theorem Operand.spells {source : SourceOperand} {plain : PlainOperand}
    (h : source.checked = .ok plain) : Spell source.parts plain.leaves := by
  cases source with
  | name ref =>
      obtain ⟨p, hp, h⟩ := bind_eq_ok_iff.1 h
      cases h
      exact .name hp
  | value l =>
      obtain ⟨v, hv, h⟩ := bind_eq_ok_iff.1 h
      cases h
      exact .literal hv
  | size ref =>
      obtain ⟨p, hp, h⟩ := bind_eq_ok_iff.1 h
      cases h
      exact .name hp

theorem Condition.spells {limits : Limits} {source : SourceCondition} {plain : PlainCondition}
    (h : source.checked limits = .ok plain) : Spell source.parts plain.leaves := by
  induction source generalizing plain with
  | compare op left right =>
      obtain ⟨l, hl, h⟩ := bind_eq_ok_iff.1 h
      obtain ⟨r, hr, h⟩ := bind_eq_ok_iff.1 h
      cases h
      exact (Operand.spells hl).append (Operand.spells hr)
  | between value low high =>
      obtain ⟨v, hv, h⟩ := bind_eq_ok_iff.1 h
      obtain ⟨l, hl, h⟩ := bind_eq_ok_iff.1 h
      obtain ⟨u, hu, h⟩ := bind_eq_ok_iff.1 h
      cases h
      exact ((Operand.spells hv).append (Operand.spells hl)).append (Operand.spells hu)
  | within value candidates =>
      have h := (unlessFault_eq_ok_iff.1 (unlessFault_eq_ok_iff.1 h).2).2
      obtain ⟨v, hv, h⟩ := bind_eq_ok_iff.1 h
      obtain ⟨cs, hcs, h⟩ := bind_eq_ok_iff.1 h
      cases h
      exact (Operand.spells hv).append (.mapM (fun _ _ => Operand.spells) hcs)
  | presence function ref =>
      obtain ⟨p, hp, h⟩ := bind_eq_ok_iff.1 h
      cases h
      exact .name hp
  | test function ref l =>
      obtain ⟨p, hp, h⟩ := bind_eq_ok_iff.1 h
      obtain ⟨v, hv, h⟩ := bind_eq_ok_iff.1 h
      cases h
      exact (Spell.name hp).append (.literal hv)
  | join op left right hleft hright =>
      obtain ⟨l, hl, h⟩ := bind_eq_ok_iff.1 h
      obtain ⟨r, hr, h⟩ := bind_eq_ok_iff.1 h
      cases h
      exact (hleft hl).append (hright hr)
  | not inner hinner =>
      obtain ⟨i, hi, h⟩ := bind_eq_ok_iff.1 h
      cases h
      have hspell := hinner hi
      exact hspell

theorem SortKeyTest.spells {source plain : SortKeyTest AttributeValue}
    (h : source.checked = .ok plain) : Spell (source.map Literal.value).parts plain.leaves := by
  cases source with
  | compare op value =>
      obtain ⟨v, hv, h⟩ := bind_eq_ok_iff.1 h
      cases h
      exact .value hv
  | between low high =>
      obtain ⟨l, hl, h⟩ := bind_eq_ok_iff.1 h
      obtain ⟨u, hu, h⟩ := bind_eq_ok_iff.1 h
      cases h
      exact (Spell.value hl).append (.value hu)
  | beginsWith leading =>
      obtain ⟨v, hv, h⟩ := bind_eq_ok_iff.1 h
      cases h
      exact .value hv

/-- The literals of a key condition are values. -/
theorem KeyCondition.spells {source : SourceKeyCondition} {plain : PlainKeyCondition}
    (h : source.checked = .ok plain) :
    Spell (source.map id Literal.value).parts plain.leaves := by
  rcases source with ⟨key, value, sort⟩
  have h := (unlessFault_eq_ok_iff.1 h).2
  cases sort with
  | none =>
      obtain ⟨p, hp, h⟩ := bind_eq_ok_iff.1 h
      obtain ⟨v, hv, h⟩ := bind_eq_ok_iff.1 h
      cases h
      exact ((Spell.name hp).append (.value hv)).append .nil
  | some sort =>
      obtain ⟨p, hp, h⟩ := bind_eq_ok_iff.1 h
      obtain ⟨v, hv, h⟩ := bind_eq_ok_iff.1 h
      obtain ⟨q, hq, h⟩ := bind_eq_ok_iff.1 h
      obtain ⟨test, htest, h⟩ := bind_eq_ok_iff.1 h
      cases h
      exact ((Spell.name hp).append (.value hv)).append
        ((Spell.name hq).append (SortKeyTest.spells htest))

theorem SetValue.spells {source : SetValue NameRef Literal} {plain : PlainSetValue}
    (h : source.checked = .ok plain) : Spell source.parts plain.leaves := by
  induction source generalizing plain with
  | operand source =>
      cases source with
      | name ref =>
          obtain ⟨o, ho, h⟩ := bind_eq_ok_iff.1 h
          cases h
          exact Operand.spells ho
      | value l =>
          obtain ⟨o, ho, h⟩ := bind_eq_ok_iff.1 h
          cases h
          exact Operand.spells ho
      | size ref => cases h
  | arithmetic op left right hleft hright =>
      have h := (unlessFault_eq_ok_iff.1 h).2
      obtain ⟨l, hl, h⟩ := bind_eq_ok_iff.1 h
      obtain ⟨r, hr, h⟩ := bind_eq_ok_iff.1 h
      cases h
      exact (hleft hl).append (hright hr)
  | listAppend left right hleft hright =>
      obtain ⟨l, hl, h⟩ := bind_eq_ok_iff.1 h
      obtain ⟨r, hr, h⟩ := bind_eq_ok_iff.1 h
      cases h
      exact (hleft hl).append (hright hr)
  | ifNotExists ref fallback hfallback =>
      obtain ⟨p, hp, h⟩ := bind_eq_ok_iff.1 h
      obtain ⟨v, hv, h⟩ := bind_eq_ok_iff.1 h
      cases h
      exact (Spell.name hp).append (hfallback hv)

theorem SetValue.action_spells {action : NameRef × SetValue NameRef Literal}
    {plain : AttributePath × PlainSetValue} (h : SetValue.checkedAction action = .ok plain) :
    Spell (.name action.1 :: action.2.parts) (plain.1.leaves ++ plain.2.leaves) := by
  obtain ⟨p, hp, h⟩ := bind_eq_ok_iff.1 h
  obtain ⟨v, hv, h⟩ := bind_eq_ok_iff.1 h
  cases h
  exact (Spell.name hp).append (SetValue.spells hv)

theorem LiteralClause.action_spells {clause : LiteralClause} {action : NameRef × Literal}
    {plain : AttributePath × AttributeValue} (h : clause.checkedAction action = .ok plain) :
    Spell [.name action.1, .literal action.2] (plain.1.leaves ++ [.value plain.2]) := by
  have h := (unlessFault_eq_ok_iff.1 h).2
  obtain ⟨p, hp, h⟩ := bind_eq_ok_iff.1 h
  obtain ⟨v, hv, h⟩ := bind_eq_ok_iff.1 h
  cases h
  exact (Spell.name hp).append (.literal hv)

theorem Update.spells {source : SourceUpdate} {plain : PlainUpdate}
    (h : source.checked = .ok plain) : Spell source.parts plain.leaves := by
  obtain ⟨hsets, hremoves, hadds, hdeletes⟩ := lists_of_checked h
  have hnames : Spell (source.removes.map .name) (plain.removes.flatMap Path.leaves) := by
    rw [List.map_eq_flatMap]
    exact .mapM (fun _ _ => Spell.name) hremoves
  exact (((Spell.mapM (fun _ _ => SetValue.action_spells) hsets).append hnames).append
    (.mapM (fun _ _ => LiteralClause.action_spells) hadds)).append
    (.mapM (fun _ _ => LiteralClause.action_spells) hdeletes)

/-! ## Projections -/

/-- The projection with each path once, where it was first requested. -/
def Projection.distinct [BEq ν] (tree : Projection ν) : Projection ν := ⟨tree.names.eraseDups⟩

/-- All names are paths, and the plain projection has each of these once. -/
theorem Projection.eq_of_checked {source : SourceProjection} {plain : PlainProjection}
    (h : source.checked = .ok plain) :
    ∃ paths : List AttributePath, paths ≠ [] ∧ source.names = paths.map NameRef.path ∧
      plain = ⟨paths.eraseDups⟩ := by
  obtain ⟨hempty, h⟩ := unlessFault_eq_ok_iff.1 h
  obtain ⟨paths, hpaths, hplain⟩ := bind_eq_ok_iff.1 h
  cases hplain
  have hnames : source.names = paths.map NameRef.path :=
    (mapM_eq_ok_iff_eq_map fun _ _ => NameRef.checked_eq_ok_iff).1 hpaths
  refine ⟨paths, fun hnil => hempty ?_, hnames, rfl⟩
  rw [hnames, hnil]
  rfl

/-- A path requested again is no part of the text. -/
theorem Projection.spells {source : SourceProjection} {plain : PlainProjection}
    (h : source.checked = .ok plain) : Spell source.distinct.parts plain.leaves := by
  obtain ⟨paths, -, hnames, rfl⟩ := Projection.eq_of_checked h
  have hdistinct : source.names.eraseDups = paths.eraseDups.map NameRef.path := by
    rw [hnames]
    exact Lane.eraseDups_map NameRef.path.inj paths
  have hspell := Spell.mapM (fun _ _ => Spell.name)
    ((mapM_eq_ok_iff_eq_map fun _ _ => NameRef.checked_eq_ok_iff).2 hdistinct)
  rw [← List.map_eq_flatMap] at hspell
  exact hspell

end DynamoExpr
