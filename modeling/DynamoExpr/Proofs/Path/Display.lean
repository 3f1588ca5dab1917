import DynamoExpr.Proofs.Numeral.Digits
import DynamoExpr.Proofs.Path.Spelling

/-!
# Displaying paths

A path that was read displays as the spelling without needless zeros, so reading undoes the
display.  Two spellings read alike when they differ in leading zeros of indexes only.
-/

namespace DynamoExpr

/-! ## Leading zeros -/

/-- One list of digits is the other behind zeros. -/
def IndexSpelling.Alike (index other : IndexSpelling) : Prop :=
  ∃ zeros : Nat, index.digits = List.replicate zeros '0' ++ other.digits ∨
    other.digits = List.replicate zeros '0' ++ index.digits

def SegmentSpelling.Alike (segment other : SegmentSpelling) : Prop :=
  segment.name = other.name ∧
    List.Forall₂ IndexSpelling.Alike segment.indexes other.indexes

/-- The same segments but for leading zeros of indexes. -/
def PathSpelling.Alike (spelling other : PathSpelling) : Prop :=
  List.Forall₂ SegmentSpelling.Alike spelling.segments other.segments

namespace IndexSpelling

theorem value_eq_iff {index other : IndexSpelling} :
    index.value = other.value ↔ index.Alike other := by
  constructor
  · intro h
    rcases Nat.le_total index.digits.length other.digits.length with hle | hle
    · exact ⟨_, .inr (Numeral.eq_zeros_append index.decimal other.decimal hle h)⟩
    · exact ⟨_, .inl (Numeral.eq_zeros_append other.decimal index.decimal hle h.symm)⟩
  · intro h
    rcases h with ⟨zeros, h | h⟩
    · rw [value, h, Numeral.digitsValue_zeros, value]
    · rw [value, value, h, Numeral.digitsValue_zeros]

def canonical (index : IndexSpelling) : IndexSpelling where
  digits := Nat.toDigits 10 index.value
  nonempty := Nat.toDigits_ne_nil
  decimal _ := Nat.isDigit_of_mem_toDigits (by decide) (by decide)
  bounded := by
    rw [Numeral.digitsValue_toDigits]
    exact index.bounded

theorem value_canonical (index : IndexSpelling) : index.canonical.value = index.value :=
  Numeral.digitsValue_toDigits index.value

end IndexSpelling

/-- Lists with equal images are alike item by item. -/
theorem map_eq_map_iff_forall₂ {α β : Type} {f : α → β} {xs ys : List α} :
    xs.map f = ys.map f ↔ List.Forall₂ (fun x y => f x = f y) xs ys := by
  rw [← List.forall₂_eq_eq_eq, List.forall₂_map_left_iff, List.forall₂_map_right_iff]

namespace SegmentSpelling

theorem indexes_alike_iff {indexes others : List IndexSpelling} :
    indexes.map IndexSpelling.value = others.map IndexSpelling.value ↔
      List.Forall₂ IndexSpelling.Alike indexes others := by
  rw [map_eq_map_iff_forall₂]
  simp only [IndexSpelling.value_eq_iff]

/-- The indexes end at the next name, so they are told apart from what follows. -/
theorem indexes_append_eq {is js : List Nat} {segments others : List SegmentSpelling}
    (h : is.map .index ++ segments.flatMap steps = js.map .index ++ others.flatMap steps) :
    is = js ∧ segments.flatMap steps = others.flatMap steps := by
  induction is generalizing js with
  | nil =>
      cases js with
      | nil => exact ⟨rfl, h⟩
      | cons j js => cases segments <;> simp [steps] at h
  | cons i is ih =>
      cases js with
      | nil => cases others <;> simp [steps] at h
      | cons j js =>
          rw [List.map_cons, List.map_cons, List.cons_append, List.cons_append,
            List.cons.injEq, PathStep.index.injEq] at h
          rw [h.1, (ih h.2).1]
          exact ⟨rfl, (ih h.2).2⟩

/-- The steps of segments tell all but the leading zeros. -/
theorem flatMap_steps_eq_iff {segments others : List SegmentSpelling} :
    segments.flatMap steps = others.flatMap steps ↔ List.Forall₂ Alike segments others := by
  induction segments generalizing others with
  | nil =>
      rw [List.forall₂_nil_left_iff]
      cases others <;> simp [steps]
  | cons segment rest ih =>
      cases others with
      | nil => simp [steps]
      | cons other more =>
          rw [List.forall₂_cons, ← ih, Alike, ← indexes_alike_iff, List.flatMap_cons,
            List.flatMap_cons, steps_eq, steps_eq, List.cons_append, List.cons_append,
            List.cons.injEq, PathStep.attribute.injEq, and_assoc]
          constructor
          · intro h
            exact ⟨h.1, indexes_append_eq h.2⟩
          · intro h
            exact ⟨h.1, by rw [h.2.1, h.2.2]⟩

def canonical (segment : SegmentSpelling) : SegmentSpelling where
  name := segment.name
  indexes := segment.indexes.map IndexSpelling.canonical
  nonempty := segment.nonempty
  plain := segment.plain

theorem steps_canonical (segment : SegmentSpelling) : segment.canonical.steps = segment.steps := by
  simp [steps, canonical, IndexSpelling.value_canonical]

end SegmentSpelling

namespace PathSpelling

theorem steps_eq_iff {spelling other : PathSpelling} :
    spelling.steps = other.steps ↔ spelling.Alike other :=
  SegmentSpelling.flatMap_steps_eq_iff

def canonical (spelling : PathSpelling) : PathSpelling where
  first := spelling.first.canonical
  rest := spelling.rest.map SegmentSpelling.canonical

theorem segments_canonical (spelling : PathSpelling) :
    spelling.canonical.segments = spelling.segments.map SegmentSpelling.canonical := rfl

theorem steps_canonical (spelling : PathSpelling) : spelling.canonical.steps = spelling.steps := by
  simp only [steps, segments_canonical, List.flatMap_map, SegmentSpelling.steps_canonical]

end PathSpelling

namespace Path

/-! ## The display of a spelling -/

theorem intercalate_cons_eq (separator first : List Char) (rest : List (List Char)) :
    separator.intercalate (first :: rest) = first ++ rest.flatMap (separator ++ ·) := by
  induction rest generalizing first with
  | nil => simp
  | cons second rest ih =>
      rw [List.intercalate_cons_cons, ih, List.flatMap_cons, List.append_assoc, List.append_assoc]

/-- With a point before the name of the top-level attribute too, every step displays by itself. -/
theorem point_cons_display (path : AttributePath) :
    '.' :: path.display.toList = path.steps.flatMap fun step => step.display.toList := by
  have htail : ("".intercalate (path.tail.map PathStep.display)).toList =
      path.tail.flatMap fun step => step.display.toList := by
    rw [String.toList_intercalate, List.map_map]
    cases path.tail with
    | nil => rfl
    | cons step rest =>
        rw [List.map_cons, String.toList_empty, intercalate_cons_eq, List.flatMap_cons,
          List.flatMap_map]
        rfl
  rw [display, String.toList_append, htail, steps, List.flatMap_cons, PathStep.display,
    String.toList_append]
  rfl

theorem display_index (index : IndexSpelling) :
    (PathStep.index index.value).display.toList = index.canonical.chars := by
  simp [PathStep.display, IndexSpelling.chars, IndexSpelling.canonical]

theorem display_steps (segment : SegmentSpelling) :
    (segment.steps.flatMap fun step => step.display.toList) = '.' :: segment.canonical.chars := by
  rw [SegmentSpelling.steps, List.flatMap_cons, List.flatMap_map, SegmentSpelling.chars,
    SegmentSpelling.canonical, List.flatMap_map]
  simp only [display_index]
  rw [PathStep.display, String.toList_append]
  rfl

/-- A path displays as its canonical spelling. -/
theorem display_eq_text {spelling : PathSpelling} {path : AttributePath}
    (h : spelling.steps = path.steps) : path.display = spelling.canonical.text := by
  have hpoints : '.' :: spelling.canonical.chars =
      spelling.segments.flatMap fun segment => '.' :: segment.canonical.chars := by
    rw [PathSpelling.chars, PathSpelling.segments_canonical, PathSpelling.segments, List.map_cons,
      List.map_cons, intercalate_cons_eq, List.flatMap_cons, List.map_map, List.flatMap_map]
    rfl
  have hdisplay : '.' :: path.display.toList = '.' :: spelling.canonical.chars := by
    rw [point_cons_display, ← h, hpoints, PathSpelling.steps, List.flatMap_assoc]
    simp only [display_steps]
  rw [← String.toList_inj, PathSpelling.text, String.toList_ofList]
  exact List.tail_eq_of_cons_eq hdisplay

/-! ## Reading a display -/

theorem read_display_eq {text : String} {path : AttributePath} (h : read text = .ok path) :
    read path.display = .ok path := by
  obtain ⟨spelling, -, hsteps⟩ := read_eq_ok_iff.1 h
  rw [display_eq_text hsteps]
  exact read_eq_ok_iff.2 ⟨spelling.canonical, rfl, spelling.steps_canonical.trans hsteps⟩

theorem display_inj_of_read {text other : String} {path path' : AttributePath}
    (h : read text = .ok path) (h' : read other = .ok path') :
    path = path' ↔ path.display = path'.display := by
  constructor
  · exact congrArg display
  · intro hdisplay
    have hread : read path.display = .ok path' := by
      rw [hdisplay]
      exact read_display_eq h'
    exact Except.ok.inj ((read_display_eq h).symm.trans hread)

theorem read_eq_iff_alike {text : String} {path : AttributePath} (h : read text = .ok path)
    (other : String) :
    read other = .ok path ↔ ∃ spelling spelling' : PathSpelling,
      spelling.text = text ∧ spelling'.text = other ∧ spelling.Alike spelling' := by
  constructor
  · intro h'
    obtain ⟨spelling, htext, hsteps⟩ := read_eq_ok_iff.1 h
    obtain ⟨spelling', hother, hsteps'⟩ := read_eq_ok_iff.1 h'
    exact ⟨spelling, spelling', htext, hother,
      PathSpelling.steps_eq_iff.1 (hsteps.trans hsteps'.symm)⟩
  · intro h'
    obtain ⟨spelling, spelling', rfl, hother, halike⟩ := h'
    obtain ⟨path', hread, hsteps⟩ := read_text spelling
    cases hread.symm.trans h
    exact read_eq_ok_iff.2
      ⟨spelling', hother, (PathSpelling.steps_eq_iff.2 halike).symm.trans hsteps.symm⟩

/--
Reading undoes the display of a path that was read.  Such paths are told apart by their displays,
and the texts that read alike differ in leading zeros of indexes only.
-/
theorem read_display {text : String} {path : AttributePath} (h : read text = .ok path) :
    read path.display = .ok path ∧ (read path.display).map display = .ok path.display ∧
      (∀ other path', read other = .ok path' →
        (path = path' ↔ path.display = path'.display)) ∧
      ∀ other, read other = .ok path ↔ ∃ spelling spelling' : PathSpelling,
        spelling.text = text ∧ spelling'.text = other ∧ spelling.Alike spelling' := by
  have hread := read_display_eq h
  refine ⟨hread, ?_, fun other path' => display_inj_of_read h, read_eq_iff_alike h⟩
  rw [hread]
  rfl

/-- Zeros in front of an index are not displayed, and the display reads as the same path. -/
theorem zeros_read_display :
    read "a[007].b" = .ok ⟨"a", [.index 7, .attribute "b"]⟩ ∧
      read "a[7].b" = .ok ⟨"a", [.index 7, .attribute "b"]⟩ := by
  have h : read "a[007].b" = .ok ⟨"a", [.index 7, .attribute "b"]⟩ := rfl
  exact ⟨h, (read_display h).1⟩

end Path

end DynamoExpr
