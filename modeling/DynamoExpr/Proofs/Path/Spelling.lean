import Mathlib.Data.List.TakeWhile
import DynamoExpr.Path
import DynamoExpr.Proofs.Outcome

/-!
# Spellings of paths

A spelling is a derivation of a path text: segments of a name and the digits of indexes.  Reading
accepts exactly the texts that have a spelling, and gives the steps of the spelling.
-/

namespace DynamoExpr

/-! ## The grammar -/

/-- The digits of an index, from `0` to `9`.  They may start with zeros. -/
structure IndexSpelling where
  digits : List Char
  nonempty : digits ≠ []
  decimal : ∀ c ∈ digits, c.isDigit = true
  bounded : Numeral.digitsValue digits < Nat.pow 2 64

/-- A name that is not empty and has no point and no bracket, and the indexes after it. -/
structure SegmentSpelling where
  name : String
  indexes : List IndexSpelling
  nonempty : name ≠ ""
  plain : ∀ c ∈ name.toList, c ≠ '.' ∧ c ≠ '[' ∧ c ≠ ']'

structure PathSpelling where
  first : SegmentSpelling
  rest : List SegmentSpelling

namespace IndexSpelling

def value (index : IndexSpelling) : Nat := Numeral.digitsValue index.digits

def chars (index : IndexSpelling) : List Char := '[' :: index.digits ++ [']']

theorem point_not_mem (indexes : List IndexSpelling) : '.' ∉ indexes.flatMap chars := by
  intro h
  obtain ⟨index, -, h⟩ := List.mem_flatMap.1 h
  simp only [chars, List.mem_append, List.mem_cons, List.not_mem_nil, or_false] at h
  rcases h with (h | h) | h
  · exact absurd h (by decide)
  · exact absurd (index.decimal _ h) (by decide)
  · exact absurd h (by decide)

end IndexSpelling

namespace SegmentSpelling

def chars (segment : SegmentSpelling) : List Char :=
  segment.name.toList ++ segment.indexes.flatMap IndexSpelling.chars

def steps (segment : SegmentSpelling) : List (PathStep String) :=
  .attribute segment.name :: segment.indexes.map fun index => .index index.value

theorem steps_eq (segment : SegmentSpelling) :
    segment.steps =
      .attribute segment.name :: (segment.indexes.map IndexSpelling.value).map .index := by
  rw [steps, List.map_map]
  rfl

def reading (segment : SegmentSpelling) : String × List Nat :=
  (segment.name, segment.indexes.map IndexSpelling.value)

theorem point_not_mem (segment : SegmentSpelling) : '.' ∉ segment.chars := by
  rw [chars, List.mem_append, not_or]
  exact ⟨fun h => (segment.plain _ h).1 rfl, IndexSpelling.point_not_mem segment.indexes⟩

/-- The indexes are empty or start with a bracket, which ends the name. -/
theorem chars_split (segment : SegmentSpelling) :
    segment.chars.takeWhile (· != '[') = segment.name.toList ∧
      segment.chars.dropWhile (· != '[') = segment.indexes.flatMap IndexSpelling.chars := by
  have hname : ∀ c ∈ segment.name.toList, (c != '[') = true := fun c hc =>
    bne_iff_ne.2 (segment.plain c hc).2.1
  rw [chars, List.takeWhile_append_of_pos hname, List.dropWhile_append_of_pos hname]
  cases segment.indexes with
  | nil => simp
  | cons index others => simp [IndexSpelling.chars]

end SegmentSpelling

namespace PathSpelling

def segments (spelling : PathSpelling) : List SegmentSpelling := spelling.first :: spelling.rest

def chars (spelling : PathSpelling) : List Char :=
  ['.'].intercalate (spelling.segments.map SegmentSpelling.chars)

def text (spelling : PathSpelling) : String := String.ofList spelling.chars

def steps (spelling : PathSpelling) : List (PathStep String) :=
  spelling.segments.flatMap SegmentSpelling.steps

end PathSpelling

namespace Path

/-! ## Pieces -/

theorem pieces_cons_of_ne {separator c : Char} {rest piece : List Char} {more : List (List Char)}
    (h : c ≠ separator) (hrest : pieces separator rest = piece :: more) :
    pieces separator (c :: rest) = (c :: piece) :: more := by
  rw [pieces, if_neg h, hrest]

theorem pieces_eq_splitOn (separator : Char) (cs : List Char) :
    pieces separator cs = cs.splitOn separator := by
  induction cs with
  | nil => rfl
  | cons c rest ih =>
      rw [List.splitOn_cons_eq_if_modifyHead]
      by_cases h : c = separator
      · rw [pieces, if_pos h, ih, if_pos (beq_iff_eq.2 h)]
      · obtain ⟨piece, more, hrest⟩ :=
          List.exists_cons_of_ne_nil (List.splitOn_ne_nil separator rest)
        rw [pieces_cons_of_ne h (ih.trans hrest), if_neg (by simpa using h), hrest,
          List.modifyHead_cons]

theorem not_mem_of_mem_pieces {separator : Char} {cs : List Char} :
    ∀ piece ∈ pieces separator cs, separator ∉ piece := by
  induction cs with
  | nil => simp [pieces]
  | cons c rest ih =>
      by_cases h : c = separator
      · rw [pieces, if_pos h]
        exact List.forall_mem_cons.2 ⟨List.not_mem_nil, ih⟩
      · obtain ⟨piece, more, hrest⟩ :=
          List.exists_cons_of_ne_nil (List.splitOn_ne_nil separator rest)
        rw [← pieces_eq_splitOn] at hrest
        rw [hrest, List.forall_mem_cons] at ih
        rw [pieces_cons_of_ne h hrest]
        exact List.forall_mem_cons.2 ⟨List.not_mem_cons_of_ne_of_not_mem (Ne.symm h) ih.1, ih.2⟩

/-- The pieces are the lists without the separator that it joins to the characters. -/
theorem pieces_eq_iff {separator : Char} {cs : List Char} {parts : List (List Char)} :
    pieces separator cs = parts ↔
      parts ≠ [] ∧ (∀ part ∈ parts, separator ∉ part) ∧ [separator].intercalate parts = cs := by
  constructor
  · intro h
    subst h
    refine ⟨?_, not_mem_of_mem_pieces, ?_⟩
    · rw [pieces_eq_splitOn]
      exact List.splitOn_ne_nil separator cs
    · rw [pieces_eq_splitOn]
      exact List.intercalate_splitOn separator
  · intro h
    rcases h with ⟨hne, hparts, rfl⟩
    rw [pieces_eq_splitOn]
    exact List.splitOn_intercalate separator hparts hne

theorem pieces_ne_nil (separator : Char) (cs : List Char) : pieces separator cs ≠ [] :=
  (pieces_eq_iff.1 rfl).1

theorem intercalate_pieces (separator : Char) (cs : List Char) :
    [separator].intercalate (pieces separator cs) = cs :=
  (pieces_eq_iff.1 rfl).2.2

theorem pieces_of_not_mem {separator : Char} {cs : List Char} (h : separator ∉ cs) :
    pieces separator cs = [cs] :=
  pieces_eq_iff.2
    ⟨List.cons_ne_nil _ _, List.forall_mem_singleton.2 h, List.intercalate_singleton⟩

theorem pieces_append_cons {separator : Char} {cs : List Char} (h : separator ∉ cs)
    (rest : List Char) :
    pieces separator (cs ++ separator :: rest) = cs :: pieces separator rest := by
  refine pieces_eq_iff.2
    ⟨List.cons_ne_nil _ _, List.forall_mem_cons.2 ⟨h, not_mem_of_mem_pieces⟩, ?_⟩
  rw [List.intercalate_cons_of_ne_nil (pieces_ne_nil separator rest), intercalate_pieces,
    List.append_assoc, List.singleton_append]

/-! ## Indexes -/

theorem readIndex_of_digits {digits : List Char} (hne : digits ≠ [])
    (hdecimal : ∀ c ∈ digits, c.isDigit = true) :
    readIndex digits = if Numeral.digitsValue digits < indexLimit
      then .ok (Numeral.digitsValue digits) else .error .indexRange := by
  unfold readIndex
  rw [if_neg]
  rintro (h | h)
  · exact hne h
  · exact h (List.all_eq_true.2 hdecimal)

theorem readIndex_eq_ok_iff {digits : List Char} {i : Nat} :
    readIndex digits = .ok i ↔
      ∃ index : IndexSpelling, index.digits = digits ∧ index.value = i := by
  constructor
  · intro h
    unfold readIndex at h
    split at h
    · cases h
    · next hgood =>
        rw [not_or, not_not, List.all_eq_true] at hgood
        split at h
        · next hbounded =>
            cases h
            exact ⟨⟨digits, hgood.1, hgood.2, hbounded⟩, rfl, rfl⟩
        · cases h
  · intro h
    rcases h with ⟨index, rfl, rfl⟩
    have hbounded : Numeral.digitsValue index.digits < indexLimit := index.bounded
    rw [readIndex_of_digits index.nonempty index.decimal, if_pos hbounded]
    rfl

/-- What stands before each closing bracket, and nothing after the last. -/
def indexPieces (indexes : List IndexSpelling) : List (List Char) :=
  indexes.map (fun index => '[' :: index.digits) ++ [[]]

theorem indexPieces_ne_nil (indexes : List IndexSpelling) : indexPieces indexes ≠ [] :=
  List.append_ne_nil_of_right_ne_nil _ (List.cons_ne_nil _ _)

theorem indexPieces_cons (index : IndexSpelling) (others : List IndexSpelling) :
    indexPieces (index :: others) = ('[' :: index.digits) :: indexPieces others := rfl

theorem readIndexes_bracket {digits : List Char} {more : List (List Char)} (hne : more ≠ []) :
    readIndexes (('[' :: digits) :: more) =
      readIndex digits >>= fun i => readIndexes more >>= fun is => .ok (i :: is) := by
  obtain ⟨piece, others, rfl⟩ := List.exists_cons_of_ne_nil hne
  rfl

theorem readIndexes_indexPieces (indexes : List IndexSpelling) :
    readIndexes (indexPieces indexes) = .ok (indexes.map IndexSpelling.value) := by
  induction indexes with
  | nil => rfl
  | cons index others ih =>
      have hindex : readIndex index.digits = .ok index.value :=
        readIndex_eq_ok_iff.2 ⟨index, rfl, rfl⟩
      rw [indexPieces_cons, readIndexes_bracket (indexPieces_ne_nil others), hindex, ih]
      rfl

/-- Indexes that read are spelled, by the recursion of the reader. -/
theorem exists_indexes_of_readIndexes {parts : List (List Char)} (hne : parts ≠ [])
    {is : List Nat} (h : readIndexes parts = .ok is) :
    ∃ indexes : List IndexSpelling,
      indexPieces indexes = parts ∧ indexes.map IndexSpelling.value = is := by
  fun_induction readIndexes parts generalizing is with
  | case1 => exact absurd rfl hne
  | case2 => cases h
  | case3 => cases h
  | case4 =>
      cases h
      exact ⟨[], rfl, rfl⟩
  | case5 digits more hmore ih =>
      obtain ⟨i, hi, h⟩ := bind_eq_ok_iff.1 h
      obtain ⟨others, hothers, h⟩ := bind_eq_ok_iff.1 h
      cases h
      obtain ⟨index, rfl, rfl⟩ := readIndex_eq_ok_iff.1 hi
      obtain ⟨indexes, rfl, rfl⟩ := ih (fun hnil => hmore hnil) hothers
      exact ⟨index :: indexes, rfl, rfl⟩
  | case6 => cases h

theorem close_not_mem_indexPieces (indexes : List IndexSpelling) :
    ∀ part ∈ indexPieces indexes, ']' ∉ part := by
  intro part hpart
  rw [indexPieces, List.mem_append, List.mem_map, List.mem_singleton] at hpart
  rcases hpart with ⟨index, -, rfl⟩ | rfl
  · exact List.not_mem_cons_of_ne_of_not_mem (by decide) fun h =>
      absurd (index.decimal _ h) (by decide)
  · exact List.not_mem_nil

theorem intercalate_indexPieces (indexes : List IndexSpelling) :
    [']'].intercalate (indexPieces indexes) = indexes.flatMap IndexSpelling.chars := by
  induction indexes with
  | nil => rfl
  | cons index others ih =>
      rw [indexPieces_cons, List.intercalate_cons_of_ne_nil (indexPieces_ne_nil others), ih,
        List.flatMap_cons, IndexSpelling.chars]

theorem pieces_flatMap_chars (indexes : List IndexSpelling) :
    pieces ']' (indexes.flatMap IndexSpelling.chars) = indexPieces indexes :=
  pieces_eq_iff.2
    ⟨indexPieces_ne_nil indexes, close_not_mem_indexPieces indexes,
      intercalate_indexPieces indexes⟩

/-! ## Segments -/

theorem readSegment_chars (segment : SegmentSpelling) :
    readSegment segment.chars = .ok segment.reading := by
  have hne : segment.name.toList ≠ [] := by
    rw [Ne, String.toList_eq_nil_iff]
    exact segment.nonempty
  have hclose : ']' ∉ segment.name.toList := fun h => (segment.plain _ h).2.2 rfl
  unfold readSegment
  rw [segment.chars_split.1, segment.chars_split.2, if_neg hne, if_neg hclose,
    pieces_flatMap_chars, readIndexes_indexPieces, String.ofList_toList]
  rfl

theorem exists_spelling_of_readSegment {segment : List Char} (hpoint : '.' ∉ segment)
    {result : String × List Nat} (h : readSegment segment = .ok result) :
    ∃ spelling : SegmentSpelling, spelling.chars = segment ∧ spelling.reading = result := by
  dsimp only [readSegment] at h
  split at h
  · cases h
  next hne =>
  split at h
  · cases h
  next hclose =>
  obtain ⟨is, his, rfl⟩ := map_eq_ok_iff.1 h
  obtain ⟨indexes, hparts, rfl⟩ := exists_indexes_of_readIndexes (pieces_ne_nil _ _) his
  have hrest : indexes.flatMap IndexSpelling.chars = segment.dropWhile (· != '[') := by
    rw [← intercalate_indexPieces, hparts, intercalate_pieces]
  let name := segment.takeWhile (· != '[')
  have hname : String.ofList name ≠ "" := by
    rwa [Ne, String.ofList_eq_empty_iff]
  have hplain : ∀ c ∈ (String.ofList name).toList, c ≠ '.' ∧ c ≠ '[' ∧ c ≠ ']' := by
    rw [String.toList_ofList]
    intro c hc
    refine ⟨?_, by simpa using List.mem_takeWhile_imp hc, ?_⟩
    · rintro rfl
      exact hpoint ((List.takeWhile_prefix _).subset hc)
    · rintro rfl
      exact hclose hc
  refine ⟨⟨String.ofList name, indexes, hname, hplain⟩, ?_, rfl⟩
  change (String.ofList name).toList ++ indexes.flatMap IndexSpelling.chars = segment
  rw [String.toList_ofList, hrest, List.takeWhile_append_dropWhile]

theorem readSegments_chars (segments : List SegmentSpelling) :
    readSegments (segments.map SegmentSpelling.chars) =
      .ok (segments.map SegmentSpelling.reading) := by
  induction segments with
  | nil => rfl
  | cons segment rest ih =>
      rw [List.map_cons, readSegments, readSegment_chars, ih]
      rfl

theorem exists_spellings_of_readSegments {parts : List (List Char)}
    (hpoint : ∀ part ∈ parts, '.' ∉ part) {results : List (String × List Nat)}
    (h : readSegments parts = .ok results) :
    ∃ spellings : List SegmentSpelling, spellings.map SegmentSpelling.chars = parts ∧
      spellings.map SegmentSpelling.reading = results := by
  induction parts generalizing results with
  | nil =>
      cases h
      exact ⟨[], rfl, rfl⟩
  | cons part more ih =>
      rw [List.forall_mem_cons] at hpoint
      obtain ⟨first, hfirst, h⟩ := bind_eq_ok_iff.1 h
      obtain ⟨others, hothers, h⟩ := bind_eq_ok_iff.1 h
      cases h
      obtain ⟨spelling, rfl, rfl⟩ := exists_spelling_of_readSegment hpoint.1 hfirst
      obtain ⟨spellings, rfl, rfl⟩ := ih hpoint.2 hothers
      exact ⟨spelling :: spellings, rfl, rfl⟩

/-! ## Paths -/

theorem pieces_eq_segments_iff {spelling : PathSpelling} {text : String} :
    pieces '.' text.toList = spelling.segments.map SegmentSpelling.chars ↔
      spelling.text = text := by
  rw [pieces_eq_iff, ← String.toList_inj, PathSpelling.text, String.toList_ofList]
  constructor
  · exact fun h => h.2.2
  · intro h
    refine ⟨List.cons_ne_nil _ _, ?_, h⟩
    intro part hpart
    obtain ⟨segment, -, rfl⟩ := List.mem_map.1 hpart
    exact segment.point_not_mem

theorem readSegments_text (spelling : PathSpelling) :
    readSegments (pieces '.' spelling.text.toList) =
      .ok (spelling.segments.map SegmentSpelling.reading) := by
  rw [pieces_eq_segments_iff.2 rfl, readSegments_chars]

theorem segmentSteps_reading (segment : SegmentSpelling) :
    segmentSteps segment.reading = segment.steps :=
  segment.steps_eq.symm

/-- The steps of the path that the readings of the segments give. -/
theorem steps_readings (spelling : PathSpelling) :
    steps ⟨spelling.first.name, spelling.first.reading.2.map .index ++
      (spelling.rest.map SegmentSpelling.reading).flatMap segmentSteps⟩ = spelling.steps := by
  have hrest : (spelling.rest.map SegmentSpelling.reading).flatMap segmentSteps =
      spelling.rest.flatMap SegmentSpelling.steps := by
    simp only [List.flatMap_map, segmentSteps_reading]
  rw [hrest, PathSpelling.steps, PathSpelling.segments, List.flatMap_cons, ← segmentSteps_reading]
  rfl

theorem steps_inj {path other : AttributePath} : path.steps = other.steps ↔ path = other := by
  rcases path with ⟨head, tail⟩
  rcases other with ⟨head', tail'⟩
  simp [steps]

/-- The texts with a spelling are those that read, and they read as the steps of the spelling. -/
theorem read_eq_ok_iff {text : String} {path : AttributePath} :
    read text = .ok path ↔ ∃ spelling : PathSpelling,
      spelling.text = text ∧ spelling.steps = path.steps := by
  constructor
  · intro h
    unfold read at h
    split at h
    · cases h
    split at h
    · cases h
    · cases h
    next name indexes rest hsegments =>
    cases h
    obtain ⟨segments, hpieces, hresults⟩ :=
      exists_spellings_of_readSegments not_mem_of_mem_pieces hsegments
    obtain ⟨first, others, rfl, hfirst, rfl⟩ := List.map_eq_cons_iff.1 hresults
    cases hfirst
    let spelling : PathSpelling := ⟨first, others⟩
    exact ⟨spelling, pieces_eq_segments_iff.1 hpieces.symm, (steps_readings spelling).symm⟩
  · intro h
    rcases h with ⟨spelling, rfl, hsteps⟩
    have hne : spelling.text ≠ "" := by
      intro hempty
      have h := readSegments_text spelling
      rw [hempty] at h
      cases h
    rw [← steps_readings, steps_inj] at hsteps
    unfold read
    rw [if_neg hne, readSegments_text, ← hsteps]
    rfl

theorem read_text (spelling : PathSpelling) :
    ∃ path, read spelling.text = .ok path ∧ path.steps = spelling.steps :=
  ⟨_, read_eq_ok_iff.2 ⟨spelling, rfl, (steps_readings spelling).symm⟩, steps_readings spelling⟩

end Path

end DynamoExpr
