/-!
# Texts of separated parts

Parts without a comma, joined by a comma and a blank, are what splitting the text at each comma and
blank gives back.  The induction is on the parts; a position of the text is known by the texts in
front of it and behind it.
-/

namespace DynamoExpr.Text

open String.Slice.Pattern String.Slice.Pattern.Model

local instance commaPattern : StrictPatternModel ", " :=
  ForwardStringSearcher.strictPatternModel (by decide)

local instance commaSearcher : LawfulToForwardSearcherModel ", " :=
  ForwardStringSearcher.lawfulToForwardSearcherModel (by decide)

section Part

variable {text : String.Slice} {start stop : text.Pos} {front part rest : String}

theorem le_of_splits (hstart : start.Splits front (part ++ rest))
    (hstop : stop.Splits (front ++ part) rest) : start ≤ stop :=
  (hstart.le_iff_exists_eq_append hstop).2 ⟨part, rfl, rfl⟩

theorem copy_subslice (hstart : start.Splits front (part ++ rest))
    (hstop : stop.Splits (front ++ part) rest) (h : start ≤ stop) :
    (text.subslice start stop h).toSlice.copy = part := by
  obtain ⟨_, hcopy⟩ := String.Slice.copy_slice_eq_iff_splits.2 ⟨front, rest, hstart, hstop⟩
  exact hcopy

/-- Within a part that has no comma no separator starts. -/
theorem not_matchesAt_part (hpart : ',' ∉ part.toList)
    (hstart : start.Splits front (part ++ rest)) (hstop : stop.Splits (front ++ part) rest)
    (p : text.Pos) (hle : start ≤ p) (hlt : p < stop) : ¬ MatchesAt ", " p := by
  intro hmatch
  obtain ⟨before, after, hp⟩ := ForwardStringSearcher.matchesAt_iff_splits.1 hmatch
  obtain ⟨skipped, rfl, -⟩ := (hstart.le_iff_exists_eq_append hp).1 hle
  obtain ⟨left, hne, hfront, hafter⟩ := (hp.lt_iff_exists_eq_append hstop).1 hlt
  rw [String.append_assoc, String.append_right_inj] at hfront
  obtain ⟨c, cs, hleft⟩ := List.exists_cons_of_ne_nil (mt String.toList_eq_nil_iff.1 hne)
  have hcomma : ',' = c := by
    have hchars := congrArg String.toList hafter
    rw [String.toList_append, String.toList_append, hleft] at hchars
    exact (List.cons.inj hchars).1
  refine hpart ?_
  rw [hfront, String.toList_append, hleft, hcomma]
  simp

end Part

theorem split_of_splits {text : String.Slice} {start : text.Pos} {front : String}
    {parts : List String} (hne : parts ≠ []) (hparts : ∀ part ∈ parts, ',' ∉ part.toList)
    (hstart : start.Splits front (", ".intercalate parts)) :
    (Model.split ", " start start (String.Slice.Pos.le_refl _)).map
      (fun sub => sub.toSlice.copy) = parts := by
  induction parts generalizing start front with
  | nil => exact absurd rfl hne
  | cons part rest ih =>
      obtain ⟨hpart, hrest⟩ := List.forall_mem_cons.1 hparts
      cases rest with
      | nil =>
          -- The last part ends with the text, which is a border with nothing behind it.
          have hpartEnd : start.Splits front (part ++ "") := by
            rwa [String.intercalate_singleton, ← String.append_empty (s := part)] at hstart
          have hend : text.endPos.Splits (front ++ part) "" := by
            rw [← String.append_empty (s := part), ← hpartEnd.eq_append]
            exact text.splits_endPos
          rw [split_eq_of_not_matchesAt _ (le_of_splits hpartEnd hend)
            (not_matchesAt_part hpart hpartEnd hend), split_endPos, List.map_singleton,
            copy_subslice hpartEnd hend]
      | cons next more =>
          rw [String.intercalate_cons_cons, String.append_assoc] at hstart
          have hstop := hstart.splits_rotateRight
          have hnext := hstop.splits_rotateRight
          have hmatch : IsLongestMatchAt ", " hstart.rotateRight hstop.rotateRight :=
            ForwardStringSearcher.isLongestMatchAt_iff_splits.2 ⟨_, _, hstop, hnext⟩
          rw [split_eq_of_not_matchesAt _ (le_of_splits hstart hstop)
            (not_matchesAt_part hpart hstart hstop), split_eq_of_isLongestMatchAt hmatch,
            List.map_cons, copy_subslice hstart hstop, ih (List.cons_ne_nil _ _) hrest hnext]

/-- Splitting undoes joining. -/
theorem split_intercalate {parts : List String} (hne : parts ≠ [])
    (hparts : ∀ part ∈ parts, ',' ∉ part.toList) :
    ((", ".intercalate parts).split ", ").toList.map String.Slice.copy = parts := by
  have hstart : (", ".intercalate parts).toSlice.startPos.Splits "" (", ".intercalate parts) := by
    have h := (", ".intercalate parts).toSlice.splits_startPos
    rwa [String.copy_toSlice] at h
  rw [String.split, String.Slice.toList_split_eq_splitToSubslice,
    toList_splitToSubslice_eq_modelSplit, List.map_map]
  exact split_of_splits hne hparts hstart

end DynamoExpr.Text
