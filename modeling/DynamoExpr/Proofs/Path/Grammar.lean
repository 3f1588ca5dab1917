import DynamoExpr.Alias.Trees
import DynamoExpr.Proofs.Path.Bytes

/-!
# The grammar of paths

Which texts read, as what, and how the reading of a text at fault ends.
-/

namespace DynamoExpr.Path

open Bytes

/-- The texts of the grammar read, all others are at fault, and no scan fails to answer. -/
structure ReadsGrammar (text : String) : Prop where
  accepts : (∃ path, read text = .ok path) ↔ ∃ spelling : PathSpelling, spelling.text = text
  /-- A path has the name and the indexes of each segment in order, and nothing else. -/
  steps : ∀ spelling : PathSpelling, spelling.text = text →
    ∃ path, read text = .ok path ∧ path.steps = spelling.steps
  /-- A text at fault is an invalid parameter to every expression that it is given to. -/
  refuses : (∀ spelling : PathSpelling, spelling.text ≠ text) →
    ∃ error, read text = .error error ∧
      (text = "" ∧ error = .emptyPath ∨
        text ≠ "" ∧ ∃ fault, error = .malformed text fault) ∧
      ∀ table, (Aliases.nameRef (.ofText text)).run.run table =
        (.error (.invalid (.name error)), table)
  /-- On the bytes of a segment no cut is inside a character, and the scan ends as the reader. -/
  scans : ∀ segment ∈ pieces '.' text.toList,
    scanSegment (utf8 segment) =
      some ((readSegment segment).map fun result => (utf8 result.1.toList, result.2))
  /-- A turn of the loop over the indexes takes bytes away or is the last. -/
  shrinks : ∀ bytes i rest, turn bytes = some (.ok (i, rest)) → rest.length < bytes.length

/-- Only the empty text has no segment to be at fault. -/
theorem read_eq_error {text : String} {error : NameError} (h : read text = .error error) :
    text = "" ∧ error = .emptyPath ∨
      text ≠ "" ∧ ∃ fault, error = .malformed text fault := by
  unfold read at h
  split at h
  · next hempty =>
      cases h
      exact .inl ⟨hempty, rfl⟩
  next hne =>
  split at h
  · next fault _ =>
      cases h
      exact .inr ⟨hne, fault, rfl⟩
  · next hsegments =>
      have hnil : pieces '.' text.toList = [] := by
        obtain ⟨spellings, hparts, hresults⟩ :=
          exists_spellings_of_readSegments not_mem_of_mem_pieces hsegments
        rw [← hparts, List.map_eq_nil_iff.1 hresults, List.map_nil]
      exact absurd hnil (pieces_ne_nil '.' text.toList)
  · cases h

theorem nameRef_ofText_of_error {text : String} {error : NameError}
    (h : read text = .error error) (table : Aliases) :
    (Aliases.nameRef (.ofText text)).run.run table =
      (.error (.invalid (.name error)), table) := by
  rw [NameRef.ofText, h]
  rfl

theorem reads_grammar (text : String) : ReadsGrammar text where
  accepts := by
    constructor
    · intro h
      obtain ⟨path, hread⟩ := h
      obtain ⟨spelling, htext, -⟩ := read_eq_ok_iff.1 hread
      exact ⟨spelling, htext⟩
    · intro h
      obtain ⟨spelling, rfl⟩ := h
      obtain ⟨path, hread, -⟩ := read_text spelling
      exact ⟨path, hread⟩
  steps spelling htext := by
    subst htext
    exact read_text spelling
  refuses hnone := by
    cases hread : read text with
    | ok path =>
        obtain ⟨spelling, htext, -⟩ := read_eq_ok_iff.1 hread
        exact absurd htext (hnone spelling)
    | error error =>
        exact ⟨error, rfl, read_eq_error hread, nameRef_ofText_of_error hread⟩
  scans segment _ := scanSegment_utf8 segment
  shrinks _ _ _ := length_lt_of_turn

end DynamoExpr.Path
