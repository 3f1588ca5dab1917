import DynamoExpr.Proofs.Path.Spelling

/-!
# Scanning the bytes of a segment

The text of a segment is UTF-8 and its parts are found at byte offsets.  A cut is refused inside a
character.  On the bytes of any text no cut is refused, and the scan gives what the reader gives.
-/

namespace DynamoExpr

/-! ## Bytes of characters -/

def utf8 (cs : List Char) : List UInt8 := cs.flatMap String.utf8EncodeChar

def asciiByte (mark : Char) : UInt8 := UInt8.ofNat mark.toNat

theorem utf8_append (cs ds : List Char) : utf8 (cs ++ ds) = utf8 cs ++ utf8 ds :=
  List.flatMap_append

theorem utf8EncodeChar_ascii {c : Char} (h : c.toNat < 128) :
    String.utf8EncodeChar c = [asciiByte c] := by
  have hle : c.val.toNat ≤ 127 := Nat.le_of_lt_succ h
  dsimp only [String.utf8EncodeChar]
  rw [if_pos hle]
  rfl

theorem le_of_mem_utf8EncodeChar {c : Char} (h : 128 ≤ c.toNat) {b : UInt8}
    (hb : b ∈ String.utf8EncodeChar c) : 128 ≤ b.toNat := by
  have hgt : ¬ c.val.toNat ≤ 127 := Nat.not_le_of_gt h
  dsimp only [String.utf8EncodeChar] at hb
  rw [if_neg hgt] at hb
  split at hb
  · simp only [List.mem_cons, List.not_mem_nil, or_false] at hb
    rcases hb with rfl | rfl <;> simp only [UInt8.toNat_ofNat'] <;> omega
  split at hb
  · simp only [List.mem_cons, List.not_mem_nil, or_false] at hb
    rcases hb with rfl | rfl | rfl <;> simp only [UInt8.toNat_ofNat'] <;> omega
  · simp only [List.mem_cons, List.not_mem_nil, or_false] at hb
    rcases hb with rfl | rfl | rfl | rfl <;> simp only [UInt8.toNat_ofNat'] <;> omega

/-- An ASCII byte stands for its character and is no part of another. -/
theorem asciiByte_mem_utf8EncodeChar {mark c : Char} (hmark : mark.toNat < 128) :
    asciiByte mark ∈ String.utf8EncodeChar c ↔ mark = c := by
  have hbyte : (asciiByte mark).toNat = mark.toNat := Nat.mod_eq_of_lt (by omega)
  by_cases hc : c.toNat < 128
  · have hbyte' : (asciiByte c).toNat = c.toNat := Nat.mod_eq_of_lt (by omega)
    rw [utf8EncodeChar_ascii hc, List.mem_singleton, ← UInt8.toNat_inj, hbyte, hbyte',
      Char.toNat_inj]
  · constructor
    · intro h
      have hle := le_of_mem_utf8EncodeChar (Nat.le_of_not_lt hc) h
      omega
    · rintro rfl
      exact absurd hmark hc

theorem asciiByte_mem_utf8 {mark : Char} (hmark : mark.toNat < 128) {cs : List Char} :
    asciiByte mark ∈ utf8 cs ↔ mark ∈ cs := by
  simp only [utf8, List.mem_flatMap, asciiByte_mem_utf8EncodeChar hmark, exists_eq_right']

theorem utf8_cons_ascii {mark : Char} (hmark : mark.toNat < 128) (cs : List Char) :
    utf8 (mark :: cs) = asciiByte mark :: utf8 cs := by
  rw [utf8, List.flatMap_cons, utf8EncodeChar_ascii hmark, List.singleton_append, utf8]

/-- The bytes of characters start with a first byte. -/
theorem exists_utf8_cons (c : Char) (cs : List Char) :
    ∃ first rest, utf8 (c :: cs) = first :: rest ∧ first ∈ String.utf8EncodeChar c ∧
      first.IsUTF8FirstByte := by
  obtain ⟨first, rest, hbytes⟩ := List.exists_cons_of_ne_nil (String.utf8EncodeChar_ne_nil (c := c))
  refine ⟨first, rest ++ utf8 cs, ?_, ?_, ?_⟩
  · rw [utf8, List.flatMap_cons, hbytes, List.cons_append, utf8]
  · rw [hbytes]
    exact List.mem_cons_self
  · have hfirst := UInt8.isUTF8FirstByte_getElem_zero_utf8EncodeChar (c := c)
    simpa only [hbytes, List.getElem_cons_zero] using hfirst

theorem utf8_eq_nil_iff {cs : List Char} : utf8 cs = [] ↔ cs = [] := by
  cases cs with
  | nil => exact ⟨fun _ => rfl, fun _ => rfl⟩
  | cons c rest =>
      obtain ⟨first, bytes, hbytes, -⟩ := exists_utf8_cons c rest
      simp [hbytes]

namespace Path.Bytes

/-! ## The scan -/

/-- Cuts bytes in two at an offset, but not past the end and not inside a character. -/
def cut? (bytes : List UInt8) (offset : Nat) : Option (List UInt8 × List UInt8) :=
  if offset = bytes.length ∨ ∃ first ∈ bytes[offset]?, first.IsUTF8FirstByte then
    some (bytes.take offset, bytes.drop offset)
  else none

def isDigit (b : UInt8) : Bool := asciiByte '0' ≤ b && b ≤ asciiByte '9'

def digitsValue (digits : List UInt8) : Nat :=
  digits.foldl (fun value digit => 10 * value + (digit.toNat - (asciiByte '0').toNat)) 0

def scanIndex (digits : List UInt8) : Except PathFault Nat :=
  if digits = [] ∨ ¬ digits.all isDigit then .error .indexDigits
  else if digitsValue digits < indexLimit then .ok (digitsValue digits)
  else .error .indexRange

/-- One turn of the loop over the indexes: the index in front and what is left after it. -/
def turn : List UInt8 → Option (Except PathFault (Nat × List UInt8))
  | [] => some (.error .afterIndex)
  | b :: inner =>
    if b ≠ asciiByte '[' then some (.error .afterIndex)
    else
      match inner.idxOf? (asciiByte ']') with
      | none => some (.error .unclosed)
      | some close => do
        let (digits, _) ← cut? inner close
        match scanIndex digits with
        | .error fault => some (.error fault)
        | .ok i => do
          let (_, rest) ← cut? inner (close + 1)
          some (.ok (i, rest))

theorem of_cut?_eq_some {bytes left right : List UInt8} {offset : Nat}
    (h : cut? bytes offset = some (left, right)) :
    left = bytes.take offset ∧ right = bytes.drop offset := by
  unfold cut? at h
  split at h
  · cases h
    exact ⟨rfl, rfl⟩
  · cases h

/-- A turn that goes on leaves fewer bytes. -/
theorem length_lt_of_turn {bytes rest : List UInt8} {i : Nat}
    (h : turn bytes = some (.ok (i, rest))) : rest.length < bytes.length := by
  cases bytes with
  | nil => cases h
  | cons b inner =>
      dsimp only [turn] at h
      split at h
      · cases h
      split at h
      · cases h
      next close _ =>
      obtain ⟨⟨digits, _⟩, -, h⟩ := Option.bind_eq_some_iff.1 h
      dsimp only at h
      split at h
      · cases h
      obtain ⟨⟨_, after⟩, hcut, h⟩ := Option.bind_eq_some_iff.1 h
      cases h
      rw [(of_cut?_eq_some hcut).2]
      exact Nat.lt_succ_of_le (List.drop_sublist _ inner).length_le

/-- The loop over the indexes of a segment. -/
def scanIndexes (bytes : List UInt8) : Option (Except PathFault (List Nat)) :=
  if bytes = [] then some (.ok [])
  else
    match _h : turn bytes with
    | none => none
    | some (.error fault) => some (.error fault)
    | some (.ok (i, rest)) => (scanIndexes rest).map fun outcome => outcome.map (i :: ·)
termination_by bytes.length
decreasing_by exact length_lt_of_turn _h

def scanSegment (segment : List UInt8) : Option (Except PathFault (List UInt8 × List Nat)) := do
  let (name, rest) ← cut? segment ((segment.idxOf? (asciiByte '[')).getD segment.length)
  if name = [] then some (.error .emptyName)
  else if asciiByte ']' ∈ name then some (.error .strayClose)
  else (scanIndexes rest).map fun outcome => outcome.map fun indexes => (name, indexes)

/-! ## The scan of characters -/

/-- Bytes are cut between the characters. -/
theorem cut?_utf8 (cs ds : List Char) :
    cut? (utf8 cs ++ utf8 ds) (utf8 cs).length = some (utf8 cs, utf8 ds) := by
  unfold cut?
  rw [if_pos, List.take_left, List.drop_left]
  cases ds with
  | nil =>
      left
      rw [List.length_append]
      rfl
  | cons d rest =>
      right
      obtain ⟨first, bytes, hbytes, -, hfirst⟩ := exists_utf8_cons d rest
      refine ⟨first, ?_, hfirst⟩
      rw [hbytes, List.getElem?_append_right (Nat.le_refl _), Nat.sub_self]
      rfl

theorem idxOf?_append_cons {b : UInt8} {bytes : List UInt8} (h : b ∉ bytes) (rest : List UInt8) :
    (bytes ++ b :: rest).idxOf? b = some bytes.length := by
  induction bytes with
  | nil =>
      rw [List.nil_append, List.idxOf?_cons, if_pos (beq_self_eq_true b)]
      rfl
  | cons first bytes ih =>
      rw [List.mem_cons, not_or] at h
      rw [List.cons_append, List.idxOf?_cons, if_neg (by simpa using Ne.symm h.1), ih h.2]
      rfl

theorem utf8_eq_map {cs : List Char} (h : ∀ c ∈ cs, c.toNat < 128) :
    utf8 cs = cs.map asciiByte := by
  induction cs with
  | nil => rfl
  | cons c rest ih =>
      rw [List.forall_mem_cons] at h
      rw [utf8_cons_ascii h.1, ih h.2, List.map_cons]

theorem toNat_asciiByte {c : Char} (h : c.toNat < 128) : (asciiByte c).toNat = c.toNat :=
  Nat.mod_eq_of_lt (by omega)

theorem isDigit_asciiByte {c : Char} (h : c.toNat < 128) : isDigit (asciiByte c) = c.isDigit := by
  rw [Bool.eq_iff_iff, Char.isDigit_iff_toNat]
  simp only [isDigit, Bool.and_eq_true, decide_eq_true_eq, UInt8.le_iff_toNat_le,
    toNat_asciiByte h]
  rfl

theorem toNat_lt_of_isDigit {c : Char} (h : c.isDigit = true) : c.toNat < 128 := by
  have hle : c.toNat ≤ 57 := (Char.isDigit_iff_toNat.1 h).2
  omega

theorem all_isDigit_utf8 (cs : List Char) : (utf8 cs).all isDigit = cs.all Char.isDigit := by
  induction cs with
  | nil => rfl
  | cons c rest ih =>
      by_cases hc : c.toNat < 128
      · rw [utf8_cons_ascii hc, List.all_cons, List.all_cons, isDigit_asciiByte hc, ih]
      · have hchar : c.isDigit = false := by
          rw [Bool.eq_false_iff]
          exact fun h => hc (toNat_lt_of_isDigit h)
        obtain ⟨first, bytes, hbytes, hmem, -⟩ := exists_utf8_cons c rest
        have hfirst : isDigit first = false := by
          have hle := le_of_mem_utf8EncodeChar (Nat.le_of_not_lt hc) hmem
          rw [isDigit, Bool.and_eq_false_iff]
          right
          rw [decide_eq_false_iff_not, UInt8.le_iff_toNat_le]
          change ¬ first.toNat ≤ 57
          omega
        rw [hbytes, List.all_cons, List.all_cons, hfirst, hchar, Bool.false_and, Bool.false_and]

theorem digitsValue_utf8 {digits : List Char} (h : ∀ c ∈ digits, c.isDigit = true) :
    digitsValue (utf8 digits) = Numeral.digitsValue digits := by
  have hascii : ∀ c ∈ digits, c.toNat < 128 := fun c hc => toNat_lt_of_isDigit (h c hc)
  rw [utf8_eq_map hascii, digitsValue, List.foldl_map, Numeral.digitsValue]
  refine List.foldl_ext _ _ _ fun value c hc => ?_
  rw [toNat_asciiByte (hascii c hc)]
  rfl

theorem scanIndex_utf8 (digits : List Char) : scanIndex (utf8 digits) = readIndex digits := by
  have hsame : (utf8 digits = [] ∨ ¬ (utf8 digits).all isDigit) ↔
      (digits = [] ∨ ¬ digits.all Char.isDigit) := by
    rw [utf8_eq_nil_iff, all_isDigit_utf8]
  by_cases h : digits = [] ∨ ¬ digits.all Char.isDigit
  · rw [scanIndex, readIndex, if_pos h, if_pos (hsame.2 h)]
  · have hdecimal : ∀ c ∈ digits, c.isDigit = true := by
      rw [not_or, not_not, List.all_eq_true] at h
      exact h.2
    rw [scanIndex, readIndex, if_neg h, if_neg (mt hsame.1 h), digitsValue_utf8 hdecimal]

/-! ## Turns -/

theorem turn_utf8_of_ne {c : Char} (h : c ≠ '[') (rest : List Char) :
    turn (utf8 (c :: rest)) = some (.error .afterIndex) := by
  obtain ⟨first, bytes, hbytes, hmem, -⟩ := exists_utf8_cons c rest
  rw [hbytes, turn, if_pos]
  rintro rfl
  exact h ((asciiByte_mem_utf8EncodeChar (by decide)).1 hmem).symm

theorem turn_utf8_unclosed {inner : List Char} (h : ']' ∉ inner) :
    turn (utf8 ('[' :: inner)) = some (.error .unclosed) := by
  have hbyte : (utf8 inner).idxOf? (asciiByte ']') = none :=
    List.idxOf?_eq_none_iff.2 fun hmem => h ((asciiByte_mem_utf8 (by decide)).1 hmem)
  rw [utf8_cons_ascii (by decide), turn, if_neg (not_not.2 rfl), hbyte]

/-- Both cuts of a turn are between characters. -/
theorem turn_utf8_closed {digits : List Char} (h : ']' ∉ digits) (rest : List Char) :
    turn (utf8 ('[' :: (digits ++ ']' :: rest))) =
      some ((readIndex digits).map fun i => (i, utf8 rest)) := by
  have hbytes : utf8 (digits ++ ']' :: rest) = utf8 digits ++ asciiByte ']' :: utf8 rest := by
    rw [utf8_append, utf8_cons_ascii (by decide)]
  have hclose : (utf8 (digits ++ ']' :: rest)).idxOf? (asciiByte ']') =
      some (utf8 digits).length := by
    rw [hbytes]
    exact idxOf?_append_cons (fun hmem => h ((asciiByte_mem_utf8 (by decide)).1 hmem)) _
  have hdigits : cut? (utf8 (digits ++ ']' :: rest)) (utf8 digits).length =
      some (utf8 digits, utf8 (']' :: rest)) := by
    rw [utf8_append]
    exact cut?_utf8 digits (']' :: rest)
  have hrest : cut? (utf8 (digits ++ ']' :: rest)) ((utf8 digits).length + 1) =
      some (utf8 (digits ++ [']']), utf8 rest) := by
    have hlength : (utf8 digits).length + 1 = (utf8 (digits ++ [']'])).length := by
      rw [utf8_append, List.length_append]
      rfl
    rw [hlength, ← List.singleton_append, ← List.append_assoc, utf8_append]
    exact cut?_utf8 (digits ++ [']']) rest
  rw [utf8_cons_ascii (by decide), turn, if_neg (not_not.2 rfl), hclose]
  dsimp only
  rw [hdigits, Option.bind_eq_bind, Option.bind_some, scanIndex_utf8]
  cases readIndex digits with
  | error fault => rfl
  | ok i =>
      dsimp only
      rw [hrest]
      rfl

/-! ## The loop and the segment -/

theorem scanIndexes_of_turn_error {bytes : List UInt8} (hne : bytes ≠ []) {fault : PathFault}
    (h : turn bytes = some (.error fault)) : scanIndexes bytes = some (.error fault) := by
  rw [scanIndexes, if_neg hne]
  split
  · next hnone => cases hnone.symm.trans h
  · next hfault => cases hfault.symm.trans h; rfl
  · next hgo => cases hgo.symm.trans h

theorem scanIndexes_of_turn_ok {bytes : List UInt8} (hne : bytes ≠ []) {i : Nat}
    {rest : List UInt8} (h : turn bytes = some (.ok (i, rest))) :
    scanIndexes bytes = (scanIndexes rest).map fun outcome => outcome.map (i :: ·) := by
  rw [scanIndexes, if_neg hne]
  split
  · next hnone => cases hnone.symm.trans h
  · next hfault => cases hfault.symm.trans h
  · next hgo => cases hgo.symm.trans h; rfl

theorem readIndexes_pieces_of_ne {c : Char} (h : c ≠ '[') (rest : List Char) :
    readIndexes (pieces ']' (c :: rest)) = .error .afterIndex := by
  obtain ⟨piece, more, hpieces⟩ :=
    List.exists_cons_of_ne_nil (pieces_ne_nil ']' rest)
  by_cases hclose : c = ']'
  · rw [pieces, if_pos hclose, hpieces]
    rfl
  · rw [pieces_cons_of_ne hclose hpieces]
    cases more with
    | nil => simp [readIndexes]
    | cons => simp [readIndexes, h]

/--
One turn on the bytes of characters, beside the reader: both find the same fault, or the same index
in front of fewer characters.
-/
theorem turn_utf8 (c : Char) (inner : List Char) :
    (∃ fault, turn (utf8 (c :: inner)) = some (.error fault) ∧
      readIndexes (pieces ']' (c :: inner)) = .error fault) ∨
    ∃ i rest, turn (utf8 (c :: inner)) = some (.ok (i, utf8 rest)) ∧
      rest.length < (c :: inner).length ∧
      readIndexes (pieces ']' (c :: inner)) =
        (readIndexes (pieces ']' rest)).map (i :: ·) := by
  by_cases hopen : c = '['
  · subst hopen
    by_cases hclose : ']' ∈ inner
    · obtain ⟨digits, rest, rfl, hdigits⟩ := List.eq_append_cons_of_mem hclose
      have hturn := turn_utf8_closed hdigits rest
      have hpieces : pieces ']' ('[' :: (digits ++ ']' :: rest)) =
          ('[' :: digits) :: pieces ']' rest :=
        pieces_append_cons (List.not_mem_cons_of_ne_of_not_mem (by decide) hdigits) rest
      rw [hturn, hpieces, readIndexes_bracket (pieces_ne_nil ']' rest)]
      cases readIndex digits with
      | error fault => exact .inl ⟨fault, rfl, rfl⟩
      | ok i =>
          refine .inr ⟨i, rest, rfl, ?_, ?_⟩
          · rw [List.length_cons, List.length_append, List.length_cons]
            omega
          · cases readIndexes (pieces ']' rest) <;> rfl
    · have hpieces : pieces ']' ('[' :: inner) = ['[' :: inner] :=
        pieces_of_not_mem (List.not_mem_cons_of_ne_of_not_mem (by decide) hclose)
      refine .inl ⟨.unclosed, turn_utf8_unclosed hclose, ?_⟩
      rw [hpieces]
      rfl
  · exact .inl ⟨.afterIndex, turn_utf8_of_ne hopen inner, readIndexes_pieces_of_ne hopen inner⟩

/-- The loop ends on the bytes of any characters, with what the reader gives. -/
theorem scanIndexes_utf8 (cs : List Char) :
    scanIndexes (utf8 cs) = some (readIndexes (pieces ']' cs)) := by
  -- Every turn that goes on leaves fewer characters.
  induction hlength : cs.length using Nat.strongRecOn generalizing cs with
  | ind n ih =>
      cases cs with
      | nil =>
          rw [scanIndexes]
          rfl
      | cons c inner =>
          have hne : utf8 (c :: inner) ≠ [] := mt utf8_eq_nil_iff.1 (List.cons_ne_nil _ _)
          rcases turn_utf8 c inner with ⟨fault, hturn, hread⟩ | ⟨i, rest, hturn, hlt, hread⟩
          · rw [scanIndexes_of_turn_error hne hturn, hread]
          · rw [hlength] at hlt
            rw [scanIndexes_of_turn_ok hne hturn, ih _ hlt rest rfl, hread, Option.map_some]

/-- The name of a segment and what follows it are cut between characters. -/
theorem cut?_utf8_name (segment : List Char) :
    cut? (utf8 segment)
        (((utf8 segment).idxOf? (asciiByte '[')).getD (utf8 segment).length) =
      some (utf8 (segment.takeWhile (· != '[')), utf8 (segment.dropWhile (· != '['))) := by
  by_cases hopen : '[' ∈ segment
  · obtain ⟨name, rest, rfl, hname⟩ := List.eq_append_cons_of_mem hopen
    have hplain : ∀ c ∈ name, (c != '[') = true := by
      intro c hc
      rw [bne_iff_ne]
      rintro rfl
      exact hname hc
    have hbyte : asciiByte '[' ∉ utf8 name := fun h =>
      hname ((asciiByte_mem_utf8 (by decide)).1 h)
    have hfind : (utf8 (name ++ '[' :: rest)).idxOf? (asciiByte '[') =
        some (utf8 name).length := by
      rw [utf8_append, utf8_cons_ascii (by decide)]
      exact idxOf?_append_cons hbyte _
    rw [hfind, Option.getD_some, List.takeWhile_append_of_pos hplain,
      List.dropWhile_append_of_pos hplain, utf8_append, cut?_utf8]
    simp
  · have hplain : ∀ c ∈ segment, (c != '[') = true := by
      intro c hc
      rw [bne_iff_ne]
      rintro rfl
      exact hopen hc
    have hfind : (utf8 segment).idxOf? (asciiByte '[') = none :=
      List.idxOf?_eq_none_iff.2 fun h => hopen ((asciiByte_mem_utf8 (by decide)).1 h)
    have hcut := cut?_utf8 segment []
    rw [← utf8_append, List.append_nil] at hcut
    rw [hfind, Option.getD_none, hcut, List.takeWhile_eq_self_iff.2 hplain,
      List.dropWhile_eq_nil_iff.2 hplain]

/-- No cut is refused on the bytes of a segment, and the scan gives what the reader gives. -/
theorem scanSegment_utf8 (segment : List Char) :
    scanSegment (utf8 segment) =
      some ((readSegment segment).map fun result => (utf8 result.1.toList, result.2)) := by
  have hempty : utf8 (segment.takeWhile (· != '[')) = [] ↔ segment.takeWhile (· != '[') = [] :=
    utf8_eq_nil_iff
  have hclose : asciiByte ']' ∈ utf8 (segment.takeWhile (· != '[')) ↔
      ']' ∈ segment.takeWhile (· != '[') := asciiByte_mem_utf8 (by decide)
  rw [scanSegment, cut?_utf8_name, Option.bind_eq_bind, Option.bind_some]
  dsimp only [readSegment]
  by_cases hname : segment.takeWhile (· != '[') = []
  · rw [if_pos hname, if_pos (hempty.2 hname)]
    rfl
  rw [if_neg hname, if_neg (mt hempty.1 hname)]
  by_cases hstray : ']' ∈ segment.takeWhile (· != '[')
  · rw [if_pos hstray, if_pos (hclose.2 hstray)]
    rfl
  rw [if_neg hstray, if_neg (mt hclose.1 hstray), scanIndexes_utf8, Option.map_some]
  cases readIndexes (pieces ']' (segment.dropWhile (· != '['))) with
  | error fault => rfl
  | ok indexes =>
      change some (Except.ok (_, indexes)) = some (.ok (utf8 (String.ofList _).toList, indexes))
      rw [String.toList_ofList]

end Path.Bytes

end DynamoExpr
