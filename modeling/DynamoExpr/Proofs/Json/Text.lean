import Mathlib.Tactic.IntervalCases
import DynamoExpr.Json.Basic
import DynamoExpr.Json.Reader
import DynamoExpr.Proofs.Json.Unordered

/-!
# JSON text tells the value

A quoted string is read back by the reader.  So a value without numbers is known by its compact
text, also where more text follows: such values are written alike only if they are the same, with
their members in the same order.
-/

namespace DynamoExpr.Json

/-! ## Strings -/

theorem readChars_plain {c : Char} (hcontrol : ¬ c.toNat < 0x20) (hquote : c ≠ '"')
    (hslash : c ≠ '\\') (rest : List Char) :
    readChars (c :: rest) = (readChars rest).map fun found => (c :: found.1, found.2) := by
  have hnone : ¬ (c.toNat < 32 ∨ c = '\\') := not_or.2 ⟨hcontrol, hslash⟩
  rw [readChars.eq_5 c rest hquote (fun _ _ _ _ _ h _ => hslash h) (fun _ _ h _ => hslash h),
    if_neg hnone]
  cases readChars rest <;> rfl

theorem readChars_escaped {letter c : Char} (h : escaped? letter = some c) (hletter : letter ≠ 'u')
    (rest : List Char) :
    readChars ('\\' :: letter :: rest) =
      (readChars rest).map fun found => (c :: found.1, found.2) := by
  rw [readChars.eq_4 letter rest fun _ _ _ _ _ hu _ => hletter hu, h]
  cases readChars rest <;> rfl

theorem readChars_unit {a b : Char} {n : Nat} (h : hexQuad? '0' '0' a b = some n) (hn : n < 0x20)
    (rest : List Char) :
    readChars ('\\' :: 'u' :: '0' :: '0' :: a :: b :: rest) =
      (readChars rest).map fun found => (Char.ofNat n :: found.1, found.2) := by
  have hlow : isLowSurrogate n = false := by
    simp [isLowSurrogate]
    omega
  have hhigh : isHighSurrogate n = false := by
    simp [isHighSurrogate]
    omega
  simp only [readChars, h, Option.bind_eq_bind, Option.bind_some, hlow, hhigh, Bool.false_eq_true,
    if_false]
  cases readChars rest <;> rfl

/-- The two digits of a control character. -/
theorem exists_controlDigits {n : Nat} (h : n < 0x20) :
    ∃ a b, (if n < 0x10 then ['0'] else []) ++ Nat.toDigits 16 n = [a, b] ∧
      hexQuad? '0' '0' a b = some n := by
  interval_cases n <;> exact ⟨_, _, rfl, rfl⟩

/-- What is written for a character is read back as this character. -/
theorem readChars_escapeChar (c : Char) (rest : List Char) :
    readChars (escapeChar c ++ rest) =
      (readChars rest).map fun found => (c :: found.1, found.2) := by
  unfold escapeChar
  by_cases hquote : c = '"'
  · subst hquote
    exact readChars_escaped rfl (by decide) rest
  by_cases hslash : c = '\\'
  · subst hslash
    exact readChars_escaped rfl (by decide) rest
  by_cases hbackspace : c = '\x08'
  · subst hbackspace
    exact readChars_escaped rfl (by decide) rest
  by_cases hfeed : c = '\x0c'
  · subst hfeed
    exact readChars_escaped rfl (by decide) rest
  by_cases hline : c = '\n'
  · subst hline
    exact readChars_escaped rfl (by decide) rest
  by_cases hreturn : c = '\r'
  · subst hreturn
    exact readChars_escaped rfl (by decide) rest
  by_cases htab : c = '\t'
  · subst htab
    exact readChars_escaped rfl (by decide) rest
  rw [if_neg hquote, if_neg hslash, if_neg hbackspace, if_neg hfeed, if_neg hline,
    if_neg hreturn, if_neg htab]
  by_cases hcontrol : c.toNat < 0x20
  · obtain ⟨a, b, hdigits, hread⟩ := exists_controlDigits hcontrol
    have hunit := readChars_unit hread hcontrol rest
    rw [Char.ofNat_toNat] at hunit
    rw [if_pos hcontrol, List.append_assoc ['\\', 'u', '0', '0'], hdigits]
    exact hunit
  · rw [if_neg hcontrol]
    exact readChars_plain hcontrol hquote hslash rest

theorem readChars_quoted (chars rest : List Char) :
    readChars (chars.flatMap escapeChar ++ '"' :: rest) = some (chars, rest) := by
  induction chars with
  | nil => rfl
  | cons c more ih =>
      rw [List.flatMap_cons, List.append_assoc, readChars_escapeChar, ih]
      rfl

theorem toList_quoted (text : String) :
    (quoted text).toList = '"' :: (text.toList.flatMap escapeChar ++ ['"']) := by
  rw [quoted, String.toList_ofList]
  rfl

theorem quoted_determined {a b : String} {r s : List Char}
    (h : (quoted a).toList ++ r = (quoted b).toList ++ s) : a = b ∧ r = s := by
  simp only [toList_quoted, List.cons_append, List.append_assoc, List.nil_append,
    List.cons.injEq, true_and] at h
  have hread := readChars_quoted a.toList r
  rw [h, readChars_quoted] at hread
  simp only [Option.some.injEq, Prod.mk.injEq] at hread
  exact ⟨(String.toList_inj.1 hread.1).symm, hread.2.symm⟩

/-! ## Separated lists -/

section Separated

variable {α : Type} {text : α → List Char} {close : Char} {xs ys : List α} {r s : List Char}

/-- The texts of the items, each after a comma. -/
def afterCommas (text : α → List Char) (xs : List α) : List Char :=
  xs.flatMap fun x => ',' :: text x

theorem intercalate_cons (text : α → List Char) (x : α) (rest : List α) :
    [','].intercalate ((x :: rest).map text) = text x ++ afterCommas text rest := by
  induction rest generalizing x with
  | nil => simp [List.intercalate, afterCommas]
  | cons y rest ih =>
      rw [List.map_cons, List.map_cons, List.intercalate_cons_cons, ← List.map_cons, ih]
      simp [afterCommas]

theorem afterCommas_determined (hclose : close ≠ ',')
    (hitem : ∀ x ∈ xs, ∀ y ∈ ys, ∀ r s, text x ++ r = text y ++ s → x = y ∧ r = s)
    (h : afterCommas text xs ++ close :: r = afterCommas text ys ++ close :: s) :
    xs = ys ∧ r = s := by
  induction xs generalizing ys with
  | nil =>
      cases ys with
      | nil => exact ⟨rfl, (List.cons.inj h).2⟩
      | cons y more => exact absurd (List.cons.inj h).1 hclose
  | cons x rest ih =>
      cases ys with
      | nil => exact absurd (List.cons.inj h).1.symm hclose
      | cons y more =>
          simp only [afterCommas, List.flatMap_cons, List.cons_append, List.append_assoc,
            List.cons.injEq, true_and] at h
          obtain ⟨rfl, hrest⟩ := hitem x List.mem_cons_self y List.mem_cons_self _ _ h
          obtain ⟨rfl, hafter⟩ := ih (fun x hx y hy =>
            hitem x (List.mem_cons_of_mem _ hx) y (List.mem_cons_of_mem _ hy)) hrest
          exact ⟨rfl, hafter⟩

/-- Items that are told by their texts, none of which starts with the closing mark. -/
theorem separated_determined (hclose : close ≠ ',')
    (hitem : ∀ x ∈ xs, ∀ y ∈ ys, ∀ r s, text x ++ r = text y ++ s → x = y ∧ r = s)
    (hxs : ∀ x ∈ xs, ∀ r s, text x ++ r ≠ close :: s)
    (hys : ∀ y ∈ ys, ∀ r s, text y ++ r ≠ close :: s)
    (h : [','].intercalate (xs.map text) ++ close :: r =
      [','].intercalate (ys.map text) ++ close :: s) : xs = ys ∧ r = s := by
  cases xs with
  | nil =>
      cases ys with
      | nil => exact ⟨rfl, (List.cons.inj h).2⟩
      | cons y more =>
          rw [intercalate_cons, List.append_assoc] at h
          exact absurd h.symm (hys y List.mem_cons_self _ _)
  | cons x rest =>
      cases ys with
      | nil =>
          rw [intercalate_cons, List.append_assoc] at h
          exact absurd h (hxs x List.mem_cons_self _ _)
      | cons y more =>
          rw [intercalate_cons, intercalate_cons, List.append_assoc, List.append_assoc] at h
          obtain ⟨rfl, hrest⟩ := hitem x List.mem_cons_self y List.mem_cons_self _ _ h
          obtain ⟨rfl, hafter⟩ := afterCommas_determined hclose (fun x hx y hy =>
            hitem x (List.mem_cons_of_mem _ hx) y (List.mem_cons_of_mem _ hy)) hrest
          exact ⟨rfl, hafter⟩

end Separated

/-! ## Values -/

inductive Numberless : Json → Prop
  | null : Numberless .null
  | bool (value : Bool) : Numberless (.bool value)
  | str (value : String) : Numberless (.str value)
  | arr {items : List Json} (each : ∀ item ∈ items, Numberless item) : Numberless (.arr items)
  | obj {members : List (String × Json)} (each : ∀ member ∈ members, Numberless member.2) :
      Numberless (.obj members)

def chars (json : Json) : List Char := json.compact.toList

def memberChars (member : String × Json) : List Char :=
  (quoted member.1).toList ++ ':' :: member.2.chars

theorem chars_arr (items : List Json) :
    (Json.arr items).chars = '[' :: ([','].intercalate (items.map chars) ++ [']']) := by
  have hitems : ∀ items : List Json, (compactItems items).map String.toList = items.map chars := by
    intro items
    induction items with
    | nil => rfl
    | cons item rest ih => rw [compactItems, List.map_cons, List.map_cons, ih, chars]
  rw [chars, compact, String.toList_append, String.toList_append, String.toList_intercalate, hitems]
  rfl

theorem chars_obj (members : List (String × Json)) :
    (Json.obj members).chars =
      '\x7b' :: ([','].intercalate (members.map memberChars) ++ ['\x7d']) := by
  have hmembers : ∀ members : List (String × Json),
      (compactMembers members).map String.toList = members.map memberChars := by
    intro members
    induction members with
    | nil => rfl
    | cons member rest ih =>
        rw [compactMembers, List.map_cons, List.map_cons, ih, String.toList_append,
          String.toList_append, List.append_assoc]
        rfl
  rw [chars, compact, String.toList_append, String.toList_append, String.toList_intercalate,
    hmembers]
  rfl

def opening : Json → Char
  | .null => 'n'
  | .bool true => 't'
  | .bool false => 'f'
  | .num _ | .str _ => '"'
  | .arr _ => '['
  | .obj _ => '\x7b'

theorem exists_chars_eq {json : Json} (h : json.Numberless) :
    ∃ rest, json.chars = json.opening :: rest := by
  cases h with
  | null => exact ⟨_, rfl⟩
  | bool value => cases value <;> exact ⟨_, rfl⟩
  | str value => exact ⟨_, toList_quoted value⟩
  | arr each => exact ⟨_, chars_arr _⟩
  | obj each => exact ⟨_, chars_obj _⟩

theorem chars_append_ne {json : Json} (h : json.Numberless) (r s : List Char) :
    json.chars ++ r ≠ ']' :: s := by
  obtain ⟨rest, hchars⟩ := exists_chars_eq h
  rw [hchars]
  intro heq
  have hopening : json.opening = ']' := (List.cons.inj heq).1
  cases h with
  | bool value => cases value <;> exact absurd hopening (by decide)
  | null | str _ | arr _ | obj _ => exact absurd hopening (by simp [opening])

theorem memberChars_append_ne (member : String × Json) (r s : List Char) :
    memberChars member ++ r ≠ '\x7d' :: s := by
  rw [memberChars, toList_quoted]
  intro heq
  exact absurd (List.cons.inj heq).1 (by decide)

theorem opening_eq_of_chars_eq {j k : Json} (hj : j.Numberless) (hk : k.Numberless)
    {r s : List Char} (h : j.chars ++ r = k.chars ++ s) : j.opening = k.opening := by
  obtain ⟨first, hfirst⟩ := exists_chars_eq hj
  obtain ⟨second, hsecond⟩ := exists_chars_eq hk
  rw [hfirst, hsecond] at h
  exact (List.cons.inj h).1

/-- Where the texts of two values with rests are the same, the values are, and the rests. -/
theorem chars_determined {j k : Json} (hj : j.Numberless) (hk : k.Numberless) {r s : List Char}
    (h : j.chars ++ r = k.chars ++ s) : j = k ∧ r = s := by
  induction hj generalizing k r s with
  -- Values of two kinds differ in their first character, so `k` is of the kind of `j`.
  | null =>
      have hopening := opening_eq_of_chars_eq .null hk h
      cases hk with
      | null => exact ⟨rfl, List.append_cancel_left h⟩
      | bool value => cases value <;> exact absurd hopening (by decide)
      | str _ | arr _ | obj _ => exact absurd hopening (by simp [opening])
  | bool value =>
      have hopening := opening_eq_of_chars_eq (.bool value) hk h
      cases hk with
      | bool other =>
          have hvalue : value = other := by
            cases value <;> cases other <;> first | rfl | exact absurd hopening (by decide)
          subst hvalue
          exact ⟨rfl, List.append_cancel_left h⟩
      | null => cases value <;> exact absurd hopening (by decide)
      | str _ | arr _ | obj _ => cases value <;> exact absurd hopening (by simp [opening])
  | str value =>
      have hopening := opening_eq_of_chars_eq (.str value) hk h
      cases hk with
      | str other =>
          obtain ⟨rfl, hrest⟩ := quoted_determined h
          exact ⟨rfl, hrest⟩
      | bool value => cases value <;> exact absurd hopening (by simp [opening])
      | null | arr _ | obj _ => exact absurd hopening (by simp [opening])
  | @arr items each ih =>
      have hopening := opening_eq_of_chars_eq (.arr each) hk h
      cases hk with
      | @arr others heach =>
          simp only [chars_arr, List.cons_append, List.append_assoc, List.nil_append,
            List.cons.injEq, true_and] at h
          have hitem : ∀ x ∈ items, ∀ y ∈ others, ∀ r s, x.chars ++ r = y.chars ++ s →
              x = y ∧ r = s := fun x hx y hy r s heq => ih x hx (heach y hy) heq
          obtain ⟨rfl, hrest⟩ := separated_determined (by decide) hitem
            (fun x hx => chars_append_ne (each x hx)) (fun y hy => chars_append_ne (heach y hy)) h
          exact ⟨rfl, hrest⟩
      | bool value => cases value <;> exact absurd hopening (by simp [opening])
      | null | str _ | obj _ => exact absurd hopening (by simp [opening])
  | @obj members each ih =>
      have hopening := opening_eq_of_chars_eq (.obj each) hk h
      cases hk with
      | @obj others heach =>
          simp only [chars_obj, List.cons_append, List.append_assoc, List.nil_append,
            List.cons.injEq, true_and] at h
          have hmember : ∀ x ∈ members, ∀ y ∈ others, ∀ r s,
              memberChars x ++ r = memberChars y ++ s → x = y ∧ r = s := by
            intro x hx y hy r s heq
            simp only [memberChars, List.append_assoc, List.cons_append] at heq
            obtain ⟨hname, heq⟩ := quoted_determined heq
            have hpayload := (List.cons.inj heq).2
            obtain ⟨hvalue, hrest⟩ := ih x hx (heach y hy) hpayload
            exact ⟨Prod.ext hname hvalue, hrest⟩
          obtain ⟨rfl, hrest⟩ := separated_determined (by decide) hmember
            (fun x _ => memberChars_append_ne x) (fun y _ => memberChars_append_ne y) h
          exact ⟨rfl, hrest⟩
      | bool value => cases value <;> exact absurd hopening (by simp [opening])
      | null | str _ | arr _ => exact absurd hopening (by simp [opening])

/-- Values without numbers are written alike only if they are the same. -/
theorem compact_injective {j k : Json} (hj : j.Numberless) (hk : k.Numberless)
    (h : j.compact = k.compact) : j = k := by
  have hchars : j.chars ++ [] = k.chars ++ [] := by rw [chars, chars, h]
  exact (chars_determined hj hk hchars).1

end DynamoExpr.Json
