import DynamoExpr.Base64
import DynamoExpr.Proofs.Outcome

/-!
# Base64 both ways

Reading accepts exactly the texts that writing gives, and takes them back to their bytes.  Since a
text is read byte by byte, symbols are compared by their codes.
-/

namespace DynamoExpr.Base64

/-! ## Symbols -/

def code (value : Nat) : UInt8 := UInt8.ofNat (symbol value).toNat

theorem utf8EncodeChar_symbol :
    ∀ value < 64, String.utf8EncodeChar (symbol value) = [code value] := by
  decide +kernel

theorem value?_code : ∀ value < 64, value? (code value) = some value := by
  decide +kernel

theorem code_ne_padding : ∀ value < 64, code value ≠ padding := by
  decide +kernel

theorem eq_code_of_value? {byte : UInt8} {value : Nat} (h : value? byte = some value) :
    value < 64 ∧ byte = code value := by
  have hall : ∀ n < 256, ∀ value ∈ value? (UInt8.ofNat n),
      value < 64 ∧ UInt8.ofNat n = code value := by
    decide +kernel
  have hbyte := hall byte.toNat byte.toNat_lt value
  rw [UInt8.ofNat_toNat] at hbyte
  exact hbyte h

theorem valueAt_eq_ok_iff {byte : UInt8} {offset value : Nat} :
    valueAt byte offset = .ok value ↔ value < 64 ∧ byte = code value := by
  unfold valueAt
  constructor
  · intro h
    cases hvalue : value? byte with
    | none =>
        rw [hvalue] at h
        cases h
    | some found =>
        rw [hvalue] at h
        cases h
        exact eq_code_of_value? hvalue
  · intro h
    rw [h.2, value?_code value h.1]

/-! ## The bytes of an encoding -/

def encodeBytes (bytes : List UInt8) : List UInt8 :=
  (encodeChars bytes).flatMap String.utf8EncodeChar

theorem encodeBytes_one (a : UInt8) :
    encodeBytes [a] = [code (a.toNat / 4), code (a.toNat % 4 * 16), padding, padding] := by
  have ha := a.toNat_lt
  have hfirst : a.toNat * 16 / 64 = a.toNat / 4 := by omega
  have hsecond : a.toNat * 16 % 64 = a.toNat % 4 * 16 := by omega
  simp only [encodeBytes, encodeChars, List.flatMap_cons, List.flatMap_nil, hfirst, hsecond,
    utf8EncodeChar_symbol (a.toNat / 4) (by omega),
    utf8EncodeChar_symbol (a.toNat % 4 * 16) (by omega)]
  rfl

theorem encodeBytes_two (a b : UInt8) :
    encodeBytes [a, b] = [code (a.toNat / 4), code (a.toNat % 4 * 16 + b.toNat / 16),
      code (b.toNat % 16 * 4), padding] := by
  have ha := a.toNat_lt
  have hb := b.toNat_lt
  have hfirst : (a.toNat * 256 + b.toNat) * 4 / 4096 = a.toNat / 4 := by omega
  have hsecond : (a.toNat * 256 + b.toNat) * 4 / 64 % 64 = a.toNat % 4 * 16 + b.toNat / 16 := by
    omega
  have hthird : (a.toNat * 256 + b.toNat) * 4 % 64 = b.toNat % 16 * 4 := by omega
  simp only [encodeBytes, encodeChars, List.flatMap_cons, List.flatMap_nil, hfirst, hsecond, hthird,
    utf8EncodeChar_symbol (a.toNat / 4) (by omega),
    utf8EncodeChar_symbol (a.toNat % 4 * 16 + b.toNat / 16) (by omega),
    utf8EncodeChar_symbol (b.toNat % 16 * 4) (by omega)]
  rfl

theorem encodeBytes_three (a b c : UInt8) (rest : List UInt8) :
    encodeBytes (a :: b :: c :: rest) = code (a.toNat / 4)
      :: code (a.toNat % 4 * 16 + b.toNat / 16) :: code (b.toNat % 16 * 4 + c.toNat / 64)
      :: code (c.toNat % 64) :: encodeBytes rest := by
  have ha := a.toNat_lt
  have hb := b.toNat_lt
  have hc := c.toNat_lt
  have hfirst : ((a.toNat * 256 + b.toNat) * 256 + c.toNat) / 262144 = a.toNat / 4 := by omega
  have hsecond : ((a.toNat * 256 + b.toNat) * 256 + c.toNat) / 4096 % 64 =
      a.toNat % 4 * 16 + b.toNat / 16 := by omega
  have hthird : ((a.toNat * 256 + b.toNat) * 256 + c.toNat) / 64 % 64 =
      b.toNat % 16 * 4 + c.toNat / 64 := by omega
  have hfourth : ((a.toNat * 256 + b.toNat) * 256 + c.toNat) % 64 = c.toNat % 64 := by omega
  simp only [encodeBytes, encodeChars, List.flatMap_cons, hfirst, hsecond, hthird, hfourth,
    utf8EncodeChar_symbol (a.toNat / 4) (by omega),
    utf8EncodeChar_symbol (a.toNat % 4 * 16 + b.toNat / 16) (by omega),
    utf8EncodeChar_symbol (b.toNat % 16 * 4 + c.toNat / 64) (by omega),
    utf8EncodeChar_symbol (c.toNat % 64) (by omega)]
  rfl

/-- Every group of an encoding is full, that of the last bytes by padding. -/
theorem length_encodeBytes (bytes : List UInt8) :
    (encodeBytes bytes).length = (bytes.length + 2) / 3 * 4 := by
  induction bytes using encodeChars.induct with
  | case1 a b c rest ih =>
      rw [encodeBytes_three]
      simp only [List.length_cons, ih]
      omega
  | case2 a b => simp [encodeBytes_two]
  | case3 a => simp [encodeBytes_one]
  | case4 => rfl

/-! ## The last group -/

/-- Padding is read from the third place on, and counted. -/
theorem readLast_padding_eq_ok_iff {start index count : Nat} {place : Option Nat}
    {rest : List UInt8} {values : List Nat} :
    readLast start index place (padding :: rest) = .ok (values, count) ↔
      2 ≤ index ∧ ∃ n, count = n + 1 ∧
        readLast start (index + 1) (place.or (some index)) rest = .ok (values, n) := by
  change (if padding = padding then if index < 2 then _ else _ else _) = _ ↔ _
  rw [if_pos rfl]
  by_cases hindex : index < 2
  · rw [if_pos hindex]
    exact iff_of_false (fun h => by cases h) fun h => Nat.not_lt.2 h.1 hindex
  · rw [if_neg hindex, and_iff_right (Nat.not_lt.1 hindex), bind_eq_ok_iff]
    constructor
    · intro h
      rcases h with ⟨⟨found, n⟩, hread, h⟩
      cases h
      exact ⟨n, rfl, hread⟩
    · intro h
      rcases h with ⟨n, rfl, hread⟩
      exact ⟨(values, n), hread, rfl⟩

/-- Before any padding a symbol is read as its value. -/
theorem readLast_symbol_eq_ok_iff {start index count : Nat} {byte : UInt8} {rest : List UInt8}
    {values : List Nat} (hbyte : byte ≠ padding) :
    readLast start index none (byte :: rest) = .ok (values, count) ↔
      ∃ value more, values = value :: more ∧ value < 64 ∧ byte = code value ∧
        readLast start (index + 1) none rest = .ok (more, count) := by
  rw [readLast, if_neg hbyte]
  simp only [bind_eq_ok_iff, valueAt_eq_ok_iff]
  constructor
  · intro h
    rcases h with ⟨value, ⟨hvalue, hcode⟩, ⟨more, n⟩, hread, h⟩
    cases h
    exact ⟨value, more, rfl, hvalue, hcode, hread⟩
  · intro h
    rcases h with ⟨value, more, rfl, hvalue, hcode, hread⟩
    exact ⟨value, ⟨hvalue, hcode⟩, (more, count), hread, rfl⟩

/-- After the first padding there is nothing but padding. -/
theorem readLast_some_eq_ok_iff {start index place count : Nat} {group : List UInt8}
    {values : List Nat} (hindex : 2 ≤ index) :
    readLast start index (some place) group = .ok (values, count) ↔
      values = [] ∧ group = List.replicate count padding := by
  induction group generalizing index count with
  | nil =>
      constructor
      · intro h
        cases h
        exact ⟨rfl, rfl⟩
      · intro h
        rcases h with ⟨rfl, h⟩
        cases count with
        | zero => rfl
        | succ n => cases h
  | cons byte rest ih =>
      by_cases hbyte : byte = padding
      · subst hbyte
        rw [readLast_padding_eq_ok_iff, and_iff_right hindex]
        constructor
        · intro h
          rcases h with ⟨n, rfl, hread⟩
          obtain ⟨rfl, rfl⟩ := (ih (by omega)).1 hread
          exact ⟨rfl, rfl⟩
        · intro h
          rcases h with ⟨rfl, h⟩
          cases count with
          | zero => cases h
          | succ n => exact ⟨n, rfl, (ih (by omega)).2 ⟨rfl, (List.cons.inj h).2⟩⟩
      · rw [readLast, if_neg hbyte]
        constructor
        · intro h
          cases h
        · intro h
          cases count with
          | zero => cases h.2
          | succ n => exact absurd (List.cons.inj h.2).1 hbyte

/-- A last group is symbols and padding behind them, none of it in the first two places. -/
theorem readLast_none_eq_ok_iff {start index count : Nat} {group : List UInt8}
    {values : List Nat} :
    readLast start index none group = .ok (values, count) ↔
      group = values.map code ++ List.replicate count padding ∧ (∀ value ∈ values, value < 64) ∧
        (count ≠ 0 → 2 ≤ index + values.length) := by
  induction group generalizing index values with
  | nil =>
      constructor
      · intro h
        cases h
        simp
      · intro h
        obtain ⟨hvalues, hcount⟩ := List.append_eq_nil_iff.1 h.1.symm
        rw [List.map_eq_nil_iff.1 hvalues, (List.replicate_eq_nil_iff _).1 hcount]
        rfl
  | cons byte rest ih =>
      by_cases hbyte : byte = padding
      · subst hbyte
        rw [readLast_padding_eq_ok_iff]
        constructor
        · intro h
          rcases h with ⟨hindex, n, rfl, hread⟩
          obtain ⟨rfl, rfl⟩ := (readLast_some_eq_ok_iff (by omega)).1 hread
          exact ⟨rfl, List.forall_mem_nil _, fun _ => hindex⟩
        · intro h
          rcases h with ⟨hgroup, hvalues, hindex⟩
          cases values with
          | cons value more =>
              have hvalue := hvalues value List.mem_cons_self
              exact absurd (List.cons.inj hgroup).1.symm (code_ne_padding value hvalue)
          | nil =>
              cases count with
              | zero => cases hgroup
              | succ n =>
                  have htwo : 2 ≤ index := hindex (Nat.succ_ne_zero n)
                  exact ⟨htwo, n, rfl,
                    (readLast_some_eq_ok_iff (by omega)).2 ⟨rfl, (List.cons.inj hgroup).2⟩⟩
      · rw [readLast_symbol_eq_ok_iff hbyte]
        constructor
        · intro h
          rcases h with ⟨value, more, rfl, hvalue, rfl, hread⟩
          obtain ⟨rfl, hmore, hindex⟩ := ih.1 hread
          refine ⟨rfl, List.forall_mem_cons.2 ⟨hvalue, hmore⟩, fun hcount => ?_⟩
          have hlength := hindex hcount
          rw [List.length_cons]
          omega
        · intro h
          rcases h with ⟨hgroup, hvalues, hindex⟩
          cases values with
          | nil =>
              cases count with
              | zero => cases hgroup
              | succ n => exact absurd (List.cons.inj hgroup).1 hbyte
          | cons value more =>
              obtain ⟨hvalue, hmore⟩ := List.forall_mem_cons.1 hvalues
              obtain ⟨hhead, hrest⟩ := List.cons.inj hgroup
              refine ⟨value, more, rfl, hvalue, hhead, ih.2 ⟨hrest, hmore, fun hcount => ?_⟩⟩
              have hlength := hindex hcount
              rw [List.length_cons] at hlength
              omega

theorem lastBytes_two_eq_ok_iff {start first second : Nat} {group bytes : List UInt8}
    (hfirst : first < 64) (hsecond : second < 64) :
    lastBytes start group [first, second] = .ok bytes ↔
      ∃ a : UInt8, bytes = [a] ∧ first = a.toNat / 4 ∧ second = a.toNat % 4 * 16 := by
  simp only [lastBytes]
  constructor
  · intro h
    split at h
    case isTrue hbits =>
      cases h
      refine ⟨_, rfl, ?_⟩
      rw [UInt8.toNat_ofNat']
      omega
    case isFalse => cases h
  · intro h
    rcases h with ⟨a, rfl, ha, hb⟩
    have hbits : second % 16 = 0 := by omega
    have hbyte : (first * 64 + second) / 16 = a.toNat := by omega
    rw [if_pos hbits, hbyte, UInt8.ofNat_toNat]

theorem lastBytes_three_eq_ok_iff {start first second third : Nat} {group bytes : List UInt8}
    (hfirst : first < 64) (hsecond : second < 64) (hthird : third < 64) :
    lastBytes start group [first, second, third] = .ok bytes ↔
      ∃ a b : UInt8, bytes = [a, b] ∧ first = a.toNat / 4 ∧
        second = a.toNat % 4 * 16 + b.toNat / 16 ∧ third = b.toNat % 16 * 4 := by
  simp only [lastBytes]
  constructor
  · intro h
    split at h
    case isTrue hbits =>
      cases h
      refine ⟨_, _, rfl, ?_⟩
      rw [UInt8.toNat_ofNat', UInt8.toNat_ofNat']
      omega
    case isFalse => cases h
  · intro h
    rcases h with ⟨a, b, rfl, ha, hb, hc⟩
    have hbound := b.toNat_lt
    have hbits : third % 4 = 0 := by omega
    have hone : ((first * 64 + second) * 64 + third) / 4 / 256 = a.toNat := by omega
    have htwo : ((first * 64 + second) * 64 + third) / 4 % 256 = b.toNat := by omega
    rw [if_pos hbits, hone, htwo, UInt8.ofNat_toNat, UInt8.ofNat_toNat]

/-- Four symbols and three bytes determine each other. -/
theorem fullBytes_eq_iff {first second third fourth : Nat} {a b c : UInt8}
    (hfirst : first < 64) (hsecond : second < 64) (hthird : third < 64) (hfourth : fourth < 64) :
    (UInt8.ofNat ((((first * 64 + second) * 64 + third) * 64 + fourth) / 65536) = a ∧
      UInt8.ofNat ((((first * 64 + second) * 64 + third) * 64 + fourth) / 256 % 256) = b ∧
      UInt8.ofNat ((((first * 64 + second) * 64 + third) * 64 + fourth) % 256) = c) ↔
    first = a.toNat / 4 ∧ second = a.toNat % 4 * 16 + b.toNat / 16 ∧
      third = b.toNat % 16 * 4 + c.toNat / 64 ∧ fourth = c.toNat % 64 := by
  constructor
  · intro h
    rcases h with ⟨rfl, rfl, rfl⟩
    rw [UInt8.toNat_ofNat', UInt8.toNat_ofNat', UInt8.toNat_ofNat']
    omega
  · intro h
    rcases h with ⟨ha, hb, hc, hd⟩
    have hbound := b.toNat_lt
    have hbound' := c.toNat_lt
    have hone : (((first * 64 + second) * 64 + third) * 64 + fourth) / 65536 = a.toNat := by omega
    have htwo : (((first * 64 + second) * 64 + third) * 64 + fourth) / 256 % 256 = b.toNat := by
      omega
    have hthree : (((first * 64 + second) * 64 + third) * 64 + fourth) % 256 = c.toNat := by omega
    rw [hone, htwo, hthree]
    exact ⟨UInt8.ofNat_toNat, UInt8.ofNat_toNat, UInt8.ofNat_toNat⟩

/-- Two symbols or more that fill the group are read as the bytes they hold. -/
theorem decodeLast_of_readLast {start count : Nat} {group : List UInt8} {values : List Nat}
    (hread : readLast start 0 none group = .ok (values, count)) (htwo : 2 ≤ values.length)
    (hfull : values.length + count = 4) :
    decodeLast start group = lastBytes start group values := by
  have hlong : ¬ (group ≠ [] ∧ values.length < 2) := fun h => absurd h.2 (Nat.not_lt.2 htwo)
  have hgroups : ¬ (values.length + count) % 4 ≠ 0 := by omega
  unfold decodeLast
  rw [hread]
  change (if group ≠ [] ∧ values.length < 2 then _ else _) = _
  rw [if_neg hlong, if_neg hgroups]

theorem exists_readLast_of_decodeLast {start : Nat} {group bytes : List UInt8}
    (hlength : group.length ≤ 4) (h : decodeLast start group = .ok bytes) :
    (group = [] ∧ bytes = []) ∨
      ∃ values count, readLast start 0 none group = .ok (values, count) ∧ 2 ≤ values.length ∧
        values.length + count = 4 := by
  obtain ⟨⟨values, count⟩, hread, h⟩ := bind_eq_ok_iff.1 h
  obtain ⟨hgroup, -, -⟩ := readLast_none_eq_ok_iff.1 hread
  have hsum : group.length = values.length + count := by simp [hgroup]
  change (if group ≠ [] ∧ values.length < 2 then _ else
    if (values.length + count) % 4 ≠ 0 then _ else _) = _ at h
  split at h
  case isTrue => cases h
  case isFalse hlong =>
    split at h
    case isTrue => cases h
    case isFalse hgroups =>
      by_cases hempty : group = []
      · subst hempty
        cases hread
        cases h
        exact .inl ⟨rfl, rfl⟩
      · have htwo : 2 ≤ values.length := Nat.not_lt.1 fun hlt => hlong ⟨hempty, hlt⟩
        exact .inr ⟨values, count, hread, htwo, by omega⟩

theorem eq_encodeBytes_of_decodeLast {start : Nat} {group bytes : List UInt8}
    (hlength : group.length ≤ 4) (h : decodeLast start group = .ok bytes) :
    group = encodeBytes bytes := by
  rcases exists_readLast_of_decodeLast hlength h with ⟨rfl, rfl⟩ | ⟨values, count, hread, htwo, hfull⟩
  · rfl
  · rw [decodeLast_of_readLast hread htwo hfull] at h
    obtain ⟨hgroup, hvalues, -⟩ := readLast_none_eq_ok_iff.1 hread
    match values, htwo with
    | [first, second], _ =>
        obtain rfl : count = 2 := Nat.add_left_cancel hfull
        simp only [List.forall_mem_cons] at hvalues
        obtain ⟨a, rfl, rfl, rfl⟩ := (lastBytes_two_eq_ok_iff hvalues.1 hvalues.2.1).1 h
        rw [encodeBytes_one]
        exact hgroup
    | [first, second, third], _ =>
        obtain rfl : count = 1 := Nat.add_left_cancel hfull
        simp only [List.forall_mem_cons] at hvalues
        obtain ⟨a, b, rfl, rfl, rfl, rfl⟩ :=
          (lastBytes_three_eq_ok_iff hvalues.1 hvalues.2.1 hvalues.2.2.1).1 h
        rw [encodeBytes_two]
        exact hgroup
    | [first, second, third, fourth], _ =>
        obtain rfl : count = 0 := Nat.add_left_cancel hfull
        simp only [List.forall_mem_cons] at hvalues
        cases h
        obtain ⟨ha, hb, hc, hd⟩ := (fullBytes_eq_iff hvalues.1 hvalues.2.1 hvalues.2.2.1
          hvalues.2.2.2.1).1 ⟨rfl, rfl, rfl⟩
        rw [encodeBytes_three, ← ha, ← hb, ← hc, ← hd]
        exact hgroup
    | _ :: _ :: _ :: _ :: _ :: more, _ =>
        simp only [List.length_cons] at hfull
        omega

theorem decodeLast_encodeBytes (start : Nat) {bytes : List UInt8} (hlength : bytes.length ≤ 3) :
    decodeLast start (encodeBytes bytes) = .ok bytes := by
  match bytes, hlength with
  | [], _ => rfl
  | [a], _ =>
      have ha := a.toNat_lt
      have hread : readLast start 0 none (encodeBytes [a]) =
          .ok ([a.toNat / 4, a.toNat % 4 * 16], 2) := by
        refine readLast_none_eq_ok_iff.2 ⟨encodeBytes_one a, ?_, fun _ => Nat.le_refl 2⟩
        simp only [List.forall_mem_cons]
        exact ⟨by omega, by omega, List.forall_mem_nil _⟩
      rw [decodeLast_of_readLast hread (Nat.le_refl 2) rfl]
      exact (lastBytes_two_eq_ok_iff (by omega) (by omega)).2 ⟨a, rfl, rfl, rfl⟩
  | [a, b], _ =>
      have ha := a.toNat_lt
      have hb := b.toNat_lt
      have hread : readLast start 0 none (encodeBytes [a, b]) =
          .ok ([a.toNat / 4, a.toNat % 4 * 16 + b.toNat / 16, b.toNat % 16 * 4], 1) := by
        refine readLast_none_eq_ok_iff.2 ⟨encodeBytes_two a b, ?_, fun _ => by simp⟩
        simp only [List.forall_mem_cons]
        exact ⟨by omega, by omega, by omega, List.forall_mem_nil _⟩
      rw [decodeLast_of_readLast hread (by simp) rfl]
      exact (lastBytes_three_eq_ok_iff (by omega) (by omega) (by omega)).2
        ⟨a, b, rfl, rfl, rfl, rfl⟩
  | [a, b, c], _ =>
      have ha := a.toNat_lt
      have hb := b.toNat_lt
      have hc := c.toNat_lt
      have hread : readLast start 0 none (encodeBytes [a, b, c]) =
          .ok ([a.toNat / 4, a.toNat % 4 * 16 + b.toNat / 16, b.toNat % 16 * 4 + c.toNat / 64,
            c.toNat % 64], 0) := by
        refine readLast_none_eq_ok_iff.2 ⟨encodeBytes_three a b c [], ?_, fun h => absurd rfl h⟩
        simp only [List.forall_mem_cons]
        exact ⟨by omega, by omega, by omega, by omega, List.forall_mem_nil _⟩
      rw [decodeLast_of_readLast hread (by simp) rfl]
      obtain ⟨hone, htwo, hthree⟩ := (@fullBytes_eq_iff (a.toNat / 4)
        (a.toNat % 4 * 16 + b.toNat / 16) (b.toNat % 16 * 4 + c.toNat / 64) (c.toNat % 64) a b c
        (by omega) (by omega) (by omega) (by omega)).2 ⟨rfl, rfl, rfl, rfl⟩
      simp only [lastBytes, hone, htwo, hthree]
  | a :: b :: c :: d :: rest, hlength =>
      simp only [List.length_cons] at hlength
      omega

/-- The last group is read as the bytes whose encoding it is. -/
theorem decodeLast_eq_ok_iff {start : Nat} {group bytes : List UInt8} (hlength : group.length ≤ 4) :
    decodeLast start group = .ok bytes ↔ group = encodeBytes bytes := by
  constructor
  · exact eq_encodeBytes_of_decodeLast hlength
  · intro h
    subst h
    rw [length_encodeBytes] at hlength
    exact decodeLast_encodeBytes start (by omega)

/-! ## Whole texts -/

theorem decodeFrom_eq_ok_iff {start : Nat} {group bytes : List UInt8} :
    decodeFrom start group = .ok bytes ↔ group = encodeBytes bytes := by
  fun_induction decodeFrom start group generalizing bytes with
  | case1 start a b c d e rest ih =>
      simp only [bind_eq_ok_iff, valueAt_eq_ok_iff, ih]
      constructor
      · intro h
        rcases h with ⟨first, ⟨hfirst, rfl⟩, second, ⟨hsecond, rfl⟩, third, ⟨hthird, rfl⟩, fourth,
          ⟨hfourth, rfl⟩, more, hmore, h⟩
        cases h
        obtain ⟨ha, hb, hc, hd⟩ := (fullBytes_eq_iff hfirst hsecond hthird hfourth).1
          ⟨rfl, rfl, rfl⟩
        rw [encodeBytes_three, ← ha, ← hb, ← hc, ← hd, hmore]
      · intro h
        match bytes with
        | [] => cases h
        | [x] =>
            rw [encodeBytes_one] at h
            cases h
        | [x, y] =>
            rw [encodeBytes_two] at h
            cases h
        | x :: y :: z :: more =>
            have hx := x.toNat_lt
            have hy := y.toNat_lt
            have hz := z.toNat_lt
            rw [encodeBytes_three] at h
            simp only [List.cons.injEq] at h
            rcases h with ⟨rfl, rfl, rfl, rfl, hmore⟩
            obtain ⟨hone, htwo, hthree⟩ := (@fullBytes_eq_iff (x.toNat / 4)
              (x.toNat % 4 * 16 + y.toNat / 16) (y.toNat % 16 * 4 + z.toNat / 64) (z.toNat % 64)
              x y z (by omega) (by omega) (by omega) (by omega)).2 ⟨rfl, rfl, rfl, rfl⟩
            refine ⟨_, ⟨by omega, rfl⟩, _, ⟨by omega, rfl⟩, _, ⟨by omega, rfl⟩, _,
              ⟨by omega, rfl⟩, more, hmore, ?_⟩
            rw [hone, htwo, hthree]
  | case2 start group hshort =>
      -- A group of four is the last one too, since only it may have padding.
      apply decodeLast_eq_ok_iff
      match group, hshort with
      | [], _ | [_], _ | [_, _], _ | [_, _, _], _ | [_, _, _, _], _ => simp
      | a :: b :: c :: d :: e :: rest, hshort => exact absurd rfl (hshort a b c d e rest)

theorem strayEnd?_encodeBytes (bytes : List UInt8) : strayEnd? (encodeBytes bytes) = none := by
  have hfull : ¬ (encodeBytes bytes).length % 4 = 1 := by
    rw [length_encodeBytes]
    omega
  unfold strayEnd?
  cases (encodeBytes bytes).getLast? with
  | none => rfl
  | some byte => exact if_neg fun h => hfull h.1

/-- A text is known by its bytes. -/
theorem eq_encode_iff {text : String} {bytes : List UInt8} :
    text = encode bytes ↔ text.toList.flatMap String.utf8EncodeChar = encodeBytes bytes := by
  constructor
  · intro h
    rw [h, encode, String.toList_ofList]
    rfl
  · intro h
    rw [← String.ofList_toList (s := text), ← String.toByteArray_inj, encode,
      String.toByteArray_ofList, String.toByteArray_ofList]
    exact congrArg List.toByteArray h

/-- Exactly the encodings are read, each as the bytes it encodes. -/
theorem decode_eq_ok_iff {text : String} {bytes : List UInt8} :
    decode text = .ok bytes ↔ text = encode bytes := by
  rw [eq_encode_iff]
  simp only [decode]
  cases hstray : strayEnd? (text.toList.flatMap String.utf8EncodeChar) with
  | none => exact decodeFrom_eq_ok_iff
  | some fault =>
      constructor
      · intro h
        cases h
      · intro h
        rw [h, strayEnd?_encodeBytes] at hstray
        cases hstray

theorem encode_injective {first second : List UInt8} (h : encode first = encode second) :
    first = second := by
  have hread := decode_eq_ok_iff.2 h
  rw [decode_eq_ok_iff.2 rfl] at hread
  exact Except.ok.inj hread

end DynamoExpr.Base64
