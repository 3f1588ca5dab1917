import DynamoExpr.Alias.Table

/-!
# Numbers on a lane

A lane only grows at its end, so the number of an entry never changes.  The numbers of any items,
read in the order in which they are entered, appear for the first time in ascending order and
without a gap.
-/

namespace DynamoExpr.Lane

variable {α : Type} [BEq α]

/-- The place of the first entry that equals `x`, or the length where there is none. -/
def place (x : α) (lane : List α) : Nat := lane.findIdx (· == x)

def Holds (x : α) (lane : List α) : Prop := ∃ y ∈ lane, (y == x) = true

def enterAll (lane : List α) (items : List α) : List α :=
  items.foldl (fun lane x => (enter x lane).2) lane

theorem place_lt_iff {x : α} {lane : List α} : place x lane < lane.length ↔ Holds x lane := by
  simp only [place, List.findIdx_lt_length, Holds]

theorem place_append (x : α) (lane rest : List α) :
    place x (lane ++ rest) =
      if place x lane < lane.length then place x lane else place x rest + lane.length :=
  List.findIdx_append

theorem number?_of_holds {x : α} {lane : List α} (h : Holds x lane) :
    number? x lane = some (place x lane) :=
  List.findIdx?_eq_some_iff_findIdx_eq.2 ⟨place_lt_iff.2 h, rfl⟩

theorem number?_of_not_holds {x : α} {lane : List α} (h : ¬ Holds x lane) :
    number? x lane = none := by
  rw [number?, List.findIdx?_eq_none_iff]
  intro y hy
  exact Bool.eq_false_iff.2 fun heq => h ⟨y, hy, heq⟩

/-- What stands at the place of an entry equals it. -/
theorem getElem?_place {x : α} {lane : List α} (h : Holds x lane) :
    ∃ y, lane[place x lane]? = some y ∧ (y == x) = true := by
  have hlt := place_lt_iff.2 h
  exact ⟨lane[place x lane], List.getElem?_eq_getElem hlt, List.findIdx_getElem (w := hlt)⟩

theorem Holds.of_extension {x : α} {lane later : List α} (h : Holds x lane) (hp : lane <+: later) :
    Holds x later := by
  rcases h with ⟨y, hy, heq⟩
  exact ⟨y, hp.subset hy, heq⟩

theorem place_of_extension {x : α} {lane later : List α} (h : Holds x lane) (hp : lane <+: later) :
    place x later = place x lane := by
  rcases hp with ⟨rest, rfl⟩
  rw [place_append, if_pos (place_lt_iff.2 h)]

theorem enter_of_holds {x : α} {lane : List α} (h : Holds x lane) :
    enter x lane = (place x lane, lane) := by
  unfold enter
  rw [number?_of_holds h]

theorem enter_of_not_holds {x : α} {lane : List α} (h : ¬ Holds x lane) :
    enter x lane = (lane.length, lane ++ [x]) := by
  unfold enter
  rw [number?_of_not_holds h]

/-- A change of the entries that keeps equality changes no number. -/
theorem number?_map {β : Type} [BEq β] {f : α → β} (hf : ∀ x y, (f x == f y) = (x == y)) (x : α)
    (lane : List α) : number? (f x) (lane.map f) = number? x lane := by
  have hsame : ((fun y => y == f x) ∘ f) = fun y => y == x := by
    funext y
    exact hf y x
  unfold number?
  rw [List.findIdx?_map, hsame]

theorem enter_map {β : Type} [BEq β] {f : α → β} (hf : ∀ x y, (f x == f y) = (x == y)) (x : α)
    (lane : List α) :
    enter (f x) (lane.map f) = ((enter x lane).1, (enter x lane).2.map f) := by
  unfold enter
  rw [number?_map hf]
  cases number? x lane with
  | some i => rfl
  | none => simp

theorem prefix_enter (x : α) (lane : List α) : lane <+: (enter x lane).2 := by
  by_cases h : Holds x lane
  · exact ⟨[], by rw [enter_of_holds h, List.append_nil]⟩
  · rw [enter_of_not_holds h]
    exact List.prefix_append lane [x]

theorem enterAll_cons (lane : List α) (x : α) (rest : List α) :
    enterAll lane (x :: rest) = enterAll (enter x lane).2 rest := rfl

theorem prefix_enterAll (lane items : List α) : lane <+: enterAll lane items := by
  induction items generalizing lane with
  | nil => exact List.prefix_refl lane
  | cons x rest ih => exact (prefix_enter x lane).trans (ih (enter x lane).2)

def Separate (lane : List α) : Prop := lane.Pairwise fun x y => (x == y) = false

theorem separate_enter (x : α) {lane : List α} (h : Separate lane) :
    Separate (enter x lane).2 := by
  by_cases hx : Holds x lane
  · rw [enter_of_holds hx]
    exact h
  · rw [enter_of_not_holds hx]
    have hlast : ∀ y ∈ lane, (y == x) = false := by
      intro y hy
      exact Bool.eq_false_iff.2 fun heq => hx ⟨y, hy, heq⟩
    refine List.pairwise_append.2 ⟨h, List.pairwise_singleton _ _, fun y hy z hz => ?_⟩
    rw [List.mem_singleton.1 hz]
    exact hlast y hy

theorem separate_enterAll {lane : List α} (h : Separate lane) (items : List α) :
    Separate (enterAll lane items) := by
  induction items generalizing lane with
  | nil => exact h
  | cons x rest ih => exact ih (separate_enter x h)

/-- Only items are entered. -/
theorem mem_enterAll {x : α} {lane items : List α} (h : x ∈ enterAll lane items) :
    x ∈ lane ∨ x ∈ items := by
  induction items generalizing lane with
  | nil => exact .inl h
  | cons y rest ih =>
      rw [enterAll_cons] at h
      rcases ih h with hin | hrest
      · by_cases hy : Holds y lane
        · rw [enter_of_holds hy] at hin
          exact .inl hin
        · rw [enter_of_not_holds hy, List.mem_append, List.mem_singleton] at hin
          rcases hin with hin | rfl
          · exact .inl hin
          · exact .inr List.mem_cons_self
      · exact .inr (List.mem_cons_of_mem y hrest)

/-- Equal items are equal to the same entries. -/
theorem beq_congr [EquivBEq α] {x y : α} (h : (x == y) = true) :
    (fun z => z == x) = fun z => z == y := by
  funext z
  exact BEq.congr_right h

/-- Two items on a lane have one place exactly when they are equal. -/
theorem place_eq_place_iff [EquivBEq α] {x y : α} {lane : List α} (hx : Holds x lane)
    (hy : Holds y lane) : place x lane = place y lane ↔ (x == y) = true := by
  constructor
  · intro h
    obtain ⟨z, hz, hzx⟩ := getElem?_place hx
    obtain ⟨w, hw, hwy⟩ := getElem?_place hy
    rw [h, hw, Option.some.injEq] at hz
    subst hz
    exact BEq.trans (BEq.symm hzx) hwy
  · intro h
    rw [place, place, beq_congr h]

theorem number?_congr [EquivBEq α] {x y : α} (h : (x == y) = true) (lane : List α) :
    number? x lane = number? y lane := by
  rw [number?, number?, beq_congr h]

theorem enter_fst_congr [EquivBEq α] {x y : α} (h : (x == y) = true) (lane : List α) :
    (enter x lane).1 = (enter y lane).1 := by
  rw [enter, enter, number?_congr h]
  cases number? y lane <;> rfl

variable [ReflBEq α]

theorem holds_enter (x : α) (lane : List α) : Holds x (enter x lane).2 := by
  by_cases h : Holds x lane
  · rw [enter_of_holds h]
    exact h
  · rw [enter_of_not_holds h]
    exact ⟨x, by simp, BEq.rfl⟩

theorem holds_enterAll {x : α} {items : List α} (h : x ∈ items) (lane : List α) :
    Holds x (enterAll lane items) := by
  induction items generalizing lane with
  | nil => cases h
  | cons y rest ih =>
      rw [enterAll_cons]
      cases h with
      | head => exact (holds_enter x lane).of_extension (prefix_enterAll _ rest)
      | tail _ hrest => exact ih hrest (enter y lane).2

theorem place_append_self {x : α} {lane : List α} (h : ¬ Holds x lane) :
    place x (lane ++ [x]) = lane.length := by
  have hnot : ¬ place x lane < lane.length := fun hlt => h (place_lt_iff.1 hlt)
  rw [place_append, if_neg hnot]
  simp [place]

/-- The number given for `x` is its place from then on. -/
theorem enter_fst (x : α) (lane : List α) : (enter x lane).1 = place x (enter x lane).2 := by
  by_cases h : Holds x lane
  · rw [enter_of_holds h]
  · rw [enter_of_not_holds h, place_append_self h]

omit [ReflBEq α] in
/-- What was entered is found again by all that equals it. -/
theorem number?_enter [EquivBEq α] {x y : α} (h : (x == y) = true) (lane : List α) :
    number? y (enter x lane).2 = some (enter x lane).1 := by
  rw [← number?_congr h, number?_of_holds (holds_enter x lane), enter_fst]

/--
The numbers that are new on the way from one lane to a later one come in ascending order.  The
induction is on the items; one that is found again brings an old number, which the filter drops.
-/
theorem eraseDups_filter_place (lane items : List α) :
    ((items.map (place · (enterAll lane items))).filter (lane.length ≤ ·)).eraseDups =
      List.range' lane.length ((enterAll lane items).length - lane.length) := by
  induction items generalizing lane with
  | nil => simp [enterAll]
  | cons x rest ih =>
      have hplace : place x (enterAll lane (x :: rest)) = place x (enter x lane).2 :=
        place_of_extension (holds_enter x lane) (prefix_enterAll _ rest)
      rw [List.map_cons, hplace, enterAll_cons]
      by_cases h : Holds x lane
      · have hold : ¬ lane.length ≤ place x lane := Nat.not_le.2 (place_lt_iff.2 h)
        rw [enter_of_holds h, List.filter_cons_of_neg (by simpa using hold)]
        exact ih lane
      · have hlonger := (prefix_enterAll (lane ++ [x]) rest).length_le
        have hsucc : (enterAll (lane ++ [x]) rest).length - lane.length =
            (enterAll (lane ++ [x]) rest).length - (lane ++ [x]).length + 1 := by
          simp only [List.length_append, List.length_singleton] at hlonger ⊢
          omega
        have hfilter : ∀ n : Nat,
            (!(n == lane.length) && decide (lane.length ≤ n)) =
              decide ((lane ++ [x]).length ≤ n) := by
          intro n
          rw [Bool.eq_iff_iff]
          simp only [List.length_append, List.length_singleton, Bool.and_eq_true, Bool.not_eq_true',
            beq_eq_false_iff_ne, decide_eq_true_eq]
          omega
        rw [enter_of_not_holds h, place_append_self h, List.filter_cons_of_pos (by simp),
          List.eraseDups_cons, List.filter_filter, hsucc, List.range'_succ]
        simp only [hfilter]
        rw [ih (lane ++ [x]), List.length_append, List.length_singleton]

theorem eraseDups_map {γ β : Type} [BEq γ] [LawfulBEq γ] [BEq β] [LawfulBEq β] {f : γ → β}
    (hf : ∀ {a b}, f a = f b → a = b) : ∀ xs : List γ, (xs.map f).eraseDups = xs.eraseDups.map f
  | [] => rfl
  | x :: rest => by
      have hsame : ∀ y, (!(f y == f x)) = !(y == x) := by
        intro y
        rw [Bool.eq_iff_iff]
        simp only [Bool.not_eq_true', beq_eq_false_iff_ne]
        exact not_congr ⟨hf, congrArg f⟩
      have hfilter : (rest.map f).filter (fun y => !(y == f x)) =
          (rest.filter fun y => !(y == x)).map f := by
        rw [List.filter_map]
        exact congrArg (List.map f) (List.filter_congr fun y _ => hsame y)
      rw [List.map_cons, List.eraseDups_cons, List.eraseDups_cons, hfilter,
        eraseDups_map hf (rest.filter fun y => !(y == x)), List.map_cons]
termination_by xs => xs.length
decreasing_by exact Nat.lt_succ_of_le (List.length_filter_le _ _)

theorem eraseDups_eq_nil_iff {γ : Type} [BEq γ] {xs : List γ} : xs.eraseDups = [] ↔ xs = [] := by
  cases xs with
  | nil => simp
  | cons x rest => simp [List.eraseDups_cons]

theorem nodup_eraseDups {γ : Type} [BEq γ] [LawfulBEq γ] : ∀ xs : List γ, xs.eraseDups.Nodup
  | [] => List.nodup_nil
  | x :: rest => by
      have hx : x ∉ (rest.filter fun y => !(y == x)).eraseDups := by
        rw [List.mem_eraseDups, List.mem_filter]
        simp
      rw [List.eraseDups_cons]
      exact List.nodup_cons.2 ⟨hx, nodup_eraseDups (rest.filter fun y => !(y == x))⟩
termination_by xs => xs.length
decreasing_by exact Nat.lt_succ_of_le (List.length_filter_le _ _)

theorem eraseDups_map_place (items : List α) :
    (items.map (place · (enterAll [] items))).eraseDups = List.range (enterAll [] items).length := by
  have h := eraseDups_filter_place [] items
  have hall : (items.map (place · (enterAll [] items))).filter (0 ≤ ·) =
      items.map (place · (enterAll [] items)) :=
    List.filter_eq_self.2 fun _ _ => by simp
  rwa [List.length_nil, hall, Nat.sub_zero, ← List.range_eq_range'] at h

end DynamoExpr.Lane
