import Mathlib.Data.List.Forall2

/-!
# Outcomes

When a computation that may fail succeeds, and with what.
-/

namespace DynamoExpr

variable {ε α β : Type}

theorem bind_eq_ok_iff {r : Except ε α} {k : α → Except ε β} {b : β} :
    (r >>= k) = .ok b ↔ ∃ a, r = .ok a ∧ k a = .ok b := by
  cases r with
  | error fault =>
      constructor
      · intro h
        cases h
      · intro h
        rcases h with ⟨_, h, -⟩
        cases h
  | ok a =>
      constructor
      · exact fun h => ⟨a, rfl, h⟩
      · intro h
        rcases h with ⟨_, h, hk⟩
        cases h
        exact hk

/-- A check comes before a computation. -/
theorem then_eq_ok_iff {r : Except ε Unit} {k : Except ε β} {b : β} :
    (r >>= fun _ => k) = .ok b ↔ r = .ok () ∧ k = .ok b := by
  rw [bind_eq_ok_iff]
  exact ⟨fun ⟨_, h⟩ => h, fun h => ⟨(), h⟩⟩

theorem pure_eq_ok_iff {a b : α} : (pure a : Except ε α) = .ok b ↔ a = b := by
  constructor
  · intro h
    cases h
    rfl
  · intro h
    subst h
    rfl

theorem map_eq_ok_iff {r : Except ε α} {f : α → β} {b : β} :
    r.map f = .ok b ↔ ∃ a, r = .ok a ∧ f a = b := by
  cases r with
  | error fault => simp [Except.map]
  | ok a => simp [Except.map]

theorem exists_map_eq_ok_iff {r : Except ε α} {f : α → β} :
    (∃ b, r.map f = .ok b) ↔ ∃ a, r = .ok a := by
  simp only [map_eq_ok_iff]
  exact ⟨fun ⟨_, a, h, _⟩ => ⟨a, h⟩, fun ⟨a, h⟩ => ⟨_, a, h, rfl⟩⟩

/-- An optional item that is there. -/
theorem mapM_some {m : Type → Type} [Monad m] [LawfulMonad m] (f : α → m β) (x : α) :
    (some x).mapM f = (do return some (← f x)) := map_eq_pure_bind _ _

/-- A list is computed item by item, each of them with success. -/
theorem mapM_eq_ok_iff {f : α → Except ε β} {xs : List α} {ys : List β} :
    xs.mapM f = .ok ys ↔ List.Forall₂ (fun x y => f x = .ok y) xs ys := by
  induction xs generalizing ys with
  | nil =>
      rw [List.mapM_nil, pure_eq_ok_iff, List.forall₂_nil_left_iff]
      exact eq_comm
  | cons x rest ih =>
      simp only [List.mapM_cons, bind_eq_ok_iff, pure_eq_ok_iff, List.forall₂_cons_left_iff, ih]
      constructor
      · intro h
        rcases h with ⟨y, hy, others, hothers, rfl⟩
        exact ⟨y, others, hy, hothers, rfl⟩
      · intro h
        rcases h with ⟨y, others, hy, hothers, rfl⟩
        exact ⟨y, hy, others, hothers, rfl⟩

/-- A list is computed when each item is. -/
theorem exists_mapM_eq_ok_iff {f : α → Except ε β} {xs : List α} :
    (∃ ys, xs.mapM f = .ok ys) ↔ ∀ x ∈ xs, ∃ y, f x = .ok y := by
  simp only [mapM_eq_ok_iff]
  induction xs with
  | nil => simp
  | cons x rest ih =>
      rw [List.forall_mem_cons, ← ih]
      constructor
      · rintro ⟨_, hall⟩
        obtain ⟨y, ys, hx, hrest, -⟩ := List.forall₂_cons_left_iff.1 hall
        exact ⟨⟨y, hx⟩, ys, hrest⟩
      · rintro ⟨⟨y, hx⟩, ys, hrest⟩
        exact ⟨y :: ys, .cons hx hrest⟩

/-- What undoes the computation of an item undoes that of a list. -/
theorem mapM_eq_ok_iff_eq_map {f : α → Except ε β} {g : β → α}
    (h : ∀ x y, f x = .ok y ↔ x = g y) {xs : List α} {ys : List β} :
    xs.mapM f = .ok ys ↔ xs = ys.map g := by
  have hitem : (fun x y => f x = .ok y) = fun x y => x = g y := by
    funext x y
    exact propext (h x y)
  rw [mapM_eq_ok_iff, hitem, ← List.forall₂_eq_eq_eq, List.forall₂_map_right_iff]

end DynamoExpr
