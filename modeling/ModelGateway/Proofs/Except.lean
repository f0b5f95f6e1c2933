import Mathlib.Data.List.Forall2

/-!
# Steps that can fail

When a sequence of steps succeeds, and what a list of steps that all succeed gives: one value for
each item, each of them the result of its own step (`Except.mapM_eq_ok_iff`).
-/

namespace ModelGateway.Except

variable {ε α β γ : Type}

/-- A sequence of two steps succeeds if both do. -/
theorem bind_eq_ok_iff {x : Except ε α} {f : α → Except ε β} {b : β} :
    x >>= f = .ok b ↔ ∃ a, x = .ok a ∧ f a = .ok b := by
  cases x <;> simp [bind, Except.bind]

/-- A sequence of two steps fails if the first does, or else the second. -/
theorem bind_eq_error_iff {x : Except ε α} {f : α → Except ε β} {e : ε} :
    x >>= f = .error e ↔ x = .error e ∨ ∃ a, x = .ok a ∧ f a = .error e := by
  cases x <;> simp [bind, Except.bind]

/-- A mapped step succeeds if the step does. -/
theorem map_eq_ok_iff {x : Except ε α} {f : α → β} {b : β} :
    x.map f = .ok b ↔ ∃ a, x = .ok a ∧ f a = b := by
  cases x <;> simp [Except.map]

/-- A step whose value is paired with a label succeeds if the step does. -/
theorem pair_eq_ok_iff {x : Except ε β} {a : α} {y : α × β} :
    (do return (a, ← x)) = Except.ok y ↔ a = y.1 ∧ x = .ok y.2 := by
  obtain ⟨a', b⟩ := y
  cases x <;> simp [bind, Except.bind, pure, Except.pure]

/-- A list of steps succeeds if each of them does. -/
theorem mapM_eq_ok_iff {f : α → Except ε β} {xs : List α} {ys : List β} :
    xs.mapM f = .ok ys ↔ List.Forall₂ (fun x y => f x = .ok y) xs ys := by
  induction xs generalizing ys with
  | nil => simp [pure, Except.pure, eq_comm]
  | cons x rest ih =>
    rw [List.mapM_cons, List.forall₂_cons_left_iff]
    constructor
    · intro h
      obtain ⟨y, hy, h⟩ := bind_eq_ok_iff.mp h
      obtain ⟨ys', hys', h⟩ := bind_eq_ok_iff.mp h
      cases h
      exact ⟨y, ys', hy, ih.mp hys', rfl⟩
    · rintro ⟨y, ys', hy, hys', rfl⟩
      exact bind_eq_ok_iff.mpr ⟨y, hy, bind_eq_ok_iff.mpr ⟨ys', ih.mpr hys', rfl⟩⟩

/-- A list of steps has a result if each step has one. -/
theorem exists_mapM_eq_ok_iff {f : α → Except ε β} {xs : List α} :
    (∃ ys, xs.mapM f = .ok ys) ↔ ∀ x ∈ xs, ∃ y, f x = .ok y := by
  simp only [mapM_eq_ok_iff]
  induction xs with
  | nil => exact iff_of_true ⟨[], .nil⟩ (by simp)
  | cons x rest ih =>
    rw [List.forall_mem_cons, ← ih]
    constructor
    · rintro ⟨_, hx | ⟨hy, hys⟩⟩
      exact ⟨⟨_, hy⟩, _, hys⟩
    · rintro ⟨⟨y, hy⟩, ys, hys⟩
      exact ⟨y :: ys, .cons hy hys⟩

/-- A list of steps that all succeed gives a value for each of its items. -/
theorem length_of_mapM_eq_ok {f : α → Except ε β} {xs : List α} {ys : List β}
    (h : xs.mapM f = .ok ys) : ys.length = xs.length :=
  (mapM_eq_ok_iff.mp h).length_eq.symm

/-- A list of steps that all succeed gives values that agree with its items, if each step does. -/
theorem map_eq_of_mapM_eq_ok {f : α → Except ε β} {g : α → γ} {g' : β → γ} {xs : List α}
    {ys : List β} (hf : ∀ x y, f x = .ok y → g' y = g x) (h : xs.mapM f = .ok ys) :
    ys.map g' = xs.map g := by
  have hall : List.Forall₂ (· = ·) (xs.map g) (ys.map g') := by
    rw [List.forall₂_map_left_iff, List.forall₂_map_right_iff]
    exact (mapM_eq_ok_iff.mp h).imp fun x y hxy => (hf x y hxy).symm
  rw [List.forall₂_eq_eq_eq] at hall
  exact hall.symm

/-- Every value of a list of steps is the result of one of them. -/
theorem exists_of_mem_mapM {f : α → Except ε β} {xs : List α} {ys : List β} {y : β}
    (h : xs.mapM f = .ok ys) (hy : y ∈ ys) : ∃ x ∈ xs, f x = .ok y := by
  obtain ⟨i, hi, rfl⟩ := List.getElem_of_mem hy
  have hall := mapM_eq_ok_iff.mp h
  have hi' : i < xs.length := by rwa [hall.length_eq]
  exact ⟨xs[i], List.getElem_mem hi', hall.get hi' hi⟩

end ModelGateway.Except
