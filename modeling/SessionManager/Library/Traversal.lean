import Mathlib.Data.List.Forall2

namespace traversal

variable {ε α β : Type} {f : α → Except ε β} {l : List α} {r : List β} {e : ε}

/-- A bind returns exactly when both of its parts do, the second on the value of the
first. -/
theorem bind_eq_ok {x : Except ε α} {b : β} : x.bind f = .ok b ↔ ∃ a, x = .ok a ∧ f a = .ok b := by
  cases x <;> simp [Except.bind]

/-- A traversal returns the results of its elements, in their order, when all of
them have one. -/
theorem mapM_eq_ok : l.mapM f = .ok r ↔ List.Forall₂ (fun a b => f a = .ok b) l r := by
  induction l generalizing r with
  | nil => simp [pure, Except.pure, eq_comm]
  | cons a l ih =>
    rw [List.mapM_cons, List.forall₂_cons_left_iff]
    change Except.bind (f a) (fun b => Except.bind (l.mapM f) fun bs => .ok (b :: bs)) = .ok r ↔ _
    simp only [bind_eq_ok, ih]
    constructor
    · rintro ⟨b, hb, bs, hbs, heq⟩
      cases heq
      exact ⟨b, bs, hb, hbs, rfl⟩
    · rintro ⟨b, bs, hb, hbs, rfl⟩
      exact ⟨b, hb, bs, hbs, rfl⟩

/-- A traversal returns exactly when the function returns on every item. -/
theorem exists_mapM_eq_ok : (∃ r, l.mapM f = .ok r) ↔ ∀ a ∈ l, ∃ b, f a = .ok b := by
  simp only [mapM_eq_ok]
  induction l with
  | nil => simp
  | cons a l ih =>
    rw [List.forall_mem_cons, ← ih]
    simp only [List.forall₂_cons_left_iff]
    constructor
    · rintro ⟨_, b, r, hb, hr, rfl⟩
      exact ⟨⟨b, hb⟩, r, hr⟩
    · rintro ⟨⟨b, hb⟩, r, hr⟩
      exact ⟨b :: r, b, r, hb, hr, rfl⟩

/-- A traversal whose elements all return is a map, with the results in the order of the
elements. -/
theorem mapM_of_forall {g : α → β} (h : ∀ a ∈ l, f a = .ok (g a)) : l.mapM f = .ok (l.map g) :=
  mapM_eq_ok.mpr (List.forall₂_map_right_iff.mpr (List.forall₂_same.mpr h))

end traversal
