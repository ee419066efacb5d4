import Mathlib.Data.List.Range
import Mathlib.Tactic.Basic

namespace numbering

/-- The number a reader of the used ones takes: their maximum plus one. -/
def next (used : List Nat) : Nat := used.foldr max 0 + 1

/-- The numbers 1 to n in the order they were used. -/
def Gapless (used : List Nat) : Prop := used = List.range' 1 used.length

variable {used : List Nat} {k : Nat}

/-- The maximum bounds every number in use, so the next number is a new one. -/
theorem le_foldr_max (hmem : k ∈ used) : k ≤ used.foldr max 0 := by
  induction used with
  | nil => simp at hmem
  | cons a used ih =>
    rw [List.foldr_cons]
    rcases List.mem_cons.mp hmem with rfl | hmem
    · exact Nat.le_max_left ..
    · exact (ih hmem).trans (Nat.le_max_right ..)

/-- The maximum is the least bound: what bounds every number in use bounds it. -/
theorem foldr_max_le {n : Nat} (hle : ∀ k ∈ used, k ≤ n) : used.foldr max 0 ≤ n := by
  induction used with
  | nil => simp
  | cons a used ih =>
    rw [List.foldr_cons]
    exact Nat.max_le.mpr ⟨hle a (by simp), ih fun k hk => hle k (List.mem_cons_of_mem a hk)⟩

namespace Gapless

variable (h : Gapless used)
include h

/-- In a gapless list the numbers in use are exactly `1 .. n`, each of them once. -/
theorem mem_iff : k ∈ used ↔ 1 ≤ k ∧ k ≤ used.length := by
  rw [Gapless] at h
  rw [h, List.mem_range'_1, List.length_range']
  omega

/-- The next number of a gapless list follows its length: the maximum and the count
agree. -/
theorem next_eq : next used = used.length + 1 := by
  have hle : used.foldr max 0 ≤ used.length := foldr_max_le fun k hk => (h.mem_iff.mp hk).2
  rw [next]
  rcases Nat.eq_zero_or_pos used.length with hzero | hpos
  · omega
  · have hlast : used.length ≤ used.foldr max 0 := le_foldr_max (h.mem_iff.mpr ⟨hpos, Nat.le_refl _⟩)
    omega

/-- A number taken earlier that is still unused is the next one: nobody has added a
number since. -/
theorem eq_of_unused (hpos : 1 ≤ k) (hle : k ≤ used.length + 1) (hunused : k ∉ used) :
    k = used.length + 1 := by
  rw [h.mem_iff] at hunused
  omega

/-- Adding the next number keeps the list gapless. -/
theorem append (hk : k = used.length + 1) : Gapless (used ++ [k]) := by
  rw [Gapless, List.length_append, List.length_singleton, List.range'_1_concat, ← h, hk,
    Nat.add_comm]

end Gapless

end numbering
