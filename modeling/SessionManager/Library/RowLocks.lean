import Mathlib.Logic.Basic

/-- Which owner holds the lock of which row. -/
def RowLocks (κ ω : Type) := κ → Option ω

namespace RowLocks

variable {κ ω : Type} [DecidableEq κ] [DecidableEq ω]

def empty : RowLocks κ ω := fun _ => none

/-- The row is unlocked, or locked by `p` itself. -/
def free (l : RowLocks κ ω) (p : ω) (k : κ) : Bool := l k = none || l k = some p

def acquire (l : RowLocks κ ω) (p : ω) (k : κ) : RowLocks κ ω :=
  fun j => if j = k then some p else l j

def acquireAll (l : RowLocks κ ω) (p : ω) (ks : List κ) : RowLocks κ ω :=
  fun j => if j ∈ ks then some p else l j

/-- Gives back every lock of `p`, as the end of a transaction does. -/
def release (l : RowLocks κ ω) (p : ω) : RowLocks κ ω :=
  fun j => if l j = some p then none else l j

omit [DecidableEq κ] in
/-- A row is free to `p` when nobody but `p` holds its lock. -/
theorem free_iff (l : RowLocks κ ω) (p : ω) (k : κ) :
    l.free p k = true ↔ ∀ q, l k = some q → q = p := by
  unfold free
  cases l k <;> simp

omit [DecidableEq κ] in
/-- Whoever holds the lock of a row that is free to `p` is `p`. -/
theorem not_held_of_free {l : RowLocks κ ω} {p q : ω} {k : κ} (hfree : l.free p k = true)
    (hheld : l k = some q) : q = p :=
  (free_iff l p k).mp hfree q hheld

omit [DecidableEq ω] in
/-- Acquiring a lock makes the acquirer its holder. -/
@[simp] theorem acquire_self (l : RowLocks κ ω) (p : ω) (k : κ) : l.acquire p k k = some p := by
  simp [acquire]

/-- Taking a free lock takes none away: the lock is unheld before, or held by the taker
already. -/
theorem acquire_of_held {l : RowLocks κ ω} {p q : ω} {k j : κ} (hfree : l.free p k = true)
    (hheld : l j = some q) : l.acquire p k j = some q := by
  unfold acquire
  split
  · rename_i heq
    subst heq
    rw [not_held_of_free hfree hheld]
  · exact hheld

/-- Locking a list of rows that are all free to `p` takes no lock from anybody. -/
theorem acquireAll_of_held {l : RowLocks κ ω} {p q : ω} {ks : List κ} {j : κ}
    (hfree : ∀ k ∈ ks, l.free p k = true) (hheld : l j = some q) : l.acquireAll p ks j = some q := by
  unfold acquireAll
  split
  · rename_i hmem
    rw [not_held_of_free (hfree j hmem) hheld]
  · exact hheld

omit [DecidableEq κ] in
/-- Releasing drops the locks of one holder and leaves those of every other. -/
theorem release_of_held {l : RowLocks κ ω} {p q : ω} {j : κ} (hheld : l j = some q)
    (hne : q ≠ p) : l.release p j = some q := by
  simp [release, hheld, hne]

end RowLocks
