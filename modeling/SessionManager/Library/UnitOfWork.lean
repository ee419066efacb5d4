import Mathlib.Logic.Basic

namespace unit_of_work

/-- The value an update leaves in a column: an unchanged attribute of the copy
keeps whatever the row holds, a changed one overwrites it. -/
def column {α : Type} [DecidableEq α] (loaded current row : α) : α :=
  if current = loaded then row else current

/-- A column that the copy never changed is not in its UPDATE: the row keeps what it
has. -/
@[simp] theorem column_self {α : Type} [DecidableEq α] (a row : α) : column a a row = row := by
  simp [column]

/-- Written to the row it was loaded from, a copy leaves its own value in the column. -/
@[simp] theorem column_loaded {α : Type} [DecidableEq α] (a b : α) : column a b a = b := by
  unfold column
  split <;> simp_all

/-- A column in which the copy was changed is written, over whatever the row has by
then. -/
theorem column_of_ne {α : Type} [DecidableEq α] {a b : α} (row : α) (h : b ≠ a) :
    column a b row = b := by
  simp [column, h]

/-- A column after a flush is the copy's or the row's own; no third value gets into it. -/
theorem column_eq_or {α : Type} [DecidableEq α] (a b row : α) :
    column a b row = b ∨ column a b row = row := by
  unfold column
  split <;> simp

/-- A row type that can be written back attribute by attribute. Writing an
untouched copy changes nothing, and writing to the row that was loaded yields
the copy. -/
class Columns (α : Type) where
  update : α → α → α → α
  update_self : ∀ a row, update a a row = row
  update_loaded : ∀ a b, update a b a = b

/-- A copy of a row held by a database session: the values last loaded or
written, and the current attribute values. -/
structure Loaded (α : Type) where
  loaded : α
  current : α

namespace Loaded

variable {α : Type}

variable [DecidableEq α] [Columns α]

/-- Whether a flush of the copy issues an UPDATE. -/
def dirty (x : Loaded α) : Bool := x.current ≠ x.loaded

/-- The row after the flush of the copy. -/
def write (x : Loaded α) (row : α) : α := Columns.update x.loaded x.current row

/-- What the flush of the copy does to the row; `none` when it issues no UPDATE. -/
def update (x : Loaded α) : Option (α → α) := if x.dirty then some x.write else none

/-- A copy that was not changed writes nothing, and leaves what others have written. -/
theorem write_of_clean {x : Loaded α} (h : x.dirty = false) (row : α) : x.write row = row := by
  have heq : x.current = x.loaded := by simpa [dirty] using h
  rw [write, heq, Columns.update_self]

/-- A flush leaves the row `write` computes, whether or not it issues an UPDATE. -/
theorem update_getD (x : Loaded α) (row : α) : x.update.getD id row = x.write row := by
  unfold update
  split
  · rfl
  · rename_i h
    exact (write_of_clean (by simpa using h) row).symm

/-- A copy that was not changed issues no UPDATE either. -/
theorem update_of_eq {x : Loaded α} (h : x.current = x.loaded) : x.update = none := by
  simp [update, dirty, h]

end Loaded

end unit_of_work
