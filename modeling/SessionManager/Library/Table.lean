import Mathlib.Data.List.Induction
import Mathlib.Data.List.Nodup
import Mathlib.Data.Option.Basic

/-- A finite table with a primary key. Rows keep their insertion order and no
key occurs twice, so a lookup determines its row. -/
structure Table (κ α : Type) where
  rows : List (κ × α)
  nodup : (rows.map Prod.fst).Nodup

namespace Table

variable {κ α : Type}

def keys (t : Table κ α) : List κ := t.rows.map Prod.fst

def empty : Table κ α := ⟨[], List.nodup_nil⟩

instance : Inhabited (Table κ α) := ⟨empty⟩

variable [DecidableEq κ]

def get? (t : Table κ α) (k : κ) : Option α := t.rows.lookup k

/-- Applies `f` to every row; keys stay as they are. -/
def mapRows (t : Table κ α) (f : κ → α → α) : Table κ α where
  rows := t.rows.map fun r => (r.1, f r.1 r.2)
  nodup := by
    rw [List.map_map]
    exact t.nodup

/-- Applies `f` to the row at `k`, when there is one. -/
def modify (t : Table κ α) (k : κ) (f : α → α) : Table κ α :=
  t.mapRows fun k' a => if k' = k then f a else a

/-- Applies an update to each row that has one. -/
def updateRows (t : Table κ α) (u : κ → Option (α → α)) : Table κ α :=
  t.mapRows fun k a => (u k).getD id a

/-- Appends a row; a table that already has the key is left as it is. -/
def insert (t : Table κ α) (k : κ) (a : α) : Table κ α :=
  if h : k ∈ t.keys then t else
    { rows := t.rows ++ [(k, a)]
      nodup := by
        rw [List.map_append]
        exact List.nodup_append'.mpr ⟨t.nodup, by simp, by
          simpa [List.disjoint_singleton, keys] using h⟩ }

/-- Assigns a value to a key: the row at `k` if there is one, else a new last row. -/
def assign (t : Table κ α) (k : κ) (a : α) : Table κ α :=
  if k ∈ t.keys then t.modify k fun _ => a else t.insert k a

/-- The assignments in turn, so that the last value of a key stays. -/
def ofPairs (pairs : List (κ × α)) : Table κ α :=
  pairs.foldl (fun t r => t.assign r.1 r.2) empty

def any (t : Table κ α) (p : κ → α → Bool) : Bool := t.rows.any fun r => p r.1 r.2

def find? (t : Table κ α) (p : κ → α → Bool) : Option (κ × α) :=
  t.rows.find? fun r => p r.1 r.2

/-- Every row satisfies `P`. -/
def Forall (t : Table κ α) (P : κ → α → Prop) : Prop :=
  ∀ k a, t.get? k = some a → P k a

private theorem lookup_eq_some_iff_mem {rows : List (κ × α)}
    (hnodup : (rows.map Prod.fst).Nodup) {k : κ} {a : α} :
    rows.lookup k = some a ↔ (k, a) ∈ rows := by
  induction rows with
  | nil => simp
  | cons r rows ih =>
    obtain ⟨k', a'⟩ := r
    rw [List.map_cons, List.nodup_cons] at hnodup
    obtain ⟨hfresh, hnodup⟩ := hnodup
    by_cases hk : k = k'
    · subst hk
      have hnot : (k, a) ∉ rows := fun h => hfresh (List.mem_map.mpr ⟨(k, a), h, rfl⟩)
      simp [hnot, eq_comm]
    · have hbeq : (k == k') = false := by simpa using hk
      simp [List.lookup_cons, hbeq, ih hnodup, hk]

/-- To look a key up is to find its row; there is at most one, since the keys of a table
are distinct. -/
theorem get?_eq_some_iff_mem (t : Table κ α) {k : κ} {a : α} :
    t.get? k = some a ↔ (k, a) ∈ t.rows :=
  lookup_eq_some_iff_mem t.nodup

/-- The keys are those with a row. -/
theorem mem_keys_iff (t : Table κ α) {k : κ} : k ∈ t.keys ↔ ∃ a, t.get? k = some a := by
  simp [keys, get?_eq_some_iff_mem]

/-- A key without a row is looked up in vain. -/
theorem get?_eq_none_iff (t : Table κ α) {k : κ} : t.get? k = none ↔ k ∉ t.keys := by
  rw [mem_keys_iff]
  cases t.get? k <;> simp

@[simp] theorem get?_empty (k : κ) : (empty : Table κ α).get? k = none := rfl

private theorem lookup_map_rows (rows : List (κ × α)) (f : κ → α → α) (k : κ) :
    (rows.map fun r => (r.1, f r.1 r.2)).lookup k = (rows.lookup k).map (f k) := by
  induction rows with
  | nil => rfl
  | cons r rows ih =>
    obtain ⟨k', a⟩ := r
    by_cases hk : k = k'
    · subst hk
      simp
    · have hbeq : (k == k') = false := by simpa using hk
      simpa [List.lookup_cons, hbeq] using ih

/-- Mapping the rows maps what a lookup finds. -/
@[simp] theorem get?_mapRows (t : Table κ α) (f : κ → α → α) (k : κ) :
    (t.mapRows f).get? k = (t.get? k).map (f k) :=
  lookup_map_rows t.rows f k

omit [DecidableEq κ] in
/-- Mapping the rows keeps the keys and their order. -/
@[simp] theorem keys_mapRows (t : Table κ α) (f : κ → α → α) : (t.mapRows f).keys = t.keys := by
  simp [keys, mapRows]

/-- After an UPDATE with a WHERE clause, a lookup finds the updated row where the clause
picks it and the old row elsewhere. -/
@[simp] theorem get?_updateRows (t : Table κ α) (u : κ → Option (α → α)) (k : κ) :
    (t.updateRows u).get? k = (t.get? k).map ((u k).getD id) :=
  get?_mapRows t _ k

omit [DecidableEq κ] in
/-- An UPDATE adds no row and removes none. -/
@[simp] theorem keys_updateRows (t : Table κ α) (u : κ → Option (α → α)) :
    (t.updateRows u).keys = t.keys :=
  keys_mapRows t _

omit [DecidableEq κ] in
/-- An UPDATE that picks no row changes nothing. -/
@[simp] theorem updateRows_none (t : Table κ α) : t.updateRows (fun _ => none) = t := by
  obtain ⟨rows, hnodup⟩ := t
  simp [updateRows, mapRows]

/-- Modifying a row changes what its key leads to, and no other. A key without a row
stays without one. -/
theorem get?_modify (t : Table κ α) (k j : κ) (f : α → α) :
    (t.modify k f).get? j = if j = k then (t.get? j).map f else t.get? j := by
  rw [modify, get?_mapRows]
  split <;> cases t.get? j <;> simp_all

/-- Modifying one row changes what a lookup of its key finds. -/
@[simp] theorem get?_modify_self (t : Table κ α) (k : κ) (f : α → α) :
    (t.modify k f).get? k = (t.get? k).map f := by
  rw [get?_modify, if_pos rfl]

/-- Modifying a row leaves the rows of all other keys as they are. -/
theorem get?_modify_of_ne (t : Table κ α) {k j : κ} (f : α → α) (h : j ≠ k) :
    (t.modify k f).get? j = t.get? j := by
  rw [get?_modify, if_neg h]

/-- Modifying a row keeps the keys and their order. -/
@[simp] theorem keys_modify (t : Table κ α) (k : κ) (f : α → α) : (t.modify k f).keys = t.keys :=
  keys_mapRows t _

/-- What happens to a row depends on the row at its key only, so two maps that agree on
the rows agree on the table. -/
theorem mapRows_congr (t : Table κ α) {f g : κ → α → α}
    (h : ∀ k a, t.get? k = some a → f k a = g k a) : t.mapRows f = t.mapRows g := by
  simp only [mapRows, mk.injEq, List.map_inj_left, Prod.mk.injEq, true_and]
  exact fun r hr => h r.1 r.2 (t.get?_eq_some_iff_mem.mpr hr)

/-- To assign a row the value it has changes nothing. -/
theorem modify_eq_self (t : Table κ α) {k : κ} {a : α} (hget : t.get? k = some a) :
    (t.modify k fun _ => a) = t := by
  have hrows : t.mapRows (fun k' a' => if k' = k then a else a') = t.mapRows fun _ a' => a' := by
    refine t.mapRows_congr fun k' a' hget' => ?_
    split
    · rename_i hk
      subst hk
      exact Option.some.inj (hget.symm.trans hget')
    · rfl
  rw [modify, hrows]
  obtain ⟨rows, hnodup⟩ := t
  simp [mapRows]

/-- Of two values assigned to a row, the last one stays. -/
theorem modify_modify (t : Table κ α) (k : κ) (a b : α) :
    ((t.modify k fun _ => a).modify k fun _ => b) = t.modify k fun _ => b := by
  simp only [modify, mapRows, mk.injEq, List.map_map, List.map_inj_left]
  intro r _
  by_cases hk : r.1 = k <;> simp [hk]

private theorem lookup_append_singleton (rows : List (κ × α)) (k j : κ) (a : α)
    (hfresh : k ∉ rows.map Prod.fst) :
    (rows ++ [(k, a)]).lookup j = if j = k then some a else rows.lookup j := by
  induction rows with
  | nil =>
    by_cases hj : j = k
    · simp [hj]
    · have hbeq : (j == k) = false := by simpa using hj
      simp [List.lookup_cons, hbeq, hj]
  | cons r rows ih =>
    obtain ⟨k', a'⟩ := r
    simp only [List.map_cons, List.mem_cons, not_or] at hfresh
    by_cases hj : j = k'
    · subst hj
      simp [Ne.symm hfresh.1]
    · have hbeq : (j == k') = false := by simpa using hj
      simpa [List.lookup_cons, hbeq] using ih hfresh.2

/-- A new row is found at its key, and the others where they were. The key has to be
new. -/
theorem get?_insert (t : Table κ α) {k : κ} (a : α) (hfresh : t.get? k = none) (j : κ) :
    (t.insert k a).get? j = if j = k then some a else t.get? j := by
  have hkeys : k ∉ t.keys := (t.get?_eq_none_iff).mp hfresh
  rw [insert, dif_neg hkeys]
  exact lookup_append_singleton t.rows k j a hkeys

/-- Inserting keeps every row that was there, also when its key is taken. -/
theorem get?_insert_of_some (t : Table κ α) {k j : κ} {a b : α} (hget : t.get? j = some b) :
    (t.insert k a).get? j = some b := by
  by_cases hkey : t.get? k = none
  · have hne : j ≠ k := by
      rintro rfl
      simp [hget] at hkey
    rw [get?_insert t a hkey, if_neg hne, hget]
  · have hmem : k ∈ t.keys := by
      by_contra hnot
      exact hkey ((t.get?_eq_none_iff).mpr hnot)
    rw [insert, dif_pos hmem, hget]

/-- A row after an insertion was there before, or is the inserted one at a key that was
new. -/
theorem get?_insert_cases (t : Table κ α) {k j : κ} {a b : α}
    (hget : (t.insert k a).get? j = some b) :
    t.get? j = some b ∨ (t.get? k = none ∧ j = k ∧ b = a) := by
  by_cases hkey : t.get? k = none
  · rw [get?_insert t a hkey] at hget
    split at hget
    · rename_i hj
      exact .inr ⟨hkey, hj, (Option.some.inj hget).symm⟩
    · exact .inl hget
  · have hmem : k ∈ t.keys := by
      by_contra hnot
      exact hkey ((t.get?_eq_none_iff).mpr hnot)
    rw [insert, dif_pos hmem] at hget
    exact .inl hget

private theorem keys_insert (t : Table κ α) {k : κ} (a : α) (hfresh : t.get? k = none) :
    (t.insert k a).keys = t.keys ++ [k] := by
  have hkeys : k ∉ t.keys := (t.get?_eq_none_iff).mp hfresh
  rw [insert, dif_neg hkeys]
  simp [keys]

private theorem assign_rows (t : Table κ α) {k : κ} (a : α) (hfresh : k ∉ t.keys) :
    (t.assign k a).rows = t.rows ++ [(k, a)] := by
  rw [assign, if_neg hfresh, insert, dif_neg hfresh]

/-- Assignments to distinct keys become the rows, in their order, as a JSON object keeps
its members. -/
theorem ofPairs_rows {pairs : List (κ × α)} (hnodup : (pairs.map Prod.fst).Nodup) :
    (ofPairs pairs).rows = pairs := by
  suffices hgeneral : ∀ (rest : List (κ × α)) (t : Table κ α),
      (t.keys ++ rest.map Prod.fst).Nodup →
      (rest.foldl (fun t r => t.assign r.1 r.2) t).rows = t.rows ++ rest from
    hgeneral pairs empty hnodup
  intro rest
  induction rest with
  | nil => simp
  | cons r rest ih =>
    intro t hdistinct
    have hfresh : r.1 ∉ t.keys := by
      intro hmem
      exact (List.nodup_append'.mp hdistinct).2.2 hmem (by simp)
    have hrows := t.assign_rows r.2 hfresh
    rw [List.foldl_cons, ih (t.assign r.1 r.2), hrows, List.append_assoc, List.singleton_append]
    rw [keys, hrows]
    simpa [keys] using hdistinct

/-- Assigning the rows of a table one by one builds the table again. -/
theorem ofPairs_self (t : Table κ α) : ofPairs t.rows = t := by
  have hrows : (ofPairs t.rows).rows = t.rows := ofPairs_rows t.nodup
  obtain ⟨rows, hnodup⟩ := t
  cases hpairs : ofPairs rows
  simp_all

private theorem keys_assign (t : Table κ α) {k : κ} (a : α) {j : κ} (hmem : j ∈ (t.assign k a).keys) :
    j ∈ t.keys ∨ j = k := by
  unfold assign at hmem
  split at hmem
  · rw [keys_modify] at hmem
    exact .inl hmem
  · rename_i hfresh
    rw [keys_insert t a ((t.get?_eq_none_iff).mpr hfresh), List.mem_append, List.mem_singleton] at hmem
    exact hmem

/-- Assignments make no keys but their own. -/
theorem keys_ofPairs {pairs : List (κ × α)} {k : κ} (hmem : k ∈ (ofPairs pairs).keys) :
    k ∈ pairs.map Prod.fst := by
  suffices hgeneral : ∀ (rest : List (κ × α)) (t : Table κ α),
      k ∈ (rest.foldl (fun t r => t.assign r.1 r.2) t).keys → k ∈ t.keys ∨ k ∈ rest.map Prod.fst by
    simpa [keys, empty] using hgeneral pairs empty hmem
  intro rest
  induction rest with
  | nil => exact fun t h => .inl h
  | cons r rest ih =>
    intro t h
    rcases ih (t.assign r.1 r.2) h with h | h
    · rcases t.keys_assign r.2 h with h | rfl
      · exact .inl h
      · exact .inr (by simp)
    · exact .inr (List.mem_cons_of_mem _ h)

/-- An assignment replaces the row of its key, or adds one. -/
theorem get?_assign (t : Table κ α) (k j : κ) (a : α) :
    (t.assign k a).get? j = if j = k then some a else t.get? j := by
  unfold assign
  split
  · rename_i hmem
    obtain ⟨b, hget⟩ := t.mem_keys_iff.mp hmem
    rw [get?_modify]
    by_cases hj : j = k
    · simp [hj, hget]
    · simp [hj]
  · rename_i hfresh
    rw [get?_insert t a (t.get?_eq_none_iff.mpr hfresh)]

/-- A key has the last value assigned to it, as a repeated key of a JSON object does. -/
theorem get?_ofPairs (pairs : List (κ × α)) (k : κ) :
    (ofPairs pairs).get? k = ((pairs.filter fun r => r.1 = k).getLast?).map Prod.snd := by
  induction pairs using List.reverseRecOn with
  | nil => rfl
  | append_singleton pairs r ih =>
    have hassign : ofPairs (pairs ++ [r]) = (ofPairs pairs).assign r.1 r.2 := by
      rw [ofPairs, List.foldl_append, List.foldl_cons, List.foldl_nil, ofPairs]
    rw [hassign, get?_assign, ih, List.filter_append]
    by_cases hk : k = r.1
    · simp [hk]
    · simp [hk, Ne.symm hk]

/-- `any` finds a row if there is one to be found. -/
theorem any_eq_true_iff (t : Table κ α) (p : κ → α → Bool) :
    t.any p = true ↔ ∃ k a, t.get? k = some a ∧ p k a = true := by
  simp [any, List.any_eq_true, get?_eq_some_iff_mem]

/-- `any` finds none if no row is as asked for. -/
theorem any_eq_false_iff (t : Table κ α) (p : κ → α → Bool) :
    t.any p = false ↔ ∀ k a, t.get? k = some a → p k a = false := by
  rw [← Bool.not_eq_true, any_eq_true_iff]
  simp

/-- A row that is found is the one its key leads to, and is as asked for. -/
theorem get?_of_find? (t : Table κ α) {p : κ → α → Bool} {r : κ × α} (h : t.find? p = some r) :
    t.get? r.1 = some r.2 ∧ p r.1 r.2 = true :=
  ⟨t.get?_eq_some_iff_mem.mpr (List.mem_of_find?_eq_some h),
    by simpa using List.find?_some h⟩

private theorem forall_iff_rows (t : Table κ α) (P : κ → α → Prop) :
    t.Forall P ↔ ∀ r ∈ t.rows, P r.1 r.2 := by
  simp [Forall, get?_eq_some_iff_mem]

instance (t : Table κ α) (P : κ → α → Prop) [∀ k a, Decidable (P k a)] : Decidable (t.Forall P) :=
  decidable_of_iff _ (t.forall_iff_rows P).symm

end Table
