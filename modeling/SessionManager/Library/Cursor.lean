import Mathlib.Data.List.Induction
import Mathlib.Data.List.Sort

namespace cursor

variable {α κ : Type*} (key : α → κ)

/-- Where a reader stands that started at `o` and has read `read`. -/
def position (o : κ) (read : List α) : κ := (read.getLast?.map key).getD o

@[simp] theorem position_nil (o : κ) : position key o [] = o := rfl

/-- The cursor stands at the last item taken. -/
@[simp] theorem position_append (o : κ) (l : List α) (x : α) :
    position key o (l ++ [x]) = key x := by
  simp [position]

/-- A reader stands at a key it has read, or where it started when it has read nothing. -/
theorem position_cases (o : κ) (read : List α) :
    (read = [] ∧ position key o read = o) ∨ ∃ a ∈ read, position key o read = key a := by
  rcases List.eq_nil_or_concat' read with rfl | ⟨init, a, rfl⟩
  · exact .inl ⟨rfl, rfl⟩
  · exact .inr ⟨a, by simp, position_append key o init a⟩

variable [LinearOrder κ]

/-- The entries in the order of their keys. -/
def ordered (l : List α) : List α := l.insertionSort fun a b => key a ≤ key b

/-- What a reader at `o` has still to read. -/
def after (o : κ) (l : List α) : List α := (ordered key l).filter fun a => o < key a

/-- What a reader has read on its way from `o` to `c`. -/
def between (o c : κ) (l : List α) : List α :=
  (ordered key l).filter fun a => o < key a ∧ key a ≤ c

variable {key} {l : List α} {o c d : κ} {x : α}

private instance total_le : Std.Total fun a b => key a ≤ key b := ⟨fun a b => le_total (key a) (key b)⟩

private instance trans_le : IsTrans α fun a b => key a ≤ key b := ⟨fun _ _ _ => le_trans⟩

private instance irrefl_lt : Std.Irrefl fun a b => key a < key b := ⟨fun a => lt_irrefl (key a)⟩

private instance antisymm_lt : Std.Antisymm fun a b => key a < key b :=
  ⟨fun _ _ hab hba => absurd hab (lt_asymm hba)⟩

/-- Ordering a list by position neither adds an item nor drops one. -/
@[simp] theorem mem_ordered : x ∈ ordered key l ↔ x ∈ l := List.mem_insertionSort _

/-- A page after `o` holds the items that are past `o`, and only these. -/
@[simp] theorem mem_after : x ∈ after key o l ↔ x ∈ l ∧ o < key x := by simp [after]

/-- The items between `o` and `c` are those past `o` and up to `c`. -/
@[simp] theorem mem_between : x ∈ between key o c l ↔ x ∈ l ∧ o < key x ∧ key x ≤ c := by
  simp [between]

private theorem ordered_sorted (l : List α) : (ordered key l).Pairwise fun a b => key a ≤ key b :=
  List.pairwise_insertionSort _ l

/-- The entries are strictly ordered when no key occurs twice. -/
private theorem ordered_strict (hkeys : (l.map key).Nodup) :
    (ordered key l).Pairwise fun a b => key a < key b := by
  have hperm : ((ordered key l).map key).Nodup :=
    ((List.perm_insertionSort _ l).map key).nodup_iff.mpr hkeys
  refine ((ordered_sorted l).and (List.pairwise_map.mp hperm)).imp ?_
  exact fun ⟨hle, hne⟩ => lt_of_le_of_ne hle hne

/-- What is still to be read comes in the strict order of the keys, when no two entries
share one. -/
theorem after_strict (hkeys : (l.map key).Nodup) :
    (after key o l).Pairwise fun a b => key a < key b :=
  (ordered_strict hkeys).filter _

/-- What has been read comes in the strict order of the keys as well. -/
theorem between_strict (hkeys : (l.map key).Nodup) :
    (between key o c l).Pairwise fun a b => key a < key b :=
  (ordered_strict hkeys).filter _

private theorem filter_orderedInsert {p : α → Bool} {a : α} {m : List α}
    (hsorted : m.Pairwise fun a b => key a ≤ key b) :
    (m.orderedInsert (fun a b => key a ≤ key b) a).filter p =
      if p a then (m.filter p).orderedInsert (fun a b => key a ≤ key b) a else m.filter p := by
  induction m with
  | nil => by_cases ha : p a <;> simp [ha]
  | cons b m ih =>
    obtain ⟨hb, hsorted⟩ := List.pairwise_cons.mp hsorted
    by_cases hab : key a ≤ key b
    · have hfirst : (m.filter p).orderedInsert (fun a b => key a ≤ key b) a = a :: m.filter p := by
        cases hm : m.filter p with
        | nil => rfl
        | cons c rest =>
          have hc : c ∈ m := List.mem_of_mem_filter (hm ▸ List.mem_cons_self)
          exact List.orderedInsert_cons_of_le _ _ (le_trans hab (hb c hc))
      by_cases ha : p a <;> by_cases hpb : p b <;> simp [hab, ha, hpb, hfirst]
    · by_cases ha : p a <;> by_cases hpb : p b <;> simp [hab, ha, hpb, ih hsorted]

/-- Selecting before ordering is selecting after it, so a WHERE clause and an ORDER BY
commute. -/
theorem ordered_filter (p : α → Bool) (l : List α) :
    ordered key (l.filter p) = (ordered key l).filter p := by
  induction l with
  | nil => rfl
  | cons a l ih =>
    have hinsert : (ordered key (a :: l)).filter p =
        if p a then ((ordered key l).filter p).orderedInsert (fun a b => key a ≤ key b) a
        else (ordered key l).filter p :=
      filter_orderedInsert (ordered_sorted l)
    rw [hinsert, ← ih]
    by_cases ha : p a <;> simp [ha, ordered]

/-- Reading on from where an earlier reader stopped: the two parts together are what one
reader would have read. -/
theorem between_append (hkeys : (l.map key).Nodup) (hoc : o ≤ c) (hcd : c ≤ d) :
    between key o c l ++ between key c d l = between key o d l := by
  refine List.Pairwise.eq_of_mem_iff (r := fun a b => key a < key b) ?_ (between_strict hkeys) ?_
  · refine List.pairwise_append.mpr ⟨between_strict hkeys, between_strict hkeys, ?_⟩
    intro a ha b hb
    exact lt_of_le_of_lt (mem_between.mp ha).2.2 (mem_between.mp hb).2.1
  · intro a
    rw [List.mem_append, mem_between, mem_between, mem_between]
    constructor
    · rintro (⟨hmem, hlt, hle⟩ | ⟨hmem, hlt, hle⟩)
      · exact ⟨hmem, hlt, le_trans hle hcd⟩
      · exact ⟨hmem, lt_of_le_of_lt hoc hlt, hle⟩
    · rintro ⟨hmem, hlt, hle⟩
      rcases le_or_gt (key a) c with hac | hac
      · exact .inl ⟨hmem, hlt, hac⟩
      · exact .inr ⟨hmem, hac, hle⟩

private theorem between_append_after (hkeys : (l.map key).Nodup) (hoc : o ≤ c) :
    between key o c l ++ after key c l = after key o l := by
  refine List.Pairwise.eq_of_mem_iff (r := fun a b => key a < key b) ?_ (after_strict hkeys) ?_
  · refine List.pairwise_append.mpr ⟨between_strict hkeys, after_strict hkeys, ?_⟩
    intro a ha b hb
    exact lt_of_le_of_lt (mem_between.mp ha).2.2 (mem_after.mp hb).2
  · intro a
    rw [List.mem_append, mem_between, mem_after, mem_after]
    constructor
    · rintro (⟨hmem, hlt, -⟩ | ⟨hmem, hlt⟩)
      · exact ⟨hmem, hlt⟩
      · exact ⟨hmem, lt_of_le_of_lt hoc hlt⟩
    · rintro ⟨hmem, hlt⟩
      rcases le_or_gt (key a) c with hac | hac
      · exact .inl ⟨hmem, hlt, hac⟩
      · exact .inr ⟨hmem, hac⟩

/-- What has been read is the beginning of what there was to read. -/
theorem between_prefix_after (hkeys : (l.map key).Nodup) (hoc : o ≤ c) :
    between key o c l <+: after key o l :=
  ⟨_, between_append_after hkeys hoc⟩

@[simp] theorem between_self : between key o o l = [] := by
  refine List.filter_eq_nil_iff.mpr fun a _ => ?_
  simp only [decide_eq_true_eq, not_and, not_le]
  exact id

/-- The next entry of the log extends what has been read: no key lies between the cursor
and its own. -/
theorem between_next (hkeys : (l.map key).Nodup) (hoc : o ≤ c) (hx : x ∈ l) (hcx : c < key x)
    (hnext : ∀ a ∈ l, c < key a → key x ≤ key a) :
    between key o c l ++ [x] = between key o (key x) l := by
  have hone : between key c (key x) l = [x] := by
    refine List.Pairwise.eq_of_mem_iff (r := fun a b => key a < key b) (between_strict hkeys)
      (List.pairwise_singleton _ _) fun a => ?_
    rw [mem_between, List.mem_singleton]
    constructor
    · rintro ⟨ha, hca, hax⟩
      exact List.inj_on_of_nodup_map hkeys ha hx (le_antisymm hax (hnext a ha hca))
    · rintro rfl
      exact ⟨hx, hcx, le_refl _⟩
  rw [← hone, between_append hkeys hoc (le_of_lt hcx)]

/-- The first entry still to read is the next one above the position, and has the least
key of all that are left. -/
theorem head_after (hx : x ∈ (after key o l).head?) :
    x ∈ l ∧ o < key x ∧ ∀ a ∈ l, o < key a → key x ≤ key a := by
  have hsorted : (after key o l).Pairwise fun a b => key a ≤ key b := (ordered_sorted l).filter _
  cases hafter : after key o l with
  | nil => simp [hafter] at hx
  | cons y rest =>
    obtain rfl : y = x := by simpa [hafter] using hx
    have hmem : y ∈ after key o l := hafter ▸ List.mem_cons_self
    refine ⟨(mem_after.mp hmem).1, (mem_after.mp hmem).2, fun a ha hoa => ?_⟩
    have hrest : a ∈ y :: rest := hafter ▸ mem_after.mpr ⟨ha, hoa⟩
    rcases List.mem_cons.mp hrest with rfl | hrest
    · exact le_refl _
    · exact (List.pairwise_cons.mp (hafter ▸ hsorted)).1 a hrest

/-- Behind an entry that has been read, the others remain. -/
private theorem after_cons (hkeys : (l.map key).Nodup) {rest : List α} (hafter : after key o l = x :: rest) :
    after key (key x) l = rest := by
  have hstrict := hafter ▸ after_strict (o := o) hkeys
  obtain ⟨hfirst, hrest⟩ := List.pairwise_cons.mp hstrict
  have hmem : ∀ a, a ∈ x :: rest ↔ a ∈ l ∧ o < key a := fun a => by rw [← hafter, mem_after]
  have hox := ((hmem x).mp List.mem_cons_self).2
  refine List.Pairwise.eq_of_mem_iff (r := fun a b => key a < key b) (after_strict hkeys) hrest
    fun a => ?_
  rw [mem_after]
  constructor
  · rintro ⟨ha, hxa⟩
    refine (List.mem_cons.mp ((hmem a).mpr ⟨ha, lt_trans hox hxa⟩)).resolve_left ?_
    rintro rfl
    exact lt_irrefl _ hxa
  · exact fun ha => ⟨((hmem a).mp (List.mem_cons_of_mem x ha)).1, hfirst a ha⟩

/-- A reader that goes on to the first entry finds the others behind it, from its new
position. -/
theorem begins_after_cons (hkeys : (l.map key).Nodup) {rest : List α}
    (hrest : x :: rest <+: after key o l) : o < key x ∧ rest <+: after key (key x) l := by
  obtain ⟨tail, htail⟩ := hrest
  have hmem : x ∈ after key o l := htail ▸ List.mem_cons_self
  exact ⟨(mem_after.mp hmem).2, tail, (after_cons hkeys htail.symm).symm⟩

/-- An entry that no reader on the way from `o` to `c` may see does not count, whenever
it is added. -/
theorem between_insert (hout : ¬ (o < key x ∧ key x ≤ c)) :
    between key o c (l ++ [x]) = between key o c l := by
  have hx : ([x].filter fun a => o < key a ∧ key a ≤ c) = [] := by simpa using hout
  rw [between, between, ← ordered_filter, ← ordered_filter, List.filter_append, hx,
    List.append_nil]

private theorem orderedInsert_append {a : α} {m : List α} (hax : key a ≤ key x) :
    (m ++ [x]).orderedInsert (fun a b => key a ≤ key b) a =
      m.orderedInsert (fun a b => key a ≤ key b) a ++ [x] := by
  induction m with
  | nil => simp [hax]
  | cons b m ih => by_cases hab : key a ≤ key b <;> simp [hab, ih]

/-- An entry above all the others comes last. -/
private theorem ordered_append (hlast : ∀ a ∈ l, key a ≤ key x) :
    ordered key (l ++ [x]) = ordered key l ++ [x] := by
  induction l with
  | nil => rfl
  | cons a l ih =>
    obtain ⟨ha, hrest⟩ := List.forall_mem_cons.mp hlast
    calc ordered key (a :: l ++ [x])
      _ = (ordered key l ++ [x]).orderedInsert (fun a b => key a ≤ key b) a :=
        congrArg (List.orderedInsert _ a) (ih hrest)
      _ = ordered key (a :: l) ++ [x] := orderedInsert_append ha

/-- An entry above all the others is still to be read after them, so a reader loses
nothing by its being added. -/
theorem after_append (hlast : ∀ a ∈ l, key a ≤ key x) :
    after key o l <+: after key o (l ++ [x]) := by
  rw [after, after, ordered_append hlast, List.filter_append]
  exact List.prefix_append _ _

/-- A beginning of what has been read is what was read up to its own last entry: the
last key is all a reader needs to keep. -/
theorem eq_between_position (hkeys : (l.map key).Nodup) {read : List α}
    (hread : read <+: between key o c l) : read = between key o (position key o read) l := by
  rcases List.eq_nil_or_concat' read with rfl | ⟨init, a, rfl⟩
  · simp
  · obtain ⟨rest, hrest⟩ := hread
    have hstrict := hrest ▸ between_strict (o := o) (c := c) hkeys
    obtain ⟨hinit, -, hacross⟩ := List.pairwise_append.mp hstrict
    refine List.Pairwise.eq_of_mem_iff (r := fun a b => key a < key b) hinit
      (between_strict hkeys) fun b => ?_
    have hmem : b ∈ init ++ [a] ++ rest ↔ b ∈ l ∧ o < key b ∧ key b ≤ c := by
      rw [hrest, mem_between]
    rw [mem_between, position_append]
    constructor
    · intro hb
      obtain ⟨hbl, hob, -⟩ := hmem.mp (List.mem_append_left rest hb)
      refine ⟨hbl, hob, ?_⟩
      rcases List.mem_append.mp hb with hb | hb
      · exact le_of_lt ((List.pairwise_append.mp hinit).2.2 b hb a List.mem_cons_self)
      · exact le_of_eq (congrArg key (List.mem_singleton.mp hb))
    · rintro ⟨hbl, hob, hba⟩
      have hac : key a ≤ c := by
        have ha : a ∈ between key o c l := hrest ▸ by simp
        exact (mem_between.mp ha).2.2
      rcases List.mem_append.mp (hmem.mpr ⟨hbl, hob, le_trans hba hac⟩) with hb | hb
      · exact hb
      · exact absurd hba (not_le.mpr (hacross a (by simp) b hb))

/-- Entries in strict order need no ordering: sorting them again changes nothing. -/
theorem ordered_of_strict (hstrict : l.Pairwise fun a b => key a < key b) : ordered key l = l :=
  (hstrict.imp fun hlt => le_of_lt hlt).insertionSort_eq

/-- Where a reader stands is the highest key that it has read, since it reads in the
order of the keys. -/
theorem foldl_max_eq_position (hstrict : l.Pairwise fun a b => key a < key b) (ho : ∀ a ∈ l, o ≤ key a) :
    l.foldl (fun last a => max last (key a)) o = position key o l := by
  induction l using List.reverseRecOn with
  | nil => rfl
  | append_singleton init x ih =>
    obtain ⟨hinit, -, hbelow⟩ := List.pairwise_append.mp hstrict
    rw [List.foldl_append, ih hinit fun a ha => ho a (List.mem_append_left _ ha), position_append]
    refine max_eq_right ?_
    rcases position_cases key o init with ⟨-, hposition⟩ | ⟨a, ha, hposition⟩
    · rw [hposition]
      exact ho x (List.mem_append_right _ List.mem_cons_self)
    · rw [hposition]
      exact le_of_lt (hbelow a ha x List.mem_cons_self)

/-- A reader that has read the first entries above `o` has read everything up to its
last one. -/
theorem eq_between_of_after (hkeys : (l.map key).Nodup) {read : List α} (hread : read <+: after key o l) :
    read = between key o (position key o read) l := by
  induction read using List.reverseRecOn with
  | nil => simp
  | append_singleton init x ih =>
    obtain ⟨rest, hrest⟩ := hread
    have hinit : init <+: after key o l := ⟨x :: rest, by rw [← hrest, List.append_assoc]; rfl⟩
    have hoc : o ≤ position key o init := by
      rcases position_cases key o init with ⟨-, hposition⟩ | ⟨a, ha, hposition⟩
      · rw [hposition]
      · rw [hposition]
        exact le_of_lt (mem_after.mp (hinit.subset ha)).2
    have hafter : after key (position key o init) l = x :: rest := by
      have happend := between_append_after hkeys hoc
      rw [← ih hinit, ← hrest, List.append_assoc] at happend
      exact List.append_cancel_left happend
    obtain ⟨hx, hlt, hnext⟩ := head_after (x := x) (by rw [hafter]; rfl)
    rw [position_append, ← between_next hkeys hoc hx hlt hnext, ← ih hinit]

end cursor
