import Mathlib.Data.List.Infix

/-! Splitting a text at the leftmost occurrences of a pattern that do not overlap. -/

namespace pieces

variable {α : Type*}

/-- Starts the first piece with one more item. -/
def push (item : α) : List (List α) → List (List α)
  | [] => [[item]]
  | piece :: rest => (item :: piece) :: rest

variable [DecidableEq α]

/-- The pieces of a text of which the first `skip` items are the rest of an
occurrence. -/
def scan (pattern : List α) : Nat → List α → List (List α)
  | _, [] => [[]]
  | skip + 1, _ :: text => scan pattern skip text
  | 0, item :: text =>
    if pattern <+: item :: text then [] :: scan pattern (pattern.length - 1) text
    else push item (scan pattern 0 text)

/-- `text.split(pattern)` -/
def split (pattern text : List α) : List (List α) := scan pattern 0 text

/-- `text.count(pattern)` -/
def count (pattern text : List α) : Nat := (split pattern text).length - 1

/-- `text.replace(pattern, new)` -/
def replace (pattern new text : List α) : List α := new.intercalate (split pattern text)

/-- An occurrence behind `before` is the first one. -/
def First (pattern before : List α) : Prop := ¬ pattern <:+: before ++ pattern.dropLast

variable {pattern before after text new : List α} {item : α}

@[simp] theorem split_nil : split pattern [] = [[]] := by
  rw [split, scan]

private theorem scan_drop (skip : Nat) (text : List α) : scan pattern skip text = split pattern (text.drop skip) := by
  induction skip generalizing text with
  | zero => rfl
  | succ skip ih =>
    cases text with
    | nil => rfl
    | cons item text => exact ih text

private theorem split_cons_of_not_start (h : ¬ pattern <+: item :: text) :
    split pattern (item :: text) = push item (split pattern text) := by
  rw [split, scan, if_neg h]
  rfl

private theorem split_start (hpattern : pattern ≠ []) (after : List α) :
    split pattern (pattern ++ after) = [] :: split pattern after := by
  obtain ⟨item, pattern, rfl⟩ := List.exists_cons_of_ne_nil hpattern
  have hstart : item :: pattern <+: item :: (pattern ++ after) := List.prefix_append _ after
  rw [List.cons_append, split, scan, if_pos hstart, scan_drop]
  simp

/-- There is always a piece, and one more than occurrences. -/
theorem split_ne_nil (pattern text : List α) : split pattern text ≠ [] := by
  induction h : text.length using Nat.strongRecOn generalizing text with
  | ind n ih =>
    cases text with
    | nil => simp
    | cons item text =>
      rw [split, scan]
      split
      · exact List.cons_ne_nil _ _
      · cases scan pattern 0 text with
        | nil => exact List.cons_ne_nil _ _
        | cons piece rest => exact List.cons_ne_nil _ _

private theorem split_of_absent (h : ¬ pattern <:+: text) : split pattern text = [text] := by
  induction text with
  | nil => simp
  | cons item text ih =>
    have hrest := ih fun hoccurs => h (hoccurs.trans (List.suffix_cons item text).isInfix)
    rw [split_cons_of_not_start fun hstart => h hstart.isInfix, hrest]
    rfl

omit [DecidableEq α] in
private theorem First.tail (h : First pattern (item :: before)) : First pattern before :=
  fun hoccurs => h (hoccurs.trans (List.suffix_cons item _).isInfix)

omit [DecidableEq α] in
private theorem first_nil (hpattern : pattern ≠ []) : First pattern [] := by
  intro hoccurs
  have hlength := hoccurs.length_le
  have hpos := List.length_pos_of_ne_nil hpattern
  rw [List.nil_append, List.length_dropLast] at hlength
  omega

omit [DecidableEq α] in
private theorem append_dropLast_le (before pattern after : List α) :
    before ++ pattern.dropLast <+: before ++ pattern ++ after := by
  rw [List.append_assoc]
  exact (List.prefix_append_right_inj before).mpr
    ((List.dropLast_prefix pattern).trans (List.prefix_append pattern after))

/-- The scan passes over what comes before the first occurrence, and starts anew behind
it. -/
theorem split_first (hpattern : pattern ≠ []) (h : First pattern before) (after : List α) :
    split pattern (before ++ pattern ++ after) = before :: split pattern after := by
  induction before with
  | nil => exact split_start hpattern after
  | cons item before ih =>
    have hnot : ¬ pattern <+: item :: (before ++ pattern ++ after) := by
      intro hstart
      have hlength : pattern.length ≤ (item :: before ++ pattern.dropLast).length := by
        have hpos := List.length_pos_of_ne_nil hpattern
        simp only [List.length_append, List.length_cons, List.length_dropLast]
        omega
      exact h (List.prefix_of_prefix_length_le hstart (append_dropLast_le (item :: before) pattern after)
        hlength).isInfix
    rw [List.cons_append, List.cons_append, split_cons_of_not_start hnot, ih h.tail]
    rfl

omit [DecidableEq α] in
/-- A pattern that occurs has a first occurrence, the one before which the text does not
yet hold it. -/
theorem exists_first (hpattern : pattern ≠ []) (hoccurs : pattern <:+: text) :
    ∃ before after, text = before ++ pattern ++ after ∧ First pattern before := by
  induction text with
  | nil => exact absurd (List.infix_nil.mp hoccurs) hpattern
  | cons item text ih =>
    by_cases hstart : pattern <+: item :: text
    · obtain ⟨after, hafter⟩ := hstart
      exact ⟨[], after, hafter.symm, first_nil hpattern⟩
    · obtain ⟨before, after, rfl, hfirst⟩ := ih ((List.infix_cons_iff.mp hoccurs).resolve_left hstart)
      refine ⟨item :: before, after, rfl, fun hagain => ?_⟩
      rcases List.infix_cons_iff.mp hagain with hagain | hagain
      · exact hstart (hagain.trans (append_dropLast_le (item :: before) pattern after))
      · exact hfirst hagain

/-- `pattern.join(text.split(pattern)) == text` -/
theorem intercalate_split (hpattern : pattern ≠ []) (text : List α) :
    pattern.intercalate (split pattern text) = text := by
  induction h : text.length using Nat.strongRecOn generalizing text with
  | ind n ih =>
    by_cases hoccurs : pattern <:+: text
    · obtain ⟨before, after, rfl, hfirst⟩ := exists_first hpattern hoccurs
      have hlt : after.length < n := by
        have hpos := List.length_pos_of_ne_nil hpattern
        simp only [List.length_append] at h
        omega
      rw [split_first hpattern hfirst, List.intercalate_cons_of_ne_nil (split_ne_nil pattern after), ih _ hlt after rfl]
    · rw [split_of_absent hoccurs, List.intercalate_singleton]

section Borderless

omit [DecidableEq α] in
/-- No proper end of the pattern is a beginning of it. -/
def Borderless (pattern : List α) : Prop :=
  ∀ n < pattern.length, 0 < n → ¬ pattern.drop n <+: pattern

instance : Decidable (Borderless pattern) :=
  inferInstanceAs (Decidable (∀ n < pattern.length, 0 < n → ¬ pattern.drop n <+: pattern))

omit [DecidableEq α]

/-- Two occurrences of such a pattern do not overlap. -/
private theorem Borderless.start_le {between rest : List α} (hborder : Borderless pattern) (hne : between ≠ [])
    (h : pattern ++ after = between ++ (pattern ++ rest)) : pattern <+: between := by
  have hle : pattern.length ≤ between.length := by
    by_contra hlt
    have hlt : between.length < pattern.length := by omega
    have hdrop : pattern.drop between.length ++ after = pattern ++ rest := by
      have hdrop := congrArg (List.drop between.length) h
      rwa [List.drop_append_of_le_length (by omega), List.drop_left] at hdrop
    have hstart : pattern.drop between.length <+: pattern ++ rest := ⟨after, hdrop⟩
    exact hborder between.length hlt (List.length_pos_of_ne_nil hne)
      (List.prefix_of_prefix_length_le hstart (List.prefix_append pattern rest) (by rw [List.length_drop]; omega))
  have hstart : pattern <+: between ++ (pattern ++ rest) := ⟨after, h⟩
  exact List.prefix_of_prefix_length_le hstart (List.prefix_append between _) hle

/-- Between texts without such a pattern it occurs once, where it was put: no occurrence
can overlap an end of it. -/
theorem Borderless.unique {start rest : List α} (hborder : Borderless pattern) (hbefore : ¬ pattern <:+: before)
    (hafter : ¬ pattern <:+: after) (h : before ++ pattern ++ after = start ++ pattern ++ rest) :
    start = before ∧ rest = after := by
  rw [List.append_assoc, List.append_assoc, List.append_eq_append_iff] at h
  rcases h with ⟨between, rfl, h⟩ | ⟨between, rfl, h⟩
  · by_cases hne : between = []
    · rw [hne, List.nil_append, List.append_cancel_left_eq] at h
      rw [hne, List.append_nil, h]
      exact ⟨rfl, rfl⟩
    · obtain ⟨more, rfl⟩ := hborder.start_le hne h
      rw [List.append_assoc, List.append_cancel_left_eq] at h
      refine absurd ?_ hafter
      rw [h]
      exact ⟨more, rest, by rw [List.append_assoc]⟩
  · by_cases hne : between = []
    · rw [hne, List.nil_append, List.append_cancel_left_eq] at h
      rw [hne, List.append_nil, h]
      exact ⟨rfl, rfl⟩
    · exact absurd ((hborder.start_le hne h).isInfix.trans (List.suffix_append start between).isInfix) hbefore

end Borderless

section Single

variable {sep : α} {rows : List (List α)}

omit [DecidableEq α] in
private theorem absent_singleton (h : sep ∉ text) : ¬ [sep] <:+: text :=
  fun hoccurs => h (hoccurs.subset (List.mem_singleton.mpr rfl))

private theorem split_cons_row (h : sep ∉ before) (after : List α) :
    split [sep] (before ++ sep :: after) = before :: split [sep] after := by
  have hfirst : First [sep] before := by
    rw [First, List.dropLast_singleton, List.append_nil]
    exact absent_singleton h
  have hsplit := split_first (List.cons_ne_nil sep []) hfirst after
  rwa [List.append_assoc] at hsplit

/-- `sep.join(rows).split(sep) == rows` -/
theorem split_intercalate (hrows : rows ≠ []) (h : ∀ row ∈ rows, sep ∉ row) :
    split [sep] ([sep].intercalate rows) = rows := by
  induction rows with
  | nil => contradiction
  | cons row rows ih =>
    cases rows with
    | nil =>
      rw [List.intercalate_singleton]
      exact split_of_absent (absent_singleton (h row List.mem_cons_self))
    | cons next rows =>
      rw [List.intercalate_cons_cons, List.append_assoc, List.singleton_append,
        split_cons_row (h row List.mem_cons_self), ih (List.cons_ne_nil next rows)
          fun row hrow => h row (List.mem_cons_of_mem _ hrow)]

/-- No row holds the separator. -/
theorem not_mem_of_mem_split {row : List α} (hrow : row ∈ split [sep] text) : sep ∉ row := by
  induction text generalizing row with
  | nil =>
    rw [split_nil, List.mem_singleton] at hrow
    rw [hrow]
    exact List.not_mem_nil
  | cons item text ih =>
    by_cases hitem : sep = item
    · subst hitem
      have hsplit := split_start (List.cons_ne_nil sep []) text
      rw [List.singleton_append] at hsplit
      rw [hsplit] at hrow
      rcases List.mem_cons.mp hrow with rfl | hrow
      · exact List.not_mem_nil
      · exact ih hrow
    · have hnot : ¬ [sep] <+: item :: text := fun hstart => hitem (List.cons_prefix_cons.mp hstart).1
      rw [split_cons_of_not_start hnot] at hrow
      cases hsplit : split [sep] text with
      | nil => exact absurd hsplit (split_ne_nil _ text)
      | cons piece rest =>
        rw [hsplit] at hrow ih
        rcases List.mem_cons.mp hrow with rfl | hrow
        · exact fun hmem => (List.mem_cons.mp hmem).elim hitem (ih List.mem_cons_self)
        · exact ih (List.mem_cons_of_mem _ hrow)

omit [DecidableEq α] in
/-- What joins rows holds nothing but the separator and what is in the rows. -/
theorem mem_of_mem_intercalate (h : item ∈ [sep].intercalate rows) : item = sep ∨ ∃ row ∈ rows, item ∈ row := by
  induction rows with
  | nil => cases h
  | cons row rows ih =>
    cases rows with
    | nil =>
      rw [List.intercalate_singleton] at h
      exact .inr ⟨row, List.mem_cons_self, h⟩
    | cons next rows =>
      rw [List.intercalate_cons_cons, List.append_assoc, List.mem_append, List.mem_append, List.mem_singleton] at h
      rcases h with h | h | h
      · exact .inr ⟨row, List.mem_cons_self, h⟩
      · exact .inl h
      · exact (ih h).imp_right fun ⟨row', hrow', hmem⟩ => ⟨row', List.mem_cons_of_mem _ hrow', hmem⟩

/-- Two texts are joined within a row. -/
private theorem split_append (sep : α) (before after : List α) :
    ∃ rows last first rest, split [sep] before = rows ++ [last] ∧ split [sep] after = first :: rest ∧
      split [sep] (before ++ after) = rows ++ (last ++ first) :: rest := by
  obtain ⟨first, rest, hafter⟩ := List.exists_cons_of_ne_nil (split_ne_nil [sep] after)
  suffices hbefore : ∃ rows last, split [sep] before = rows ++ [last] ∧
      split [sep] (before ++ after) = rows ++ (last ++ first) :: rest by
    obtain ⟨rows, last, hbefore, hsplit⟩ := hbefore
    exact ⟨rows, last, first, rest, hbefore, hafter, hsplit⟩
  induction before with
  | nil => exact ⟨[], [], split_nil, hafter⟩
  | cons item before ih =>
    obtain ⟨rows, last, hbefore, hsplit⟩ := ih
    by_cases hitem : sep = item
    · subst hitem
      have hstart := split_start (List.cons_ne_nil sep [])
      simp only [List.singleton_append] at hstart
      refine ⟨[] :: rows, last, ?_, ?_⟩
      · rw [hstart, hbefore, List.cons_append]
      · rw [List.cons_append, hstart, hsplit, List.cons_append]
    · have hnot (text : List α) : ¬ [sep] <+: item :: text := fun h => hitem (List.cons_prefix_cons.mp h).1
      rw [List.cons_append, split_cons_of_not_start (hnot _), split_cons_of_not_start (hnot _), hbefore, hsplit]
      cases rows with
      | nil => exact ⟨[], item :: last, rfl, rfl⟩
      | cons row rows => exact ⟨(item :: row) :: rows, last, rfl, rfl⟩

/-- An item occurs in two texts in a row as often as in the two. Of longer patterns this
is false: one may occur across the border. -/
theorem count_append (before after : List α) :
    count [sep] (before ++ after) = count [sep] before + count [sep] after := by
  obtain ⟨rows, last, first, rest, hbefore, hafter, hsplit⟩ := split_append sep before after
  simp only [count, hbefore, hafter, hsplit, List.length_append, List.length_cons, List.length_nil]
  omega

end Single

end pieces
