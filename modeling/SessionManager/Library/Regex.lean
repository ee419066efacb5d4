import Mathlib.Data.List.Forall2
import Mathlib.Data.List.Infix
import Mathlib.Data.List.TakeWhile

/-- Regular expressions with groups. A repetition is over single characters,
greedy or lazy. -/
inductive Regex
  | empty
  | char (p : Char → Bool)
  | many (greedy : Bool) (p : Char → Bool)
  | seq (r t : Regex)
  | group (r : Regex)

namespace Regex

/-- The remainders after zero, one, two... characters of the class. -/
def runs (p : Char → Bool) : List Char → List (List Char)
  | [] => [[]]
  | c :: s => if p c then (c :: s) :: runs p s else [c :: s]

/-- The matches at the start of the text, in the order a backtracking engine
tries them: the texts of the groups and what is left. -/
def attempts : Regex → List Char → List (List (List Char) × List Char)
  | empty, s => [([], s)]
  | char _, [] => []
  | char p, c :: s => if p c then [([], s)] else []
  | many greedy p, s =>
    (if greedy then (runs p s).reverse else runs p s).map fun rest => ([], rest)
  | seq r t, s =>
    (attempts r s).flatMap fun a => (attempts t a.2).map fun b => (a.1 ++ b.1, b.2)
  | group r, s => (attempts r s).map fun a => (s.take (s.length - a.2.length) :: a.1, a.2)

/-- The match at the start of the text. -/
def first (r : Regex) (s : List Char) : Option (List (List Char) × List Char) := (r.attempts s).head?

/-- The scan of `findall`; the first argument counts the characters of the last
match still to be passed over. Meant for expressions that match no empty text. -/
def findall_from (r : Regex) : Nat → List Char → List (List (List Char))
  | _, [] => []
  | skip + 1, _ :: s => findall_from r skip s
  | 0, c :: s =>
    match r.first (c :: s) with
    | none => findall_from r 0 s
    | some (groups, rest) => groups :: findall_from r (s.length - rest.length) s

/-- The groups of every match, from left to right. -/
def findall (r : Regex) (s : List Char) : List (List (List Char)) := r.findall_from 0 s

/-- A property of the characters of a text is decided along the text, not over
all the characters there are. -/
instance (p : Char → Prop) [DecidablePred p] (s : List Char) : Decidable (∀ c ∈ s, p c) :=
  List.decidableBAll p s

/-- The characters of a word one after the other, each as the class `same` gives
it. -/
def literal (same : Char → Char → Bool) (w : List Char) : Regex :=
  w.foldr (fun c r => seq (char (same c)) r) empty

/-- The text is the word, each character up to `same`. -/
def Spells (same : Char → Char → Bool) : List Char → List Char → Prop :=
  List.Forall₂ fun c d => same c d = true

/-- The word occurs in the text. -/
def Contains (same : Char → Char → Bool) (w s : List Char) : Prop := ∃ u, u <:+: s ∧ Spells same w u

instance (same : Char → Char → Bool) (w u : List Char) : Decidable (Spells same w u) :=
  inferInstanceAs (Decidable (List.Forall₂ _ w u))

instance (same : Char → Char → Bool) (w s : List Char) : Decidable (Contains same w s) :=
  decidable_of_iff (∃ t ∈ s.tails, ∃ u ∈ t.inits, Spells same w u) <| by
    simp only [Contains, List.infix_iff_prefix_suffix, List.mem_tails, List.mem_inits]
    grind

/-- At least one character of the class, as many as possible. -/
def plus (p : Char → Bool) : Regex := seq (char p) (many true p)

variable {r t : Regex} {p : Char → Bool} {same : Char → Char → Bool} {s rest u : List Char} {c d : Char}
  {w : List Char} {groups : List (List Char)}

section Attempts

/-- Each character of what spells a word is that of a letter of the word, under the
comparison in use. -/
theorem Spells.mem (h : Spells same w u) (hd : d ∈ u) : ∃ c ∈ w, same c d = true := by
  induction h with
  | nil => cases hd
  | cons hsame _ ih =>
    rcases List.mem_cons.mp hd with rfl | hd
    · exact ⟨_, List.mem_cons_self, hsame⟩
    · obtain ⟨c, hc, hsame⟩ := ih hd
      exact ⟨c, List.mem_cons_of_mem _ hc, hsame⟩

/-- After the only match of `r` the sequence goes on with `t`, and has its groups behind
those of `r`. -/
theorem attempts_seq_of_single (h : r.attempts s = [(groups, rest)]) :
    (seq r t).attempts s = (t.attempts rest).map fun a => (groups ++ a.1, a.2) := by
  rw [attempts, h, List.flatMap_singleton]

/-- Where `r` does not match the sequence does not. -/
theorem attempts_seq_of_nil (h : r.attempts s = []) : (seq r t).attempts s = [] := by
  rw [attempts, h, List.flatMap_nil]

/-- A word is matched character by character. -/
theorem attempts_literal_cons : (literal same (c :: w)).attempts (d :: s) =
    if same c d then (literal same w).attempts s else [] := by
  change (seq (char (same c)) (literal same w)).attempts (d :: s) = _
  split
  · rename_i hsame
    have hchar : (char (same c)).attempts (d :: s) = [([], s)] := by rw [attempts, if_pos hsame]
    rw [attempts_seq_of_single hchar]
    simp
  · rename_i hsame
    exact attempts_seq_of_nil (by rw [attempts, if_neg hsame])

/-- A word matches what spells it and leaves the rest, in one way only. -/
theorem attempts_spelled (h : Spells same w u) : (literal same w).attempts (u ++ s) = [([], s)] := by
  induction h with
  | nil => rfl
  | cons hsame _ ih => rw [List.cons_append, attempts_literal_cons, if_pos hsame, ih]

/-- Where a word matches, the text spells it. -/
private theorem spells_of_attempts (h : (literal same w).attempts s ≠ []) :
    ∃ u rest, s = u ++ rest ∧ Spells same w u := by
  induction w generalizing s with
  | nil => exact ⟨[], s, rfl, .nil⟩
  | cons c w ih =>
    cases s with
    | nil => exact absurd rfl h
    | cons d s =>
      rw [attempts_literal_cons] at h
      split at h
      · rename_i hsame
        obtain ⟨u, rest, rfl, hspells⟩ := ih h
        exact ⟨d :: u, rest, rfl, .cons hsame hspells⟩
      · exact absurd rfl h

/-- A word does not match what spells another one, if in some place no character stands
for the letters of both. -/
theorem attempts_apart {w' : List Char} (h : Spells same w' u)
    (hapart : ∃ p ∈ w.zip w', ∀ e, same p.2 e = true → same p.1 e = false) :
    (literal same w).attempts (u ++ s) = [] := by
  induction h generalizing w with
  | nil => simp at hapart
  | @cons d e w' u hsame _ ih =>
    cases w with
    | nil => simp at hapart
    | cons c w =>
      rw [List.cons_append, attempts_literal_cons]
      obtain ⟨p, hp, hapart⟩ := hapart
      rcases List.mem_cons.mp hp with rfl | hp
      · rw [if_neg (by simp [hapart e hsame])]
      · rw [ih ⟨p, hp, hapart⟩, ite_self]

/-- A word matches itself where each of its letters stands for itself. -/
theorem attempts_literal (hsame : ∀ c ∈ w, same c c = true) :
    (literal same w).attempts (w ++ s) = [([], s)] :=
  attempts_spelled (List.forall₂_same.mpr hsame)

/-- Of the remainders, only the one after the longest run can be gone on with by
what starts with no character of the class. -/
private theorem flatMap_runs {β : Type} {f : List Char → List β} (hw : ∀ c ∈ w, p c = true)
    (hrest : ∀ c s, rest = c :: s → p c = false) (hf : ∀ c s, p c = true → f (c :: s) = []) :
    (runs p (w ++ rest)).reverse.flatMap f = f rest := by
  induction w with
  | nil =>
    cases rest with
    | nil => simp [runs]
    | cons c s => simp [runs, hrest c s rfl]
  | cons c w ih =>
    have hc : p c = true := hw c (by simp)
    rw [List.cons_append, runs, if_pos hc, List.reverse_cons, List.flatMap_append,
      ih fun c hc => hw c (by simp [hc])]
    simp [hf c (w ++ rest) hc]

private theorem attempts_plus (hc : p c = true) :
    (plus p).attempts (c :: s) = (runs p s).reverse.map fun rest => ([], rest) := by
  have hchar : (char p).attempts (c :: s) = [([], s)] := by rw [attempts, if_pos hc]
  rw [plus, attempts_seq_of_single hchar]
  simp [attempts]

/-- A run of a class does not match in front of a character outside it, or at the end of
the text. -/
theorem attempts_plus_of_not (hrest : ∀ c s, rest = c :: s → p c = false) :
    (plus p).attempts rest = [] := by
  apply attempts_seq_of_nil
  cases rest with
  | nil => rfl
  | cons c s => rw [attempts, if_neg (by simp [hrest c s rfl])]

/-- A run of a class is matched whole by what cannot go on within it, so there is no
backtracking. -/
theorem attempts_plus_seq (hnonempty : w ≠ []) (hw : ∀ c ∈ w, p c = true)
    (hrest : ∀ c s, rest = c :: s → p c = false) (ht : ∀ c s, p c = true → t.attempts (c :: s) = []) :
    (seq (plus p) t).attempts (w ++ rest) = t.attempts rest := by
  obtain ⟨c, w, rfl⟩ := List.exists_cons_of_ne_nil hnonempty
  rw [attempts, List.cons_append, attempts_plus (hw c (by simp)), List.flatMap_map]
  have hruns := flatMap_runs (p := p) (w := w) (f := fun rest => (t.attempts rest).map fun b =>
    (([] : List (List Char)) ++ b.1, b.2)) (fun c hc => hw c (by simp [hc])) hrest
    (fun c s hc => by simp [ht c s hc])
  rw [hruns]
  simp

/-- The group of such a run holds the whole run: a shorter match leaves a character
where the rest of the expression does not match. -/
theorem attempts_group_plus_seq (hnonempty : w ≠ []) (hw : ∀ c ∈ w, p c = true)
    (hrest : ∀ c s, rest = c :: s → p c = false) (ht : ∀ c s, p c = true → t.attempts (c :: s) = []) :
    (seq (group (plus p)) t).attempts (w ++ rest) =
      (t.attempts rest).map fun a => (w :: a.1, a.2) := by
  obtain ⟨c, w, rfl⟩ := List.exists_cons_of_ne_nil hnonempty
  rw [attempts, attempts, List.cons_append, attempts_plus (hw c (by simp)), List.map_map,
    List.flatMap_map]
  have hruns := flatMap_runs (p := p) (w := w) (f := fun s => (t.attempts s).map fun b =>
    ([(c :: (w ++ rest)).take ((c :: (w ++ rest)).length - s.length)] ++ b.1, b.2))
    (fun c hc => hw c (by simp [hc])) hrest (fun c s hc => by simp [ht c s hc])
  have htake : (c :: (w ++ rest)).take ((c :: (w ++ rest)).length - rest.length) = c :: w := by
    have hlength : (c :: (w ++ rest)).length - rest.length = (c :: w).length := by simp; omega
    rw [hlength, ← List.cons_append, List.take_left]
  rw [htake] at hruns
  exact hruns

end Attempts

section Search

private theorem first_seq : (seq r t).first s =
    (r.attempts s).findSome? fun a => (t.first a.2).map fun b => (a.1 ++ b.1, b.2) := by
  simp only [first, attempts, List.head?_flatMap, List.head?_map]

/-- The first match of a sequence, when `r` has one match only. -/
theorem first_seq_of_single (h : r.attempts s = [(groups, rest)]) : (seq r t).first s =
    (t.first rest).map fun b => (groups ++ b.1, b.2) := by
  rw [first_seq, h, List.findSome?_singleton]

/-- A sequence has no match where its first part has none. -/
theorem first_seq_of_nil (h : r.attempts s = []) : (seq r t).first s = none := by
  rw [first_seq, h, List.findSome?_nil]

/-- No match starts within `u` when `rest` follows it. -/
def Free (r : Regex) (u rest : List Char) : Prop :=
  ∀ v, v <:+ u → v ≠ [] → r.first (v ++ rest) = none

/-- A match starts with the character `c`. -/
def Starts (c : Char) (r : Regex) : Prop := ∀ d s, d ≠ c → r.first (d :: s) = none

/-- No match starts in two texts in a row if none starts in either, each before what
follows it. -/
theorem Free.append (hu : Free r u (w ++ rest)) (hw : Free r w rest) : Free r (u ++ w) rest := by
  rintro v ⟨before, hv⟩ hnonempty
  rcases List.append_eq_append_iff.mp hv with ⟨v', rfl, rfl⟩ | ⟨before', rfl, rfl⟩
  · cases v' with
    | nil => exact hw w List.suffix_rfl hnonempty
    | cons c v' =>
      rw [List.append_assoc]
      exact hu (c :: v') (List.suffix_append ..) (by simp)
  · exact hw v (List.suffix_append ..) hnonempty

/-- No match starts in a text if none does at its head and none in its tail. Texts are
shown free of matches along their characters. -/
theorem Free.cons (hfirst : r.first (c :: (u ++ rest)) = none) (hu : Free r u rest) :
    Free r (c :: u) rest := by
  intro v hv hnonempty
  rcases List.suffix_cons_iff.mp hv with rfl | hv
  · exact hfirst
  · exact hu v hv hnonempty

/-- Where no match of the first part starts, none of the sequence does. -/
theorem Free.seq (h : Free r u rest) : Free (seq r t) u rest := by
  intro v hv hnonempty
  refine first_seq_of_nil ?_
  rw [← List.head?_eq_none_iff]
  exact h v hv hnonempty

/-- What starts with one character starts nowhere in a text without that character,
whatever comes after the text. -/
theorem Starts.free (h : Starts c r) (hu : ∀ d ∈ u, d ≠ c) : Free r u rest := by
  intro v hv hnonempty
  obtain ⟨d, v, rfl⟩ := List.exists_cons_of_ne_nil hnonempty
  exact h d _ (hu d (hv.mem (by simp)))

/-- No match of a word starts in a text it does not occur in, when none of its
further letters is the next one after the text. -/
theorem free_literal (hu : ¬ Contains same w u)
    (hnext : ∀ d s, rest = d :: s → ∀ c ∈ w.tail, same c d = false) :
    Free (literal same w) u rest := by
  intro v hv hnonempty
  by_contra hfirst
  have hattempts : (literal same w).attempts (v ++ rest) ≠ [] := fun hnil => hfirst (by rw [first, hnil]; rfl)
  obtain ⟨x, after, hsplit, hspells⟩ := spells_of_attempts hattempts
  rcases List.append_eq_append_iff.mp hsplit with ⟨y, rfl, hrest⟩ | ⟨y, rfl, -⟩
  · cases y with
    | nil =>
      rw [List.append_nil] at hspells
      exact hu ⟨v, hv.isInfix, hspells⟩
    | cons d y =>
      obtain ⟨e, v, rfl⟩ := List.exists_cons_of_ne_nil hnonempty
      obtain ⟨c, w', -, hspells', rfl⟩ := List.forall₂_cons_right_iff.mp hspells
      obtain ⟨c', hc', hsame⟩ := Spells.mem hspells' (d := d) (by simp)
      rw [hnext d (y ++ after) hrest c' hc'] at hsame
      cases hsame
  · exact hu ⟨x, (List.prefix_append x y).isInfix.trans hv.isInfix, hspells⟩

private theorem findSome?_runs {β : Type} {f : List Char → Option β} {b : β}
    (hu : ∀ v, v <:+ u → v ≠ [] → f (v ++ rest) = none) (hrest : f rest = some b) :
    (runs (fun _ => true) (u ++ rest)).findSome? f = some b := by
  induction u with
  | nil => cases rest <;> simp [runs, hrest]
  | cons c u ih =>
    have hfirst : f (c :: (u ++ rest)) = none := hu (c :: u) List.suffix_rfl (by simp)
    rw [List.cons_append, runs, if_pos rfl, List.findSome?_cons, hfirst]
    exact ih fun v hv => hu v (hv.trans (List.suffix_cons c u))

/-- A lazy group of anything ends where the rest of the expression first matches, so it
holds a text in which no such match starts. -/
theorem first_lazy_seq (hu : Free t u rest) {after : List Char} (ht : t.first rest = some (groups, after)) :
    (seq (group (many false fun _ => true)) t).first (u ++ rest) = some (u :: groups, after) := by
  rw [first_seq, attempts, attempts, if_neg (by simp), List.map_map, List.findSome?_map]
  apply findSome?_runs
  · intro v hv hnonempty
    simp [hu v hv hnonempty]
  · have hlength : (u ++ rest).length - rest.length = u.length := by simp
    simp [ht]

@[simp] theorem findall_nil : r.findall [] = [] := rfl

private theorem findall_from_append (k : Nat) (hk : u.length = k) :
    findall_from r k (u ++ rest) = findall_from r 0 rest := by
  induction u generalizing k with
  | nil =>
    subst hk
    rfl
  | cons c u ih =>
    subst hk
    exact ih u.length rfl

/-- A search passes over a text in which no match starts. -/
theorem findall_free (hu : Free r u rest) : r.findall (u ++ rest) = r.findall rest := by
  induction u with
  | nil => rfl
  | cons c u ih =>
    have hfirst : r.first (c :: (u ++ rest)) = none := hu (c :: u) List.suffix_rfl (by simp)
    have hrest : Free r u rest := fun v hv => hu v (hv.trans (List.suffix_cons c u))
    rw [← ih hrest, findall, List.cons_append, findall_from, hfirst]
    rfl

/-- A search goes on behind a match, so matches do not overlap. An empty match is not
covered. -/
theorem findall_match (hnonempty : u ≠ []) (hfirst : r.first (u ++ rest) = some (groups, rest)) :
    r.findall (u ++ rest) = groups :: r.findall rest := by
  obtain ⟨c, u, rfl⟩ := List.exists_cons_of_ne_nil hnonempty
  rw [findall, List.cons_append, findall_from]
  rw [List.cons_append] at hfirst
  rw [hfirst]
  dsimp only
  rw [findall_from_append _ (by simp), findall]

end Search

end Regex

/-- Values with something before, between and behind them. -/
structure Separated (α β : Type) where
  lead : β
  pairs : List (α × β)

namespace Separated

variable {α β : Type} {f : α → List Char} {g : β → List Char} {r : Regex} {rest : List Char}

def values (t : Separated α β) : List α := t.pairs.map Prod.fst

/-- The text of all of it, given that of each part. -/
def text (f : α → List Char) (g : β → List Char) (t : Separated α β) : List Char :=
  g t.lead ++ t.pairs.flatMap fun p => f p.1 ++ g p.2

/-- No match starts in the whole if none starts in a part, in whatever surroundings the
part stands. -/
theorem free (t : Separated α β) (hf : ∀ a rest, r.Free (f a) rest) (hg : ∀ b rest, r.Free (g b) rest) :
    r.Free (t.text f g) rest := by
  obtain ⟨lead, pairs⟩ := t
  refine .append (hg lead _) ?_
  induction pairs with
  | nil =>
    intro v hv hnonempty
    exact absurd (List.suffix_nil.mp hv) hnonempty
  | cons p pairs ih => exact .append (.append (hf p.1 _) (hg p.2 _)) ih

/-- A search finds the values when each is a match and no match starts in what
stands between them. -/
theorem findall (t : Separated α β) {groups : α → List (List Char)} (hnonempty : ∀ a, f a ≠ [])
    (hfirst : ∀ a rest, r.first (f a ++ rest) = some (groups a, rest))
    (hnext : ∀ b a rest, r.Free (g b) (f a ++ rest)) (hlast : ∀ b, r.Free (g b) []) :
    r.findall (t.text f g) = t.values.map groups := by
  obtain ⟨lead, pairs⟩ := t
  unfold text values
  induction pairs generalizing lead with
  | nil => rw [List.flatMap_nil, Regex.findall_free (hlast lead)]; rfl
  | cons p pairs ih =>
    obtain ⟨a, b⟩ := p
    rw [List.flatMap_cons, List.append_assoc, Regex.findall_free (hnext lead a _),
      Regex.findall_match (hnonempty a) (hfirst a _), ih b]
    rfl

end Separated
