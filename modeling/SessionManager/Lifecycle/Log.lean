import SessionManager.Lifecycle.Move

namespace session_manager.lifecycle

/-- The place of an event in the block of its run. -/
inductive Mark
  | opening
  | inner
  | closing
deriving DecidableEq

/-- An event of a run as the log of its session sees it. -/
structure Entry (ρ : Type) where
  id : Nat
  run : ρ
  mark : Mark
deriving DecidableEq

/-- What a task holds of the log: nothing, an id it has taken for an entry, or a
run it has ended without having taken the id of its last entry. -/
inductive Pen (ρ : Type)
  | down
  | holding (run : ρ) (id : Nat) (mark : Mark)
  | due (run : ρ)
deriving DecidableEq

/-- The event log of one session. Ids are given out in order, while the entries
appear in the order of their commits. -/
structure Log (ρ π : Type) where
  entries : List (Entry ρ)
  next : Nat
  pens : π → Pen ρ

variable {ρ π : Type}

def Log.initial : Log ρ π := { entries := [], next := 1, pens := fun _ => .down }

/-- The pens of a task in view of what it may still do to the session. -/
inductive Pen.Fits : View ρ → Pen ρ → Prop
  | down (v : View ρ) : Fits v .down
  | opening (r : ρ) (id : Nat) : Fits (.exec r .starting) (.holding r id .opening)
  | emitted (r : ρ) (id : Nat) : Fits (.exec r .running) (.holding r id .inner)
  | message (r : ρ) (id : Nat) (loaded : RunStatus) :
      Fits (.exec r (.deciding loaded)) (.holding r id .inner)
  | failed (r : ρ) (id : Nat) (loaded : RunStatus) :
      Fits (.exec r (.deciding loaded)) (.holding r id .closing)
  | completed (r : ρ) (id : Nat) : Fits (.exec r .tail) (.holding r id .closing)
  | due (r : ρ) : Fits (.exec r .tail) (.due r)

/-- The executor behind a held id: it is starting its run just when the id is to open
the block of the run. -/
theorem Pen.Fits.exec_of_holding {v : View ρ} {pen : Pen ρ} (h : Pen.Fits v pen) {r : ρ} {id : Nat}
    {mark : Mark} (hpen : pen = .holding r id mark) :
    ∃ ph, v = .exec r ph ∧ (mark = .opening ↔ ph = .starting) := by
  cases h <;> cases hpen <;> exact ⟨_, rfl, by simp⟩

variable [DecidableEq π]

/-- What a step of task `p` that takes the session from `s` to `s'` does to its
log. Nobody takes the first id of a run while the last one of another run is
due. -/
inductive Write (p : π) (s s' : State ρ π) (g : Log ρ π) : Log ρ π → Prop
  | rest {next : Nat} {pen : Pen ρ} (hnext : g.next ≤ next) (hpen : pen = .down ∨ pen = g.pens p)
      (hstarting : ∀ r ph, s.views p = .exec r .starting → s'.views p = .exec r ph → ph = .starting) :
      Write p s s' g { g with next := next, pens := Function.update g.pens p pen }
  | take {r : ρ} {ph : Phase} {mark : Mark} (hview : s.views p = .exec r ph)
      (hsame : s'.views p = s.views p) (hmark : mark = .opening ↔ ph = .starting)
      (hdue : ph = .tail → g.pens p = .due r)
      (hreported : mark = .opening → ∀ q r', g.pens q ≠ .due r') :
      Write p s s' g
        { g with
          next := g.next + 1
          pens := Function.update g.pens p (.holding r g.next mark) }
  | write {r : ρ} {id : Nat} {mark : Mark} {pen : Pen ρ} (hpen : g.pens p = .holding r id mark)
      (hopening : mark = .opening → s'.views p = .exec r .running)
      (hclosing : mark = .closing → pen = .down ∧ ∀ ph, s'.views p = .exec r ph → ph = .tail)
      (hdue : pen = .down ∨ pen = .due r ∧ ∃ loaded, s.views p = .exec r (.deciding loaded)) :
      Write p s s' g
        { g with
          entries := g.entries ++ [⟨id, r, mark⟩]
          pens := Function.update g.pens p pen }

namespace Write

variable {p q : π} {s s' : State ρ π} {g g' : Log ρ π}

/-- The pens of the other tasks stay as they are; only the writer's own pen is moved. -/
theorem pens_of_ne (h : Write p s s' g g') (hq : q ≠ p) : g'.pens q = g.pens q := by
  cases h <;> exact Function.update_of_ne hq _ _

/-- The counter of the ids never goes back, also when the commit that was to use an id
fails: an id is handed out at most once. -/
theorem next_le (h : Write p s s' g g') : g.next ≤ g'.next := by
  cases h with
  | rest hnext => exact hnext
  | take => exact Nat.le_succ _
  | write => exact Nat.le_refl _

/-- Entries stay: whatever has been written is there after every step, and under the
same id. -/
theorem entries_subset (h : Write p s s' g g') {e : Entry ρ} (he : e ∈ g.entries) :
    e ∈ g'.entries := by
  cases h with
  | rest | take => exact he
  | write => exact List.mem_append_left _ he

/-- The step in which task `p` writes an entry under the id it held. -/
structure Wrote (p : π) (s' : State ρ π) (g g' : Log ρ π) (e : Entry ρ) : Prop where
  held : g.pens p = .holding e.run e.id e.mark
  dropped : ∀ r id mark, g'.pens p ≠ .holding r id mark
  opening : e.mark = .opening → s'.views p = .exec e.run .running
  closing : e.mark = .closing → g'.pens p = .down ∧ ∀ ph, s'.views p = .exec e.run ph → ph = .tail

omit [DecidableEq π] in
/-- Two entries written in one step are one, because a task has one pen and a step
writes with it at most once. -/
theorem Wrote.id_eq {e e' : Entry ρ} (h : Wrote p s' g g' e) (h' : Wrote p s' g g' e') :
    e.id = e'.id := by
  have heq := h.held.symm.trans h'.held
  rw [Pen.holding.injEq] at heq
  exact heq.2.1

/-- An entry was there before, or is the one that this step writes. Nothing is ever
taken from the log. -/
theorem entry_cases (h : Write p s s' g g') {e : Entry ρ} (he : e ∈ g'.entries) :
    e ∈ g.entries ∨ Wrote p s' g g' e := by
  cases h with
  | rest | take => exact .inl he
  | write hpen hopening hclosing hdue =>
    rcases List.mem_append.mp he with hold | hnew
    · exact .inl hold
    · obtain rfl := List.mem_singleton.mp hnew
      refine .inr ⟨hpen, fun r id mark => ?_, hopening, by simpa using hclosing⟩
      simp only [Function.update_self]
      rcases hdue with rfl | ⟨rfl, -⟩ <;> simp

/-- A held id was held before, or has just been taken from the counter; what the taker
is at work on then says which mark it may write. -/
theorem holding_cases (h : Write p s s' g g') {r : ρ} {id : Nat} {mark : Mark}
    (hpen : g'.pens q = .holding r id mark) :
    g.pens q = .holding r id mark ∨
    q = p ∧ id = g.next ∧ g'.next = g.next + 1 ∧ g'.entries = g.entries ∧
      ∃ ph, s.views p = .exec r ph ∧ (mark = .opening ↔ ph = .starting) ∧
        (ph = .tail → g.pens p = .due r) ∧ (mark = .opening → ∀ q r', g.pens q ≠ .due r') := by
  rcases ne_or_eq q p with hq | rfl
  · exact .inl (h.pens_of_ne hq ▸ hpen)
  cases h with
  | rest _ hold =>
    simp only [Function.update_self] at hpen
    rcases hold with rfl | rfl
    · cases hpen
    · exact .inl hpen
  | take hview _ hmark hdue hreported =>
    simp only [Function.update_self] at hpen
    cases hpen
    exact .inr ⟨rfl, rfl, rfl, rfl, _, hview, hmark, hdue, hreported⟩
  | write _ _ _ hdue =>
    simp only [Function.update_self] at hpen
    rcases hdue with rfl | ⟨rfl, -⟩ <;> cases hpen

/-- A run is due whose end has just been decided, or was due before. Nobody else turns
to it. -/
theorem due_cases (h : Write p s s' g g') {r : ρ} (hpen : g'.pens q = .due r) :
    g.pens q = .due r ∨ ∃ loaded, s.views q = .exec r (.deciding loaded) := by
  rcases ne_or_eq q p with hq | rfl
  · exact .inl (h.pens_of_ne hq ▸ hpen)
  cases h with
  | rest _ hold =>
    simp only [Function.update_self] at hpen
    rcases hold with rfl | rfl
    · cases hpen
    · exact .inl hpen
  | take => simp at hpen
  | write _ _ _ hdue =>
    simp only [Function.update_self] at hpen
    rcases hdue with rfl | ⟨rfl, hview⟩ <;> cases hpen
    exact .inr hview

end Write

end session_manager.lifecycle
