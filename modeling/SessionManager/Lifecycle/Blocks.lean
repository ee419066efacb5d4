import SessionManager.Lifecycle.Exclusion
import SessionManager.Lifecycle.Tickets

namespace session_manager.lifecycle

variable {ρ π : Type}

/-- The run has the id, or an executor holds it for the run. -/
def Log.has (g : Log ρ π) (r : ρ) (id : Nat) : Prop :=
  (∃ e ∈ g.entries, e.run = r ∧ e.id = id) ∨ ∃ p mark, g.pens p = .holding r id mark

/-- The block of `r` lies before the one of `r'`, and is complete once that one
has begun. -/
structure Before (g : Log ρ π) (r r' : ρ) : Prop where
  ne : r ≠ r'
  lt : ∀ id id', g.has r id → g.has r' id' → id < id'
  reported : ∀ id', g.has r' id' → ∀ p, g.pens p ≠ .due r

/-- The log of a session is a sequence of blocks, one for each run. -/
structure Blocks (s : State ρ π) (g : Log ρ π) : Prop extends Tickets g where
  begun : ∀ e ∈ g.entries, s.begun e.run
  own : ∀ p r id mark, g.pens p = .holding r id mark → ∀ e ∈ g.entries, e.run = r → e.id < id
  logged : ∀ p r ph, s.views p = .exec r ph → ph ≠ .starting → ∃ e ∈ g.entries, e.run = r
  opened : ∀ e ∈ g.entries, ∃ e₀ ∈ g.entries, e₀.run = e.run ∧ e₀.mark = .opening
  first : ∀ e ∈ g.entries, e.mark = .opening → ∀ e' ∈ g.entries, e'.run = e.run → e.id ≤ e'.id
  last : ∀ e ∈ g.entries, e.mark = .closing → ∀ e' ∈ g.entries, e'.run = e.run → e'.id ≤ e.id
  silent : ∀ e ∈ g.entries, e.mark = .closing → ∀ p ph, s.views p = .exec e.run ph →
    ph = .tail ∧ g.pens p = .down
  order : s.created.Pairwise (Before g)

/-- The empty log is a sequence of no blocks, and nobody has a block to go on with. -/
theorem Blocks.initial : Blocks (.initial : State ρ π) .initial where
  toTickets := .initial
  begun _ he := by cases he
  own _ _ _ _ hpen := by cases hpen
  logged _ _ _ hview := by cases hview
  opened _ he := by cases he
  first _ he := by cases he
  last _ he := by cases he
  silent _ he := by cases he
  order := .nil

variable [DecidableEq π] {p : π} {s s' : State ρ π} {g g' : Log ρ π}

namespace Blocks

section Write

variable (hexecutors : Executors s) (hfits : ∀ q, Pen.Fits (s.views q) (g.pens q))

omit [DecidableEq π] in
include hexecutors hfits in
/-- The run an id is held for has begun, unless its executor is just starting it. -/
private theorem begun_of_holding {q : π} {r : ρ} {id : Nat} {mark : Mark}
    (hpen : g.pens q = .holding r id mark) (hmark : mark ≠ .opening) : s.begun r := by
  obtain ⟨ph, hview, hph⟩ := (hfits q).exec_of_holding hpen
  exact hexecutors.begun hview fun hstarting => hmark (hph.mpr hstarting)

variable (h : Blocks s g)

omit [DecidableEq π] in
include hexecutors hfits h in
/-- Nothing is logged of a run whose first id is held. -/
private theorem not_logged {q : π} {r : ρ} {id : Nat} (hpen : g.pens q = .holding r id .opening)
    {e : Entry ρ} (he : e ∈ g.entries) : e.run ≠ r := by
  rintro rfl
  obtain ⟨ph, hview, hph⟩ := (hfits q).exec_of_holding hpen
  obtain ⟨st, hst, hfit⟩ := hexecutors.fits q _ ph hview
  obtain ⟨st', hst', hpending⟩ := h.begun e he
  rw [hst, Option.some.injEq] at hst'
  subst hst'
  rw [hph.mp rfl] at hfit
  cases st <;> simp_all [Phase.fits]

variable (hwrite : Write p s s' g g')
include hfits h hwrite

include hexecutors in
private theorem write_own {q : π} {r : ρ} {id : Nat} {mark : Mark}
    (hpen : g'.pens q = .holding r id mark) {e : Entry ρ} (he : e ∈ g'.entries) (hrun : e.run = r) :
    e.id < id := by
  rcases hwrite.holding_cases hpen with hold | ⟨-, rfl, -, hentries, -⟩
  · rcases hwrite.entry_cases he with hbefore | hwrote
    · exact h.own _ _ _ _ hold e hbefore hrun
    · subst hrun
      obtain ⟨ph, hview, -⟩ := (hfits q).exec_of_holding hold
      obtain ⟨ph', hview', -⟩ := (hfits p).exec_of_holding hwrote.held
      obtain rfl := hexecutors.alone _ _ _ _ _ hview hview'
      exact absurd hpen (hwrote.dropped _ _ _)
  · exact h.below e (hentries ▸ he)

private theorem write_opened {e : Entry ρ} (he : e ∈ g'.entries) :
    ∃ e₀ ∈ g'.entries, e₀.run = e.run ∧ e₀.mark = .opening := by
  have hkeep {e : Entry ρ} (he : e ∈ g.entries) :
      ∃ e₀ ∈ g'.entries, e₀.run = e.run ∧ e₀.mark = .opening := by
    obtain ⟨e₀, he₀, hopening⟩ := h.opened e he
    exact ⟨e₀, hwrite.entries_subset he₀, hopening⟩
  rcases hwrite.entry_cases he with hold | hwrote
  · exact hkeep hold
  by_cases hmark : e.mark = .opening
  · exact ⟨e, he, rfl, hmark⟩
  · obtain ⟨ph, hview, hph⟩ := (hfits p).exec_of_holding hwrote.held
    obtain ⟨e₁, he₁, hrun⟩ := h.logged p _ ph hview fun hstarting => hmark (hph.mpr hstarting)
    exact hrun ▸ hkeep he₁

include hexecutors in
private theorem write_first {e e' : Entry ρ} (he : e ∈ g'.entries) (hmark : e.mark = .opening)
    (he' : e' ∈ g'.entries) (hrun : e'.run = e.run) : e.id ≤ e'.id := by
  rcases hwrite.entry_cases he with hold | hwrote <;>
    rcases hwrite.entry_cases he' with hold' | hwrote'
  · exact h.first e hold hmark e' hold' hrun
  · exact Nat.le_of_lt (h.own _ _ _ _ hwrote'.held e hold hrun.symm)
  · exact absurd hrun (h.not_logged hexecutors hfits (hmark ▸ hwrote.held) hold')
  · exact Nat.le_of_eq (hwrote.id_eq hwrote')

private theorem write_last {e e' : Entry ρ} (he : e ∈ g'.entries) (hmark : e.mark = .closing)
    (he' : e' ∈ g'.entries) (hrun : e'.run = e.run) : e'.id ≤ e.id := by
  rcases hwrite.entry_cases he with hold | hwrote <;>
    rcases hwrite.entry_cases he' with hold' | hwrote'
  · exact h.last e hold hmark e' hold' hrun
  · obtain ⟨ph, hview, -⟩ := (hfits p).exec_of_holding hwrote'.held
    have hdown := (h.silent e hold hmark p ph (hrun ▸ hview)).2
    simp [hwrote'.held] at hdown
  · exact Nat.le_of_lt (h.own _ _ _ _ hwrote.held e' hold' hrun)
  · exact Nat.le_of_eq (hwrote'.id_eq hwrote)

end Write

section Move

variable [DecidableEq ρ] {kind : Kind ρ} (hexecutors : Executors s)
  (hfits : ∀ q, Pen.Fits (s.views q) (g.pens q)) (h : Blocks s g) (hwrite : Write p s s' g g')
  (hmove : Move p s kind s')
include hfits h hwrite hmove

include hexecutors in
private theorem move_begun (hexecutors' : Executors s') {e : Entry ρ} (he : e ∈ g'.entries) :
    s'.begun e.run := by
  rcases hwrite.entry_cases he with hold | hwrote
  · exact hmove.begun (h.begun e hold)
  by_cases hmark : e.mark = .opening
  · exact hexecutors'.begun (hwrote.opening hmark) (by simp)
  · exact hmove.begun (begun_of_holding hexecutors hfits hwrote.held hmark)

private theorem move_logged {q : π} {r : ρ} {ph : Phase} (hview : s'.views q = .exec r ph)
    (hph : ph ≠ .starting) : ∃ e ∈ g'.entries, e.run = r := by
  rcases hmove.exec_cases hview with ⟨ph₀, hold⟩ | ⟨-, hstarting, -⟩
  swap
  · exact absurd hstarting hph
  by_cases hph₀ : ph₀ = .starting
  swap
  · obtain ⟨e, he, hrun⟩ := h.logged q r ph₀ hold hph₀
    exact ⟨e, hwrite.entries_subset he, hrun⟩
  subst hph₀
  rcases ne_or_eq q p with hq | rfl
  · rw [hmove.views_of_ne hq, hold, View.exec.injEq] at hview
    exact absurd hview.2.symm hph
  cases hwrite with
  | rest _ _ hstarting => exact absurd (hstarting r ph hold hview) hph
  | take _ hsame =>
    rw [hsame, hold, View.exec.injEq] at hview
    exact absurd hview.2.symm hph
  | write hpen =>
    obtain ⟨ph', hview', -⟩ := (hfits q).exec_of_holding hpen
    rw [hold, View.exec.injEq] at hview'
    exact ⟨_, List.mem_append_right _ (List.mem_singleton_self _), hview'.1.symm⟩

include hexecutors in
private theorem move_silent (hrelapse : kind ≠ .relapse) {e : Entry ρ} (he : e ∈ g'.entries)
    (hmark : e.mark = .closing) {q : π} {ph : Phase} (hview : s'.views q = .exec e.run ph) :
    ph = .tail ∧ g'.pens q = .down := by
  rcases hwrite.entry_cases he with hold | hwrote
  · obtain ⟨ph₀, hold'⟩ := hmove.exec_of_begun (h.begun e hold) hview
    obtain ⟨rfl, hdown⟩ := h.silent e hold hmark q ph₀ hold'
    refine ⟨hmove.tail_cases hrelapse hold' hview, ?_⟩
    rcases ne_or_eq q p with hq | rfl
    · exact (hwrite.pens_of_ne hq).trans hdown
    cases hwrite with
    | rest _ hpen => rcases hpen with rfl | rfl <;> simp [hdown]
    | take hexec _ _ hdue =>
      rw [hold', View.exec.injEq] at hexec
      simp [hdue hexec.2.symm] at hdown
    | write hpen => simp [hpen] at hdown
  · have hopening : e.mark ≠ .opening := by simp [hmark]
    have hbegun := begun_of_holding hexecutors hfits hwrote.held hopening
    obtain ⟨ph₀, hold⟩ := hmove.exec_of_begun hbegun hview
    obtain ⟨ph', hview', -⟩ := (hfits p).exec_of_holding hwrote.held
    obtain rfl := hexecutors.alone _ _ _ _ _ hold hview'
    obtain ⟨hdown, htail⟩ := hwrote.closing hmark
    exact ⟨htail ph hview, hdown⟩

end Move

section Order

variable (h : Blocks s g) (hwrite : Write p s s' g g')

omit [DecidableEq π] in
private theorem has_lt (h : Blocks s g) {r : ρ} {id : Nat} (hhas : g.has r id) : id < g.next := by
  rcases hhas with ⟨e, he, -, rfl⟩ | ⟨q, mark, hpen⟩
  · exact h.below e he
  · exact h.held_below _ _ _ _ hpen

/-- A run gets no id but the next one. -/
private theorem has_cases (hwrite : Write p s s' g g') {r : ρ} {id : Nat} (hhas : g'.has r id) :
    g.has r id ∨ id = g.next ∧ ∃ mark ph, g'.pens p = .holding r id mark ∧
      s.views p = .exec r ph ∧ (mark = .opening ↔ ph = .starting) ∧
      (ph = .tail → g.pens p = .due r) ∧ (mark = .opening → ∀ q r', g.pens q ≠ .due r') := by
  rcases hhas with ⟨e, he, rfl, rfl⟩ | ⟨q, mark, hpen⟩
  · rcases hwrite.entry_cases he with hold | hwrote
    · exact .inl (.inl ⟨e, hold, rfl, rfl⟩)
    · exact .inl (.inr ⟨p, e.mark, hwrote.held⟩)
  · rcases hwrite.holding_cases hpen with hold | ⟨rfl, hid, -, -, ph, htaken⟩
    · exact .inl (.inr ⟨q, mark, hold⟩)
    · exact .inr ⟨hid, mark, ph, hpen, htaken⟩

include h hwrite in
/-- The block of a run that nobody works on any more stays before the later ones. -/
private theorem Before.write {r r' : ρ} (hbefore : Before g r r') (hover : ¬ s.live r) :
    Before g' r r' where
  ne := hbefore.ne
  lt id id' hid hid' := by
    rcases has_cases hwrite hid with hold | ⟨rfl, mark, ph, hpen, hview, -, hdue, -⟩ <;>
      rcases has_cases hwrite hid' with hold' | ⟨rfl, mark', ph', hpen', -⟩
    · exact hbefore.lt id id' hold hold'
    · exact has_lt h hold
    · have hph : ph = .tail :=
        Phase.eq_tail_of_not_working fun hworking => hover (State.live_of_exec hview hworking)
      exact absurd (hdue hph) (hbefore.reported id' hold' p)
    · rw [hpen, Pen.holding.injEq] at hpen'
      exact absurd hpen'.1 hbefore.ne
  reported id' hid' q hdue := by
    rcases hwrite.due_cases hdue with hold | ⟨loaded, hview⟩
    swap
    · exact hover (State.live_of_exec hview rfl)
    rcases has_cases hwrite hid' with hold' | ⟨-, mark, ph, -, hview, hmark, -, hreported⟩
    · exact hbefore.reported id' hold' q hold
    by_cases hopening : mark = .opening
    · exact hreported hopening q r hold
    · obtain ⟨e, he, hrun⟩ := h.logged p r' ph hview fun hph => hopening (hmark.mpr hph)
      exact hbefore.reported e.id (.inl ⟨e, he, hrun, rfl⟩) q hold

/-- A run that has just been submitted has no id. -/
private theorem not_has_of_fresh (h : Blocks s g) (hwrite : Write p s s' g g')
    (hexecutors : Executors s) (hfits : ∀ q, Pen.Fits (s.views q) (g.pens q)) {r : ρ}
    (hfresh : s.runs r = none) (id : Nat) : ¬ g'.has r id := by
  have hexec (q : π) (ph : Phase) : s.views q ≠ .exec r ph := by
    intro hview
    obtain ⟨st, hst, -⟩ := hexecutors.fits q r ph hview
    simp [hfresh] at hst
  intro hhas
  rcases has_cases hwrite hhas with (⟨e, he, rfl, -⟩ | ⟨q, mark, hpen⟩) | ⟨-, mark, ph, -, hview, -⟩
  · obtain ⟨st, hst, -⟩ := h.begun e he
    simp [hfresh] at hst
  · obtain ⟨ph, hview, -⟩ := (hfits q).exec_of_holding hpen
    exact hexec q ph hview
  · exact hexec p ph hview

variable [DecidableEq ρ] {kind : Kind ρ}

private theorem move_order (h : Blocks s g) (hwrite : Write p s s' g g') (hexclusive : Exclusive s)
    (hfits : ∀ q, Pen.Fits (s.views q) (g.pens q)) (hmove : Move p s kind s') :
    s'.created.Pairwise (Before g') := by
  have hkeep : s.created.Pairwise (Before g') :=
    (h.order.and hexclusive.order).imp fun ⟨hbefore, hover⟩ => Before.write h hwrite hbefore hover
  rcases hmove.created_cases with hsame | ⟨r', hnew⟩
  · rwa [hsame]
  have hnone := not_has_of_fresh h hwrite hexclusive.toExecutors hfits hnew.fresh
  rw [hnew.created, List.pairwise_append]
  refine ⟨hkeep, List.pairwise_singleton .., fun r hr r'' hr'' => ?_⟩
  obtain rfl := List.mem_singleton.mp hr''
  constructor
  case ne =>
    rintro rfl
    exact hexclusive.known r hr hnew.fresh
  case lt => exact fun _ id' _ hid' => absurd hid' (hnone id')
  case reported => exact fun id' hid' => absurd hid' (hnone id')

/-- The log stays a sequence of blocks as long as the runs of the session stay apart.
That every pen fits the view of its task is all that is needed of the writers. -/
theorem move (h : Blocks s g) (hexclusive : Exclusive s) (hexclusive' : Exclusive s')
    (hfits : ∀ q, Pen.Fits (s.views q) (g.pens q)) (hmove : Move p s kind s')
    (hrelapse : kind ≠ .relapse) (hwrite : Write p s s' g g') : Blocks s' g' where
  toTickets := h.toTickets.write hwrite
  begun _ := move_begun hexclusive.toExecutors hfits h hwrite hmove hexclusive'.toExecutors
  own _ _ _ _ hpen _ := write_own hexclusive.toExecutors hfits h hwrite hpen
  logged _ _ _ := move_logged hfits h hwrite hmove
  opened _ := write_opened hfits h hwrite
  first _ he hmark _ := write_first hexclusive.toExecutors hfits h hwrite he hmark
  last _ he hmark _ := write_last hfits h hwrite he hmark
  silent _ he hmark _ _ := move_silent hexclusive.toExecutors hfits h hwrite hmove hrelapse he hmark
  order := h.move_order hwrite hexclusive hfits hmove

end Order

end Blocks

end session_manager.lifecycle
