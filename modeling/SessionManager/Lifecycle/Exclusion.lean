import SessionManager.Lifecycle.Executors

open unit_of_work

namespace session_manager.lifecycle

variable {ρ π : Type}

/-- At most one run is live, it is the last one created, and none is live while
the session offers itself for the next task. -/
structure Exclusive (s : State ρ π) : Prop extends Executors s where
  one : ∀ r r', s.live r → s.live r' → r = r'
  ready : ∀ deleted, s.session = some (.READY, deleted) → ∀ r, ¬ s.live r
  known : ∀ r ∈ s.created, s.runs r ≠ none
  order : s.created.Pairwise fun r _ => ¬ s.live r

/-- There are no runs before the first step, so no two of them are live. -/
theorem Exclusive.initial : Exclusive (.initial : State ρ π) where
  toExecutors := .initial
  one r _ hlive := by simp [State.live, State.active, State.initial] at hlive
  ready _ hsession := by cases hsession
  known _ hr := by cases hr
  order := .nil

section Live

variable {s : State ρ π} {p : π} {r : ρ} {ph : Phase} {st : RunStatus}

/-- A run is live while somebody works on it, even when its status is final already.
This is what a cancelled run is until its executor notices. -/
theorem State.live_of_exec (hexec : s.views p = .exec r ph) (hworking : ph.working = true) :
    s.live r :=
  .inr ⟨p, ph, hexec, hworking⟩

private theorem State.live_of_active (hrun : s.runs r = some st) (hactive : st.active = true) : s.live r :=
  .inl ⟨st, hrun, hactive⟩

private theorem Phase.not_working_of_fits (hfits : ph.fits st = true)
    (hst : st = .COMPLETED ∨ st = .FAILED) : ph.working = false := by
  rcases hst with rfl | rfl <;> cases ph with
  | deciding loaded => cases loaded <;> simp [fits] at hfits
  | _ => simp_all [fits, working]

/-- A run that is COMPLETED or FAILED is over for its executor as well: at most the
report of it is left to do. -/
theorem Executors.not_live (h : Executors s) (hrun : s.runs r = some st)
    (hst : st = .COMPLETED ∨ st = .FAILED) : ¬ s.live r := by
  rintro (⟨st', hst', hactive⟩ | ⟨p, ph, hexec, hworking⟩)
  · rw [hrun, Option.some.injEq] at hst'
    subst hst'
    rcases hst with rfl | rfl <;> simp [RunStatus.active] at hactive
  · obtain ⟨st', hst', hfits⟩ := h.fits p r ph hexec
    rw [hrun, Option.some.injEq] at hst'
    subst hst'
    simp [Phase.not_working_of_fits hfits hst] at hworking

end Live

variable [DecidableEq ρ] [DecidableEq π] {s s' : State ρ π} {p : π} {kind : Kind ρ}

/-- COMPLETED and FAILED are final: nobody is at work on such a run, and a closing step
cancels active runs only. -/
theorem Executors.finished_move (h : Executors s) (hmove : Move p s kind s') {r : ρ}
    {st : RunStatus} (hrun : s.runs r = some st) (hst : st = .COMPLETED ∨ st = .FAILED) :
    s'.runs r = some st := by
  have hover := h.not_live hrun hst
  cases hmove.run_change r with
  | same hsame => exact hsame.trans hrun
  | submitted hsubmits => simp [hsubmits.fresh] at hrun
  | cancelled _ _ hactive => exact absurd (.inl hactive) hover
  | started hview | finished hview => exact absurd (State.live_of_exec hview rfl) hover

/-- The only phase without work is the one in which the end of the run is reported,
after it is committed. -/
theorem Phase.eq_tail_of_not_working {ph : Phase} (h : ¬ ph.working = true) : ph = .tail := by
  cases ph <;> simp_all [working]

/-- A run is live after a step only if it was before, or is the new one. The executors
stand apart before and after the step. -/
theorem Executors.live_cases (h : Executors s) (h' : Executors s') (hmove : Move p s kind s')
    {r : ρ} (hlive : s'.live r) : s.live r ∨ Submits s s' r := by
  rcases id hlive with ⟨st, hrun, hactive⟩ | ⟨q, ph, hexec, hworking⟩
  · cases hmove.run_change r with
    | same hsame => exact .inl (State.live_of_active (hsame.symm.trans hrun) hactive)
    | submitted hsubmits => exact .inr hsubmits
    | cancelled _ _ hactive => exact .inl (.inl hactive)
    | started hview | finished hview => exact .inl (State.live_of_exec hview rfl)
  · rcases hmove.exec_cases hexec with ⟨ph₀, hold⟩ | ⟨-, -, hrun, -⟩
    · refine .inl (State.live_of_exec hold ?_)
      by_contra htail
      obtain ⟨st, hrun, hfits⟩ := h.fits q r ph₀ hold
      have hst : st = .COMPLETED := by
        rw [Phase.eq_tail_of_not_working htail] at hfits
        cases st <;> simp_all [Phase.fits]
      exact h'.not_live (h.finished_move hmove hrun (.inl hst)) (.inl hst) hlive
    · exact .inl (State.live_of_active hrun rfl)

namespace Exclusive

variable (h : Exclusive s)
include h

private theorem move_one (h' : Executors s') (hmove : Move p s kind s') {r r' : ρ}
    (hr : s'.live r) (hr' : s'.live r') : r = r' := by
  rcases h.live_cases h' hmove hr with hold | hnew <;>
    rcases h.live_cases h' hmove hr' with hold' | hnew'
  · exact h.one r r' hold hold'
  · exact absurd hold (h.ready _ hnew'.ready r)
  · exact absurd hold' (h.ready _ hnew.ready r')
  · simpa using hnew.created.symm.trans hnew'.created

/-- Nothing comes to life while the session is not made RUNNING. -/
private theorem not_live_move (h' : Executors s') (hmove : Move p s kind s')
    (hnone : ∀ r, ¬ s.live r) {deleted : Bool} (hsession : s'.session = some (.READY, deleted))
    (r : ρ) : ¬ s'.live r := by
  intro hlive
  rcases h.live_cases h' hmove hlive with hold | hnew
  · exact hnone r hold
  · simp [hnew.session] at hsession

private theorem move_ready (h' : Executors s') (hmove : Move p s kind s')
    (hmark : kind = .mark → ∀ r, ¬ s.live r) {deleted : Bool}
    (hsession : s'.session = some (.READY, deleted)) (r : ρ) : ¬ s'.live r := by
  have hstays (hold : ∃ deleted, s.session = some (.READY, deleted)) : ¬ s'.live r :=
    h.not_live_move h' hmove (h.ready _ hold.choose_spec) hsession r
  cases hmove.session_change with
  | same hsame => exact hstays ⟨deleted, hsame.symm.trans hsession⟩
  | inserted _ hnew => simp [hnew] at hsession
  | marked hkind => exact h.not_live_move h' hmove (hmark hkind) hsession r
  | set hstatus hset =>
    rw [hset, State.set_eq_some_iff] at hsession
    rcases hstatus with rfl | rfl <;> simp at hsession
  | expired _ hset => simp [hset, State.set_eq_some_iff] at hsession
  | started _ _ hset => simp [hset, State.set_eq_some_iff] at hsession
  | submitted hsubmits => simp [hsubmits.session] at hsession
  | closed _ hstatus hset =>
    rw [hset] at hsession
    obtain ⟨x, hold, hx⟩ := Option.map_eq_some_iff.mp hsession
    rcases hstatus with hstatus | ⟨-, hstatus⟩ <;> simp [hstatus] at hx
    exact hstays ⟨x.2, hold.trans (by rw [← hx.1])⟩
  | @finished r₀ loaded old final hview hold hrun hfinal =>
    intro hlive
    rcases h.live_cases h' hmove hlive with hbefore | hnew
    · have hr : r = r₀ := h.one r r₀ hbefore (State.live_of_exec hview rfl)
      subst hr
      obtain ⟨st, -, hfits⟩ := h.fits p r _ hview
      obtain ⟨rfl, -⟩ := Phase.deciding_of_fits hfits
      rw [column_of_ne _ (by rcases hfinal with rfl | rfl <;> simp)] at hrun
      exact h'.not_live hrun hfinal hlive
    · simp [hnew.session] at hsession

private theorem move_known (hmove : Move p s kind s') {r : ρ} (hr : r ∈ s'.created) :
    s'.runs r ≠ none := by
  have hold : s.runs r ≠ none ∨ s'.runs r = some .PENDING := by
    rcases hmove.created_cases with hsame | ⟨r', hnew⟩
    · exact .inl (h.known r (hsame ▸ hr))
    · rw [hnew.created, List.mem_append, List.mem_singleton] at hr
      rcases hr with hr | rfl
      · exact .inl (h.known r hr)
      · exact .inr hnew.run
  cases hmove.run_change r with
  | same hsame =>
    rcases hold with hold | hold
    · rwa [hsame]
    · simp [hold]
  | submitted hsubmits => simp [hsubmits.run]
  | cancelled _ _ _ _ hrun => simp [hrun]
  | started _ _ hrun | finished _ _ hrun => simp [hrun]

private theorem move_order (h' : Executors s') (hmove : Move p s kind s') :
    s'.created.Pairwise fun r _ => ¬ s'.live r := by
  have hkeep : s.created.Pairwise fun r _ => ¬ s'.live r := by
    refine h.order.imp_of_mem fun {r r'} hr hr' hover hlive => ?_
    rcases h.live_cases h' hmove hlive with hold | hnew
    · exact hover hold
    · exact h.known r hr hnew.fresh
  rcases hmove.created_cases with hsame | ⟨r', hnew⟩
  · rwa [hsame]
  · rw [hnew.created, List.pairwise_append]
    refine ⟨hkeep, List.pairwise_singleton .., fun r hr _ _ hlive => ?_⟩
    rcases h.live_cases h' hmove hlive with hold | hnew'
    · exact h.ready _ hnew.ready r hold
    · exact h.known r hr hnew'.fresh

/-- The runs of a session stay apart as long as nobody makes it READY on old evidence
while a run is live. Only the marking step and the relapse need a hypothesis. -/
theorem move (hmove : Move p s kind s') (hrelapse : kind ≠ .relapse)
    (hmark : kind = .mark → ∀ r, ¬ s.live r) : Exclusive s' where
  toExecutors := h.toExecutors.move hmove hrelapse
  one _ _ := h.move_one (h.toExecutors.move hmove hrelapse) hmove
  ready _ := h.move_ready (h.toExecutors.move hmove hrelapse) hmove hmark
  known _ := h.move_known hmove
  order := h.move_order (h.toExecutors.move hmove hrelapse) hmove

end Exclusive

end session_manager.lifecycle
