import SessionManager.Lifecycle.Closing

namespace session_manager.lifecycle

variable {ρ π : Type}

/-- The statuses of a session that takes no further task. -/
def finished : SessionStatus → Bool
  | .STOPPING | .STOPPED | .FAILED | .EXPIRED => true
  | .CREATING | .READY | .RUNNING => false

/-- A session that is over, and that no task is about to make READY or RUNNING
again: nobody acts on a CREATING copy, no run is active, and no executor has
checked its run before the session ended. -/
structure Sealed (s : State ρ π) : Prop where
  status : ∃ status deleted, s.session = some (status, deleted) ∧ finished status = true
  inactive : ∀ r, ¬ s.active r
  unmarked : ∀ p, s.views p ≠ .marker
  undecided : ∀ p r loaded, s.views p ≠ .exec r (.deciding loaded)

section Move

variable [DecidableEq ρ] [DecidableEq π] {s s' : State ρ π} {p : π} {kind : Kind ρ}

section Sealed

variable (h : Sealed s)
include h

omit [DecidableEq ρ] [DecidableEq π] in
/-- A sealed session has a finished status, deleted or not: any other status is not its
own. -/
theorem Sealed.session_ne {status : SessionStatus} (hstatus : finished status = false)
    (deleted : Bool) : s.session ≠ some (status, deleted) := by
  obtain ⟨st, del, hsession, hover⟩ := h.status
  rw [hsession]
  rintro ⟨⟩
  simp [hstatus] at hover

private theorem Sealed.move_status (hmove : Move p s kind s') :
    ∃ status deleted, s'.session = some (status, deleted) ∧ finished status = true := by
  obtain ⟨st, del, hsession, hover⟩ := h.status
  cases hmove.session_change with
  | same hsame => exact ⟨st, del, hsame.trans hsession, hover⟩
  | inserted hnone => simp [hnone] at hsession
  | marked _ hview => exact absurd hview (h.unmarked p)
  | set hstatus hset =>
    refine ⟨_, del, hset.trans (State.set_eq_some_iff.mpr ⟨rfl, st, hsession⟩), ?_⟩
    rcases hstatus with rfl | rfl <;> rfl
  | expired _ hset =>
    exact ⟨_, del, hset.trans (State.set_eq_some_iff.mpr ⟨rfl, st, hsession⟩), rfl⟩
  | @closed _ status delete _ hstatus hset =>
    refine ⟨status st, del || delete, by simp [hset, hsession], ?_⟩
    rcases hstatus with hstatus | ⟨-, hstatus⟩ <;> rw [hstatus]
    · rfl
    · exact hover
  | submitted hsubmits => exact absurd hsubmits.ready (h.session_ne rfl _)
  | started _ hrun => exact absurd ⟨_, hrun, rfl⟩ (h.inactive _)
  | finished hview => exact absurd hview (h.undecided p _ _)

/-- A sealed session stays sealed: with its runs settled and nobody left to mark it, no
step finds what it needs to revive it. -/
theorem Sealed.move (hexec : Executors s) (hmove : Move p s kind s') : Sealed s' where
  status := h.move_status hmove
  inactive r hactive := by
    rcases hmove.active_cases hactive with hold | hnew
    · exact h.inactive r hold
    · exact h.session_ne rfl _ hnew.ready
  unmarked q hview := by
    rcases hmove.marker_cases hview with hold | hnone | ⟨deleted, hcreating⟩
    · exact h.unmarked q hold
    · obtain ⟨_, _, hsome, -⟩ := h.status
      simp [hnone] at hsome
    · exact h.session_ne rfl _ hcreating
  undecided q r loaded hview := by
    rcases hmove.deciding_cases hview with hold | ⟨hold, hrun, hloaded⟩
    · exact h.undecided q r loaded hold
    · obtain ⟨st, hst, hfits⟩ := hexec.fits q r _ hold
      rw [hrun, Option.some.injEq] at hst
      subst hst
      have hactive : loaded.active = true := by
        cases loaded <;> simp_all [Phase.fits, RunStatus.active]
      exact h.inactive r ⟨loaded, hrun, hactive⟩

end Sealed

/-- Whoever ends the session cancels its active runs and leaves nobody behind who
could revive it. -/
structure Ends (p : π) (s : State ρ π) (ids : List ρ) : Prop where
  active : ∀ r, s.active r → r ∈ ids
  unmarked : ∀ q, q ≠ p → s.views q ≠ .marker
  undecided : ∀ q r loaded, s.views q ≠ .exec r (.deciding loaded)

private theorem Ends.sealed {ids : List ρ} (hends : Ends p s ids) (hmove : Move p s kind s')
    (hidle : s'.views p = .idle) (hcancelled : ∀ r ∈ ids, s'.runs r = some .CANCELLED)
    (hstatus : ∃ status deleted, s'.session = some (status, deleted) ∧ finished status = true) :
    Sealed s' where
  status := hstatus
  inactive r hactive := by
    rcases hmove.active_cases hactive with hold | hnew
    · obtain ⟨st, hrun, hst⟩ := hactive
      rw [hcancelled r (hends.active r hold), Option.some.injEq] at hrun
      subst hrun
      simp [RunStatus.active] at hst
    · obtain ⟨st, deleted, hsession, hover⟩ := hstatus
      rw [hnew.session] at hsession
      cases hsession
      simp [finished] at hover
  unmarked q hview := by
    by_cases hq : q = p
    · simp [hq, hidle] at hview
    · exact hends.unmarked q hq (hmove.views_of_ne hq ▸ hview)
  undecided q r loaded hview := by
    by_cases hq : q = p
    · simp [hq, hidle] at hview
    · exact hends.undecided q r loaded (hmove.views_of_ne hq ▸ hview)

/-- A dead session is sealed, and so is one that somebody deletes on a STOPPED
copy. -/
structure Final (s : State ρ π) : Prop extends Executors s where
  dead : s.dead → Sealed s
  closed : ∀ p, s.views p = .closed → Sealed s

omit [DecidableEq ρ] [DecidableEq π] in
/-- No session is dead before the first step, so there is nothing to be kept final. -/
theorem Final.initial : Final (.initial : State ρ π) where
  toExecutors := .initial
  dead hdead := by simp [State.dead, State.closed, State.initial] at hdead
  closed _ hview := by cases hview

private theorem Final.move_close {ids : List ρ} (h : Final s) (hmove : Move p s (.close ids) s')
    (hends : Ends p s ids) (hdead : s'.dead) : Sealed s' := by
  cases id hmove with
  | close status delete hstatus =>
    rcases hstatus with hstatus | ⟨hview, -⟩
    · refine hends.sealed hmove (State.see_views_self ..) (fun r => hmove.run_of_closed) ?_
      cases hsession : s.session with
      | none => simp [State.dead, State.closed, hsession] at hdead
      | some x => exact ⟨.STOPPED, x.2 || delete, by simp [hstatus], rfl⟩
    · exact (h.closed p hview).move h.toExecutors hmove

private theorem Final.move_expire (hmove : Move p s .expire s') (hends : Ends p s [])
    (hdead : s'.dead) : Sealed s' := by
  cases id hmove with
  | expire =>
    refine hends.sealed hmove (State.see_views_self ..) (by simp) ?_
    cases hsession : s.session with
    | none => simp [State.dead, State.closed, State.set, hsession] at hdead
    | some x => exact ⟨.EXPIRED, x.2, by simp [State.set, hsession], rfl⟩

/-- Dead sessions stay sealed as long as whoever ends one leaves nobody behind, that is,
no executor and no marker that could still write to the row. -/
theorem Final.move (h : Final s) (hmove : Move p s kind s') (hrelapse : kind ≠ .relapse)
    (hclose : ∀ ids, kind = .close ids → Ends p s ids)
    (hexpire : kind = .expire → Ends p s []) : Final s' where
  toExecutors := h.toExecutors.move hmove hrelapse
  dead hdead := by
    rcases hmove.dead_cases hdead with hold | ⟨ids, rfl⟩ | rfl
    · exact (h.dead hold).move h.toExecutors hmove
    · exact h.move_close hmove (hclose ids rfl) hdead
    · exact Final.move_expire hmove (hexpire rfl) hdead
  closed q hview := by
    rcases hmove.closed_view_cases hview with hold | ⟨deleted, hstopped⟩
    · exact (h.closed q hold).move h.toExecutors hmove
    · exact (h.dead (.inl ⟨_, deleted, hstopped, .inl rfl⟩)).move h.toExecutors hmove

end Move

end session_manager.lifecycle
