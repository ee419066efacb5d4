import SessionManager.Lifecycle.Executors

open unit_of_work

namespace session_manager.lifecycle

variable {ρ π : Type}

/-- The session was stopped or deleted. -/
def State.closed (s : State ρ π) : Prop :=
  ∃ status deleted, s.session = some (status, deleted) ∧ (status = .STOPPED ∨ deleted = true)

/-- The session was stopped, expired or deleted. -/
def State.dead (s : State ρ π) : Prop :=
  s.closed ∨ ∃ deleted, s.session = some (.EXPIRED, deleted)

/-- A session that is STOPPED or deleted has no active run. -/
def Settled (s : State ρ π) : Prop := s.closed → ∀ r, ¬ s.active r

/-- There is no session to be closed before the first step, and no run to be left
behind. -/
theorem Settled.initial : Settled (.initial : State ρ π) := by
  rintro ⟨_, _, hsession, -⟩
  cases hsession

section Move

variable [DecidableEq ρ] [DecidableEq π] {s s' : State ρ π} {p : π} {kind : Kind ρ}

omit [DecidableEq ρ] [DecidableEq π] in
private theorem closed_of_set {status : SessionStatus} (hsession : s'.session = s.set status)
    (hstatus : status ≠ .STOPPED) (hclosed : s'.closed) : s.closed := by
  obtain ⟨st, deleted, hnew, hst⟩ := hclosed
  rw [hsession, State.set_eq_some_iff] at hnew
  obtain ⟨rfl, old, hold⟩ := hnew
  exact ⟨old, deleted, hold, .inr (hst.resolve_left hstatus)⟩

/-- Only a closing step closes a session. A session that is closed and not by this step
was closed before it. -/
theorem Move.closed_cases (hmove : Move p s kind s') (hclosed : s'.closed) :
    s.closed ∨ ∃ ids, kind = .close ids := by
  cases hmove.session_change with
  | same hsame => exact .inl (by simpa only [State.closed, hsame] using hclosed)
  | inserted _ hnew => simp [State.closed, hnew] at hclosed
  | submitted hsubmits => simp [State.closed, hsubmits.session] at hclosed
  | closed hkind => exact .inr ⟨_, hkind⟩
  | set hstatus hset =>
    exact .inl (closed_of_set hset (by rcases hstatus with rfl | rfl <;> simp) hclosed)
  | marked _ _ hset | expired _ hset | started _ _ hset | finished _ _ _ _ hset =>
    exact .inl (closed_of_set hset (by simp) hclosed)

/-- Sessions stay settled as long as whoever closes one cancels every active run of it.
Nothing is asked of the other steps. -/
theorem Settled.move (h : Settled s) (hmove : Move p s kind s')
    (hclose : ∀ ids, kind = .close ids → ∀ r, s.active r → r ∈ ids) : Settled s' := by
  intro hclosed r hactive
  rcases hmove.active_cases hactive with hold | hnew
  · rcases hmove.closed_cases hclosed with hwas | ⟨ids, rfl⟩
    · exact h hwas r hold
    · obtain ⟨st, hrun, hst⟩ := hactive
      rw [hmove.run_of_closed (hclose ids rfl r hold), Option.some.injEq] at hrun
      subst hrun
      simp [RunStatus.active] at hst
  · simp [State.closed, hnew.session] at hclosed

/-- Only a closing or an expiring step ends a session; the others leave a live session
alive. -/
theorem Move.dead_cases (hmove : Move p s kind s') (hdead : s'.dead) :
    s.dead ∨ (∃ ids, kind = .close ids) ∨ kind = .expire := by
  rcases hdead with hclosed | ⟨deleted, hexpired⟩
  · exact (hmove.closed_cases hclosed).imp .inl .inl
  · cases hmove.session_change with
    | same hsame => exact .inl (.inr ⟨deleted, hsame.symm.trans hexpired⟩)
    | expired hkind => exact .inr (.inr hkind)
    | closed hkind => exact .inr (.inl ⟨_, hkind⟩)
    | inserted _ hnew => simp [hnew] at hexpired
    | submitted hsubmits => simp [hsubmits.session] at hexpired
    | set hstatus hset =>
      rw [hset, State.set_eq_some_iff] at hexpired
      rcases hstatus with rfl | rfl <;> simp at hexpired
    | marked _ _ hset | started _ _ hset | finished _ _ _ _ hset =>
      simp [hset, State.set_eq_some_iff] at hexpired

end Move

end session_manager.lifecycle
