import SessionManager.Lifecycle.Move

open unit_of_work

namespace session_manager.lifecycle

variable {ρ π : Type}

private theorem shift_exec {s : State ρ π} {p : π} {v : View ρ} {r : ρ} {ph : Phase}
    (h : Shift s p v) (hexec : v = .exec r ph) :
    (∃ ph₀, s.views p = .exec r ph₀) ∨
    ph = .starting ∧ s.runs r = some .PENDING ∧ ∀ q, s.views q ≠ .exec r .starting := by
  cases h with
  | stay => exact .inl ⟨ph, hexec⟩
  | leave | load_creating | load_stopped => cases hexec
  | lock hview hrun hfree =>
    cases hexec
    exact .inr ⟨rfl, hrun, hfree⟩
  | read hview | retry hview =>
    cases hexec
    exact .inl ⟨_, hview⟩

variable [DecidableEq ρ] [DecidableEq π] {s s' : State ρ π} {p : π} {kind : Kind ρ}

/-- A move is made by one task: all the others stay where they are, whatever the move
does to the session and to its runs. -/
theorem Move.views_of_ne (hmove : Move p s kind s') {q : π} (hq : q ≠ p) :
    s'.views q = s.views q := by
  cases hmove <;> exact State.see_views_of_ne _ _ hq

/-- What the moving task can be at next. -/
inductive ViewChange (p : π) (s s' : State ρ π) : Prop
  | shifted (hshift : Shift s p (s'.views p))
  | exec {r : ρ} {ph : Phase} (hph : ph = .running ∨ ph = .tail) (hview : s'.views p = .exec r ph)
  | inserted (hsession : s.session = none) (hview : s'.views p = .marker)

/-- The view of the moving task changes as `ViewChange` lists it; no other field of the
state is read off it. -/
theorem Move.view_change (hmove : Move p s kind s') : ViewChange p s s' := by
  cases hmove with
  | shift hshift => exact .shifted (by simpa using hshift)
  | relapse => exact .exec (.inl rfl) (State.see_views_self ..)
  | start => exact .exec (.inl rfl) (State.see_views_self ..)
  | insert hsession => exact .inserted hsession (by simp)
  | mark | set | expire | close | submit => exact .shifted (by simpa using .leave)
  | finish _ _ hfinal =>
    rcases hfinal with ⟨-, rfl⟩ | ⟨-, rfl⟩
    · exact .exec (.inr rfl) (State.see_views_self ..)
    · exact .shifted (by simpa using .leave)

/-- A task turns to mark a session only while the row is missing or CREATING, so a
marker that comes later was one before. -/
theorem Move.marker_cases (hmove : Move p s kind s') {q : π} (hview : s'.views q = .marker) :
    s.views q = .marker ∨ s.session = none ∨ ∃ deleted, s.session = some (.CREATING, deleted) := by
  by_cases hq : q = p
  · subst hq
    cases hmove.view_change with
    | shifted hshift =>
      rw [hview] at hshift
      generalize hv : View.marker = v at hshift
      cases hshift <;> simp_all
    | exec _ hexec => simp [hview] at hexec
    | inserted hsession => exact .inr (.inl hsession)
  · exact .inl (hmove.views_of_ne hq ▸ hview)

/-- A task turns to delete on a STOPPED copy only while the row is STOPPED. The copy may
be out of date in any later state. -/
theorem Move.closed_view_cases (hmove : Move p s kind s') {q : π} (hview : s'.views q = .closed) :
    s.views q = .closed ∨ ∃ deleted, s.session = some (.STOPPED, deleted) := by
  by_cases hq : q = p
  · subst hq
    cases hmove.view_change with
    | shifted hshift =>
      rw [hview] at hshift
      generalize hv : View.closed = v at hshift
      cases hshift <;> simp_all
    | exec _ hexec => simp [hview] at hexec
    | inserted _ hexec => simp [hview] at hexec
  · exact .inl (hmove.views_of_ne hq ▸ hview)

/-- The last check of a run finds it not CANCELLED. What it found is kept in the view,
whether or not the run is cancelled afterwards. -/
theorem Move.deciding_cases (hmove : Move p s kind s') {q : π} {r : ρ} {st : RunStatus}
    (hview : s'.views q = .exec r (.deciding st)) :
    s.views q = .exec r (.deciding st) ∨
    s.views q = .exec r .running ∧ s.runs r = some st ∧ st ≠ .CANCELLED := by
  by_cases hq : q = p
  · subst hq
    cases hmove.view_change with
    | shifted hshift =>
      rw [hview] at hshift
      generalize hv : View.exec r (.deciding st) = v at hshift
      cases hshift <;> simp_all
    | exec hph hexec => rcases hph with rfl | rfl <;> simp [hview] at hexec
    | inserted _ hexec => simp [hview] at hexec
  · exact .inl (hmove.views_of_ne hq ▸ hview)

/-- An executor was at work on its run before, or has just locked it PENDING
while nobody else was starting it. -/
theorem Move.exec_cases (hmove : Move p s kind s') {q : π} {r : ρ} {ph : Phase}
    (hexec : s'.views q = .exec r ph) :
    (∃ ph₀, s.views q = .exec r ph₀) ∨
    q = p ∧ ph = .starting ∧ s.runs r = some .PENDING ∧ ∀ q, s.views q ≠ .exec r .starting := by
  by_cases hq : q = p
  · subst hq
    cases hmove with
    | shift hshift =>
      rw [State.see_views_self] at hexec
      exact (shift_exec hshift hexec).imp_right fun h => ⟨rfl, h⟩
    | relapse hview | start hview =>
      simp only [State.see_views_self, View.exec.injEq] at hexec
      exact .inl ⟨_, hexec.1 ▸ hview⟩
    | finish hview _ hfinal =>
      rcases hfinal with ⟨-, rfl⟩ | ⟨-, rfl⟩ <;> simp at hexec
      exact .inl ⟨_, hexec.1 ▸ hview⟩
    | insert | mark | set | expire | close | submit => simp at hexec
  · exact .inl ⟨ph, (hmove.views_of_ne hq).symm.trans hexec⟩

/-- The step that adds a run to a READY session. -/
structure Submits (s s' : State ρ π) (r : ρ) : Prop where
  ready : s.session = some (.READY, false)
  fresh : s.runs r = none
  session : s'.session = some (.RUNNING, false)
  created : s'.created = s.created ++ [r]
  run : s'.runs r = some .PENDING

/-- How one step changes the status of a run. -/
inductive RunChange (p : π) (s : State ρ π) (kind : Kind ρ) (s' : State ρ π) (r : ρ) : Prop
  | same (hrun : s'.runs r = s.runs r)
  | submitted (hsubmits : Submits s s' r)
  | cancelled {ids : List ρ} (hkind : kind = .close ids) (hmem : r ∈ ids) (hactive : s.active r)
      (hfree : ∀ q, s.views q ≠ .exec r .starting) (hrun : s'.runs r = some .CANCELLED)
  | started (hview : s.views p = .exec r .starting) (hold : s.runs r = some .PENDING)
      (hrun : s'.runs r = some .RUNNING)
  | finished {loaded old final : RunStatus} (hview : s.views p = .exec r (.deciding loaded))
      (hold : s.runs r = some old) (hrun : s'.runs r = some (column loaded final old))
      (hfinal : final = .COMPLETED ∨ final = .FAILED)

/-- Every way in which a move changes the status of one run; all other invariants about
runs are read off these cases. -/
theorem Move.run_change (hmove : Move p s kind s') (r : ρ) : RunChange p s kind s' r := by
  cases hmove with
  | shift | relapse | insert | mark | set | expire => exact .same rfl
  | @close ids _ _ _ hactive hfree =>
    by_cases hr : r ∈ ids
    · exact .cancelled rfl hr (hactive r hr) (hfree r hr) (by simp [State.cancel, hr])
    · exact .same (by simp [State.cancel, hr])
  | @submit r₀ hsession hfresh hactive =>
    by_cases hr : r = r₀
    · subst hr
      exact .submitted ⟨hsession, hfresh, rfl, rfl, by simp⟩
    · exact .same (by simp [Function.update_of_ne hr])
  | @start r₀ _ hview hrun =>
    by_cases hr : r = r₀
    · subst hr
      exact .started hview hrun (by simp)
    · exact .same (by simp [Function.update_of_ne hr])
  | @finish r₀ _ _ _ _ _ hview hrun hfinal =>
    by_cases hr : r = r₀
    · subst hr
      exact .finished hview hrun (Function.update_self ..) (hfinal.imp And.left And.left)
    · exact .same (by simp [Function.update_of_ne hr])

/-- How one step changes the row of the session. -/
inductive SessionChange (p : π) (s : State ρ π) (kind : Kind ρ) (s' : State ρ π) : Prop
  | same (hsession : s'.session = s.session)
  | inserted (hold : s.session = none) (hsession : s'.session = some (.CREATING, false))
  | marked (hkind : kind = .mark) (hview : s.views p = .marker)
      (hsession : s'.session = s.set .READY)
  | set {status : SessionStatus} (hstatus : status = .FAILED ∨ status = .STOPPING)
      (hsession : s'.session = s.set status)
  | expired (hkind : kind = .expire) (hsession : s'.session = s.set .EXPIRED)
  | closed {ids : List ρ} {status : SessionStatus → SessionStatus} {delete : Bool}
      (hkind : kind = .close ids)
      (hstatus : (∀ old, status old = .STOPPED) ∨ s.views p = .closed ∧ ∀ old, status old = old)
      (hsession : s'.session = s.session.map fun x => (status x.1, x.2 || delete))
  | submitted {r : ρ} (hsubmits : Submits s s' r)
  | started {r : ρ} (hview : s.views p = .exec r .starting) (hrun : s.runs r = some .PENDING)
      (hsession : s'.session = s.set .RUNNING)
  | finished {r : ρ} {loaded old final : RunStatus} (hview : s.views p = .exec r (.deciding loaded))
      (hold : s.runs r = some old) (hrun : s'.runs r = some (column loaded final old))
      (hfinal : final = .COMPLETED ∨ final = .FAILED) (hsession : s'.session = s.set .READY)

/-- Every way in which a move changes the row of the session, with what it must have
found there. -/
theorem Move.session_change (hmove : Move p s kind s') : SessionChange p s kind s' := by
  cases hmove with
  | shift | relapse => exact .same rfl
  | insert hsession => exact .inserted hsession rfl
  | mark hview => exact .marked rfl hview rfl
  | set hstatus => exact .set hstatus rfl
  | expire => exact .expired rfl rfl
  | close status delete hstatus => exact .closed rfl hstatus rfl
  | @submit r hsession hfresh => exact .submitted ⟨hsession, hfresh, rfl, rfl, by simp⟩
  | start hview hrun hsession =>
    rcases hsession with rfl | rfl
    · exact .same rfl
    · exact .started hview hrun rfl
  | finish hview hrun hfinal hsession =>
    rcases hsession with rfl | rfl
    · exact .same rfl
    · exact .finished hview hrun (Function.update_self ..) (hfinal.imp And.left And.left) rfl

/-- The runs that a closing step names are CANCELLED after it, whatever they were
before. -/
theorem Move.run_of_closed {ids : List ρ} (hmove : Move p s (.close ids) s') {r : ρ}
    (hr : r ∈ ids) : s'.runs r = some .CANCELLED := by
  cases hmove
  simp [State.cancel, hr]

/-- A run is active after a step only if it was before, or is the new one. So runs are
never revived, not even by a relapse. -/
theorem Move.active_cases (hmove : Move p s kind s') {r : ρ} (hactive : s'.active r) :
    s.active r ∨ Submits s s' r := by
  obtain ⟨st, hrun', hst⟩ := hactive
  cases hmove.run_change r with
  | same hsame => exact .inl ⟨st, hsame.symm.trans hrun', hst⟩
  | submitted hsubmits => exact .inr hsubmits
  | cancelled _ _ hactive => exact .inl hactive
  | started _ hold => exact .inl ⟨_, hold, rfl⟩
  | @finished loaded old final _ hold hrun hfinal =>
    rw [hrun, Option.some.injEq] at hrun'
    subst hrun'
    rcases column_eq_or loaded final old with hcolumn | hcolumn <;> rw [hcolumn] at hst
    · rcases hfinal with rfl | rfl <;> simp [RunStatus.active] at hst
    · exact .inl ⟨old, hold, hst⟩

/-- The run is there and not PENDING any more. -/
def State.begun (s : State ρ π) (r : ρ) : Prop := ∃ st, s.runs r = some st ∧ st ≠ .PENDING

/-- No run becomes PENDING again: what has begun has begun in every later state, however
it ends. -/
theorem Move.begun (hmove : Move p s kind s') {r : ρ} (h : s.begun r) : s'.begun r := by
  obtain ⟨st, hst, hpending⟩ := h
  cases hmove.run_change r with
  | same hsame => exact ⟨st, hsame.trans hst, hpending⟩
  | submitted hsubmits => simp [hsubmits.fresh] at hst
  | cancelled _ _ _ _ hcancelled => exact ⟨_, hcancelled, by simp⟩
  | started _ _ hstarted => exact ⟨_, hstarted, by simp⟩
  | @finished loaded old final _ hold hfinished hfinal =>
    refine ⟨_, hfinished, ?_⟩
    rw [hst, Option.some.injEq] at hold
    subst hold
    rcases column_eq_or loaded final st with hcolumn | hcolumn <;> rw [hcolumn]
    · rcases hfinal with rfl | rfl <;> simp
    · exact hpending

/-- Nobody starts on a run that has begun, so whoever is at work on it was so before the
step. -/
theorem Move.exec_of_begun (hmove : Move p s kind s') {q : π} {r : ρ} {ph : Phase}
    (hbegun : s.begun r) (hview : s'.views q = .exec r ph) : ∃ ph₀, s.views q = .exec r ph₀ := by
  rcases hmove.exec_cases hview with hold | ⟨-, -, hrun, -⟩
  · exact hold
  · obtain ⟨st, hst, hpending⟩ := hbegun
    rw [hrun, Option.some.injEq] at hst
    exact absurd hst.symm hpending

/-- An executor that only has to report its run goes on reporting it. A relapse is
excluded, as it makes a finished executor change the session again. -/
theorem Move.tail_cases (hmove : Move p s kind s') (hrelapse : kind ≠ .relapse) {q : π} {r r' : ρ}
    {ph : Phase} (hview : s.views q = .exec r .tail) (hview' : s'.views q = .exec r' ph) :
    ph = .tail := by
  by_cases hq : q = p
  · subst hq
    cases hmove with
    | relapse => exact absurd rfl hrelapse
    | shift hshift =>
      rw [State.see_views_self] at hview'
      cases hshift <;> simp_all
    | start hold | finish hold => simp [hview] at hold
    | insert | mark | set | expire | close | submit => simp at hview'
  · rw [hmove.views_of_ne hq, hview, View.exec.injEq] at hview'
    exact hview'.2.symm

/-- The list of runs grows by the one that is submitted, and by nothing else. What is on
it stays on it. -/
theorem Move.created_cases (hmove : Move p s kind s') :
    s'.created = s.created ∨ ∃ r, Submits s s' r := by
  cases hmove with
  | @submit r hsession hfresh => exact .inr ⟨r, hsession, hfresh, rfl, rfl, by simp⟩
  | _ => exact .inl rfl

end session_manager.lifecycle
