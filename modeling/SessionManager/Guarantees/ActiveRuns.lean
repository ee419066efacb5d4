import SessionManager.Guarantees.Guards
import SessionManager.Lifecycle.Closing
import SessionManager.World.Schedule

open transition

namespace session_manager

open sessions run_executor lifecycle schedule

/-- A session that is READY, STOPPED or deleted has no PENDING or RUNNING run. -/
def Database.settled (db : Database) (session_id : SessionId) : Prop :=
  ∀ s ∈ db.sessions.get? session_id,
    s.status = .READY ∨ s.status = .STOPPED ∨ s.deleted_at.isSome = true →
    db.active_runs session_id = []

instance (db : Database) (session_id : SessionId) : Decidable (db.settled session_id) :=
  inferInstanceAs (Decidable (∀ s ∈ db.sessions.get? session_id, _ → _))

/-- The request of a `create_run` that has passed the READY check and has not
committed yet. -/
def sessions.CreateRun.passed : CreateRun → Option CreateRunRequest
  | flush request .. | sequence request .. | commit request .. => some request
  | _ => none

namespace World

/-- Whoever stops or deletes the session cancels all its active runs with it, in
an undisturbed step. -/
def settling (session_id : SessionId) (w : World) (l : Label) : Prop :=
  w.undisturbed session_id l ∧ ∀ task ∈ w.committing l, ∀ ids ∈ task.closes session_id,
    ∀ r ∈ w.db.active_runs session_id, r ∈ ids

instance (session_id : SessionId) (w : World) (l : Label) : Decidable (w.settling session_id l) :=
  inferInstanceAs (Decidable (_ ∧ _))

variable {w : World} {session_id : SessionId}

private theorem settled_of_run (hrun : Run World.step (settling session_id) empty w) :
    w.Consistent ∧ Settled (w.lifecycle session_id) := by
  refine hrun.invariant (I := fun w => w.Consistent ∧ Settled (w.lifecycle session_id)) ?_
    ⟨.empty, .initial⟩
  rintro s l t ⟨hconsistent, hsettled⟩ hguard hstep
  obtain ⟨kind, hmove, hdoes⟩ := hconsistent.step_moves hstep session_id
  refine ⟨hconsistent.step hstep, hsettled.move hmove ?_⟩
  rintro ids rfl r hactive
  obtain ⟨task, hcommits, hcloses⟩ := hdoes
  exact hguard.2 task (mem_committing hcommits) ids hcloses r (active_iff.mp hactive)

/-- A `create_run` past its check still sees the READY session it has locked, since
nobody else may write the row while the lock is held. -/
theorem Consistent.passed_ready (h : w.Consistent) {p : Pid} {task : CreateRun}
    (htask : w.tasks.get? p = some (.create_run task)) {request : CreateRunRequest}
    (hpassed : task.passed = some request) :
    ∃ session, w.db.sessions.get? request.session_id = some session ∧ session.status = .READY := by
  have hrow := h.tasks p _ htask
  cases task with
  | flush _ session | sequence _ session | commit _ session =>
    cases hpassed
    exact ⟨session, hrow.1.2, hrow.2.2⟩
  | select | lookup | refresh | returned | raised => cases hpassed

/-- While whoever closes a session cancels its runs, and whoever makes it READY
on old evidence finds no live run, a session that is READY, STOPPED or deleted
has no active run, and no `create_run` past its check trips the one-active-run
index. -/
theorem active_runs_settled (hrun : Run World.step (settling session_id) empty w) :
    w.db.settled session_id ∧ ∀ p task request,
      w.tasks.get? p = some (.create_run task) → task.passed = some request →
      request.session_id = session_id →
      w.db.uq_runs_one_active_per_session (new_run request) = false := by
  obtain ⟨hconsistent, hexclusive⟩ := exclusive_of_run (hrun.mono fun _ _ h => h.1)
  obtain ⟨-, hsettled⟩ := settled_of_run hrun
  have hnone {s : AgentSession} (hget : w.db.sessions.get? session_id = some s)
      (hstatus : s.status = .READY ∨ s.status = .STOPPED ∨ s.deleted_at.isSome = true) :
      w.db.active_runs session_id = [] := by
    have hsession := lifecycle_session hget
    refine List.eq_nil_iff_forall_not_mem.mpr fun r hr => ?_
    have hactive := active_iff.mpr hr
    rcases hstatus with hready | hclosed
    · exact hexclusive.ready _ (hready ▸ hsession) r (.inl hactive)
    · exact hsettled ⟨_, _, hsession, hclosed⟩ r hactive
  refine ⟨fun s hget => hnone hget, fun p task request htask hpassed hid => ?_⟩
  subst hid
  obtain ⟨s, hget, hready⟩ := hconsistent.passed_ready htask hpassed
  exact Database.uq_runs_one_active_of_active_runs (hnone hget (.inl hready))

/-- A session whose run is cancelled by the stop of the session. -/
theorem active_runs_settled_stopped : ∃ w : World,
    ((w.db.sessions.get? 10).map AgentSession.status = some .STOPPED ∧ w.db.runs.keys = [20]) ∧
    w.db.settled 10 ∧ ∀ p task request,
      w.tasks.get? p = some (.create_run task) → task.passed = some request →
      request.session_id = 10 →
      w.db.uq_runs_one_active_per_session (new_run request) = false := by
  obtain ⟨w, hrun, hw⟩ : ∃ w, Run World.step (settling 10) empty w ∧
      (w.db.sessions.get? 10).map AgentSession.status = some .STOPPED ∧ w.db.runs.keys = [20] :=
    Run.exists_of_execIf (creates 1 10 "c" ++ becomes_ready 1 ++ submits 3 10 20 30 ++
      locks 4 20 ++ starts 4 ++ stops 5 10 ++ stopped 5) _ (by decide +kernel)
  exact ⟨w, hw, active_runs_settled hrun⟩

/-- `delete_session` cancels the runs of a READY session, and its commit comes
after that of a `create_run` it has not seen. -/
theorem active_run_of_deleted_session : ∃ w : World,
    Run World.step (fun _ _ => True) empty w ∧ ¬ w.db.settled 10 :=
  Run.exists_of_exec (fun _ _ => trivial) (creates 1 10 "c" ++ becomes_ready 1 ++ deletes 2 10 ++
    submits 3 10 20 30 ++ through 2 [.returned]) _ (by decide +kernel)

end World

end session_manager
