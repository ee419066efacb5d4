import SessionManager.World.Work

open unit_of_work

namespace session_manager

open sessions run_executor runtime_reconciler lifecycle

namespace World

/-- Task `p` has locked the row of a session and holds its contents. -/
def holds_session (w : World) (p : Pid) (id : SessionId) (row : AgentSession) : Prop :=
  w.session_locks id = some p ∧ w.db.sessions.get? id = some row

def holds_run (w : World) (p : Pid) (id : RunId) (row : AgentRun) : Prop :=
  w.run_locks id = some p ∧ w.db.runs.get? id = some row

/-- Task `p` has locked the given runs; they are active runs of the session. -/
def holds_active (w : World) (p : Pid) (id : SessionId) (run_ids : List RunId) : Prop :=
  ∀ r ∈ run_ids, ∃ row, w.holds_run p r row ∧ row.session_id = id ∧ row.status.active = true

end World

/-- What the copies of `create_session` keep of the row it inserts. -/
def sessions.CreateSession.Consistent : CreateSession → Prop
  | insert _ session => session.status = .CREATING ∧ session.deleted_at = none
  | runtime _ session _ | commit_failed _ session | commit_ready _ session _ =>
    session.status = .CREATING
  | _ => True

/-- Inside its transaction `create_run` holds the lock of the session it read,
which is READY once it has passed the check. It only looks a given key up. -/
def sessions.CreateRun.Consistent (w : World) (p : Pid) : CreateRun → Prop
  | lookup request session =>
    w.holds_session p request.session_id session ∧ session.deleted_at = none ∧
      truthy request.idempotency_key = true
  | flush request session _ | sequence request session _ | commit request session _ _ _ =>
    w.holds_session p request.session_id session ∧ session.deleted_at = none ∧
      session.status = .READY
  | _ => True

def sessions.StopSession.Consistent (w : World) (p : Pid) : StopSession → Prop
  | stop _ session | commit_failed _ session | cancel _ session _ => session.status = .STOPPING
  | commit_stopped id session cancelled _ =>
    session.status = .STOPPING ∧ w.holds_active p id cancelled
  | _ => True

def sessions.DeleteSession.Consistent (w : World) (p : Pid) : DeleteSession → Prop
  | delete _ session | cancel _ session _ => session.deleted_at = none
  | commit id session cancelled _ => session.deleted_at = none ∧ w.holds_active p id cancelled
  | _ => True

/-- The run an executor works on exists. While it starts the run it holds the
row lock, so its copy is the row. -/
def run_executor.Execute.Consistent (w : World) (p : Pid) (task : Execute) : Prop :=
  ∀ run_id run ph, task.work = some (run_id, run, ph) →
    (∃ row, w.db.runs.get? run_id = some row ∧ SameRun run row) ∧
    (ph = .starting → w.holds_run p run_id run ∧ run.status = .PENDING)

/-- What a task may rely on at its await. -/
def Task.Consistent (w : World) (p : Pid) : Task → Prop
  | create_session task => task.Consistent
  | create_run task => task.Consistent w p
  | execute task => task.Consistent w p
  | stop_session task => task.Consistent w p
  | delete_session task => task.Consistent w p
  | reconcile _ | killed => True

/-- Every task can rely on what it has read under a lock, and no two sessions
share a runtime. -/
structure World.Consistent (w : World) : Prop where
  tasks : ∀ p task, w.tasks.get? p = some task → task.Consistent w p
  runtimes : Database.unique_runtime_ids w.db.sessions = true

namespace Kept

variable {q : Pid} {w w' : World} (h : Kept q w w')
include h

/-- A session whose row is locked stays as it was read over every step that keeps what
its holder has locked. -/
theorem holds_session {id : SessionId} {row : AgentSession} (hold : w.holds_session q id row) :
    w'.holds_session q id row :=
  h.session id row hold.1 hold.2

/-- A run whose row is locked stays as it was read, likewise. -/
theorem holds_run {id : RunId} {row : AgentRun} (hold : w.holds_run q id row) :
    w'.holds_run q id row :=
  h.run id row hold.1 hold.2

private theorem holds_active {id : SessionId} {run_ids : List RunId} (hold : w.holds_active q id run_ids) :
    w'.holds_active q id run_ids := by
  intro r hr
  obtain ⟨row, hrun, hrow⟩ := hold r hr
  exact ⟨row, h.holds_run hrun, hrow⟩

/-- A task can still rely on what it relied on after a step that keeps its locks, and
with them the rows it has locked. -/
theorem consistent {task : Task} (hold : task.Consistent w q) : task.Consistent w' q := by
  cases task with
  | create_session | reconcile | killed => exact hold
  | create_run task =>
    cases task with
    | lookup => exact ⟨h.holds_session hold.1, hold.2⟩
    | flush | sequence | commit => exact ⟨h.holds_session hold.1, hold.2⟩
    | select | refresh | returned | raised => trivial
  | execute task =>
    intro run_id run ph hwork
    obtain ⟨⟨row, hget, hsame⟩, hstarting⟩ := hold run_id run ph hwork
    obtain ⟨row', hget', hsame'⟩ := h.same run_id row hget
    exact ⟨⟨row', hget', hsame.trans hsame'⟩, fun hph =>
      ⟨h.holds_run (hstarting hph).1, (hstarting hph).2⟩⟩
  | stop_session task =>
    cases task with
    | commit_stopped => exact ⟨hold.1, h.holds_active hold.2⟩
    | get | commit_stopping | stop | commit_failed | cancel | refresh | returned | raised =>
      exact hold
  | delete_session task =>
    cases task with
    | commit => exact ⟨hold.1, h.holds_active hold.2⟩
    | get | delete | cancel | returned | raised => exact hold

end Kept

end session_manager
