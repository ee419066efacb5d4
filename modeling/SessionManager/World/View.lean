import SessionManager.Lifecycle.Move
import SessionManager.World.Frame

open unit_of_work

namespace session_manager

open sessions run_executor runtime_reconciler lifecycle

/-- The append has been committed. -/
def run_executor.Stage.written : Stage → Bool
  | flush | commit _ => false
  | refresh | publish => true

/-- The phase of an executor inside an append, before or after its commit;
`status` is the one of its copy of the run. -/
def run_executor.Site.phase (status : RunStatus) (written : Bool) : Site → Option Phase
  | started .. => some (if written then .running else .starting)
  | emitted .. => some .running
  | message .. => some (if written then .tail else .deciding status)
  | completed => some .tail
  | failed .. => if written then none else some (.deciding status)

/-- Once the first event of a run is written, its executor is past the start, whichever
site it is at. -/
theorem run_executor.Site.phase_of_written {status : RunStatus} {ph : Phase} {site : Site}
    (h : site.phase status true = some ph) : ph ≠ .starting := by
  cases site <;> cases h <;> simp

/-- Before its event is written, an executor is always at work on its run, at whichever
site it is. -/
theorem run_executor.Site.phase_of_unwritten (status : RunStatus) (site : Site) :
    ∃ ph, site.phase status false = some ph := by
  cases site <;> exact ⟨_, rfl⟩

/-- The phase of an executor that has just reloaded its run. -/
def run_executor.checked (run : AgentRun) : Phase :=
  if run.status = .CANCELLED then .running else .deciding run.status

/-- The run an executor works on: its id, the copy the executor holds, and the
phase of the work. -/
def run_executor.Execute.work : Execute → Option (RunId × AgentRun × Phase)
  | select _ | returned | raised => none
  | get_session run_id run => some (run_id, run, .starting)
  | append run_id run site stage =>
    (site.phase run.status stage.written).map fun ph => (run_id, run, ph)
  | agent run_id run _ | refresh_run run_id run _ | rollback run_id run _ | reload_run run_id run _ =>
    some (run_id, run, .running)
  | refresh_session run_id run _ => some (run_id, run, checked run)
  | sequence run_id run .. | reload_session run_id run _ => some (run_id, run, .deciding run.status)

/-- The status a pass read of a session and the one it leaves. -/
def runtime_reconciler.Pass.outcome (pass : Pass) (id : SessionId) :
    Option (SessionStatus × SessionStatus) :=
  (pass.copy id).map fun x => (x.loaded.status, x.current.status)

/-- What a task may still do to the session `id`. -/
def Task.view (id : SessionId) : Task → View RunId
  | create_session (.runtime id' ..) | create_session (.commit_ready id' ..) =>
    if id' = id then .marker else .idle
  | execute task =>
    match task.work with
    | none => .idle
    | some (run_id, run, ph) => if run.session_id = id then .exec run_id ph else .idle
  | delete_session (.delete id' session) | delete_session (.cancel id' session _)
  | delete_session (.commit id' session ..) =>
    if id' = id ∧ session.status = .STOPPED then .closed else .idle
  | reconcile (.delete _ pass) | reconcile (.commit pass) =>
    if pass.outcome id = some (.CREATING, .READY) then .marker else .idle
  | _ => .idle

@[simp] theorem delete_runtime_view (id id' : SessionId) (session : AgentSession) (now : Time) :
    (Task.delete_session (delete_runtime id' session now)).view id =
      if id' = id ∧ session.status = .STOPPED then .closed else .idle := by
  unfold delete_runtime
  split <;> rfl

@[simp] theorem next_deletion_view (id : SessionId) (pending : List RuntimeInfo) (pass : Pass) :
    (Task.reconcile (next_deletion pending pass)).view id =
      if pass.outcome id = some (.CREATING, .READY) then .marker else .idle := by
  unfold next_deletion
  split <;> rfl

/-- What an executor is seen to do to the session `id`: its work, when the run it works
on is of that session, and nothing otherwise. -/
theorem execute_view {task : Execute} {work : Option (RunId × AgentRun × Phase)} {id : SessionId}
    (hwork : task.work = work) :
    (Task.execute task).view id =
      work.elim .idle fun x => if x.2.1.session_id = id then .exec x.1 x.2.2 else .idle := by
  subst hwork
  simp only [Task.view]
  split <;> simp_all

/-- Only a task of `execute` is ever seen as an executor, and its run is of the session
that sees it. -/
theorem Task.view_eq_exec {task : Task} {id : SessionId} {r : RunId} {ph : Phase}
    (h : task.view id = .exec r ph) :
    ∃ task' run, task = .execute task' ∧ task'.work = some (r, run, ph) ∧ run.session_id = id := by
  cases task with
  | execute task' =>
    simp only [Task.view] at h
    split at h
    · cases h
    · rename_i run_id run ph' hwork
      split at h
      · cases h
        exact ⟨task', run, rfl, hwork, by assumption⟩
      · cases h
  | _ =>
    unfold Task.view at h
    grind

namespace World

/-- The life cycle of one session in a state of the system. -/
def lifecycle (w : World) (id : SessionId) : State RunId Pid where
  session := (w.db.sessions.get? id).map fun s => (s.status, s.deleted_at.isSome)
  created := (w.db.runs.rows.filter fun r => r.2.session_id = id).map Prod.fst
  runs := fun r => ((w.db.runs.get? r).filter fun row => row.session_id = id).map AgentRun.status
  views := fun p => (w.tasks.get? p).elim .idle (Task.view id)

/-- Before the first call no session has a life: the refinement starts in the initial
state of the life cycle. -/
theorem empty_lifecycle (id : SessionId) : empty.lifecycle id = .initial := rfl

variable {w w' : World} {id : SessionId} {p : Pid}

/-- The row of a session as the life cycle sees it: the status, and whether it is
deleted. -/
theorem lifecycle_session {s : AgentSession} (hget : w.db.sessions.get? id = some s) :
    (w.lifecycle id).session = some (s.status, s.deleted_at.isSome) := by
  simp [lifecycle, hget]

/-- A run has a status in the life cycle of its own session only; the row is read, never
a task's copy of it. -/
theorem lifecycle_runs_eq_some {r : RunId} {st : RunStatus} :
    (w.lifecycle id).runs r = some st ↔
      ∃ row, w.db.runs.get? r = some row ∧ row.session_id = id ∧ row.status = st := by
  simp [lifecycle, Option.filter_eq_some_iff, and_assoc]

/-- The life cycle of a session knows no runs but those of the session. This keeps what
happens to one session apart from all others. -/
theorem lifecycle_runs_eq_none {r : RunId} :
    (w.lifecycle id).runs r = none ↔
      ∀ row, w.db.runs.get? r = some row → row.session_id ≠ id := by
  simp [lifecycle, Option.filter_eq_none_iff]

/-- A suspended task is seen by every session as `Task.view` says. Facts about a task's
place in its call turn into facts about the life cycle by this. -/
theorem lifecycle_views {task : Task} (htask : w.tasks.get? p = some task) :
    (w.lifecycle id).views p = task.view id := by
  simp [lifecycle, htask]

/-- An executor is seen to do its work by the session of the run, in the phase of that
work. -/
theorem views_of_work {call : Execute} {run_id : RunId} {run : AgentRun} {ph : Phase}
    (htask : w.tasks.get? p = some (.execute call)) (hwork : call.work = some (run_id, run, ph)) :
    (w.lifecycle run.session_id).views p = .exec run_id ph := by
  rw [lifecycle_views htask, execute_view hwork]
  exact if_pos rfl

/-- The executor behind a view: a suspended call of `execute` whose work is on that run,
with its copy of the run. -/
theorem exec_of_lifecycle {q : Pid} {r : RunId} {ph : Phase}
    (h : (w.lifecycle id).views q = .exec r ph) :
    ∃ task run, w.tasks.get? q = some (.execute task) ∧ task.work = some (r, run, ph) ∧
      run.session_id = id := by
  cases htask : w.tasks.get? q with
  | none => simp [lifecycle, htask] at h
  | some task =>
    rw [lifecycle_views htask] at h
    obtain ⟨task', run, rfl, hwork⟩ := Task.view_eq_exec h
    exact ⟨task', run, rfl, hwork⟩

/-- A step that changes no row only moves its own task. Messages, events and locks may
change: the life cycle reads none of them. -/
theorem lifecycle_of_tables_eq {next : Task} (hsessions : w'.db.sessions = w.db.sessions)
    (hruns : w'.db.runs = w.db.runs)
    (htasks : ∀ q, w'.tasks.get? q = if q = p then some next else w.tasks.get? q) :
    w'.lifecycle id = (w.lifecycle id).see p (next.view id) := by
  simp only [lifecycle, State.see, hsessions, hruns, State.mk.injEq, true_and]
  funext q
  rw [htasks, Function.update_apply]
  split <;> rfl

end World

end session_manager
