import SessionManager.World.Consistent

open unit_of_work

namespace session_manager

open sessions run_executor runtime_reconciler lifecycle

section Quiet

variable {w w' : World} {p : Pid} {l : Label} {action : Action}

private theorem holds_session_of_lock {id : SessionId} {row : AgentSession} {next : Task}
    (hended : next.ended = false) (hget : w.db.sessions.get? id = some row)
    (hperform : w.perform p (.lock_session id next) = some w') : w'.holds_session p id row := by
  simp only [World.perform, Option.ite_none_right_eq_some, Option.some.injEq] at hperform
  obtain ⟨-, rfl⟩ := hperform
  exact ⟨by simp [World.resume_of_not_ended _ _ _ hended], by simpa using hget⟩

private theorem holds_run_of_lock {id : RunId} {row : AgentRun} {next : Task}
    (hended : next.ended = false) (hget : w.db.runs.get? id = some row)
    (hperform : w.perform p (.lock_run id next) = some w') : w'.holds_run p id row := by
  simp only [World.perform, Option.ite_none_right_eq_some, Option.some.injEq] at hperform
  obtain ⟨-, rfl⟩ := hperform
  exact ⟨by simp [World.resume_of_not_ended _ _ _ hended, RowLocks.acquireAll], by simpa using hget⟩

private theorem holds_active_of_lock {id : SessionId} {next : Task} (hended : next.ended = false)
    (hperform : w.perform p (.lock_runs (w.db.active_runs id) next) = some w') :
    w'.holds_active p id (w.db.active_runs id) := by
  simp only [World.perform, Option.ite_none_right_eq_some, Option.some.injEq] at hperform
  obtain ⟨-, rfl⟩ := hperform
  intro r hr
  obtain ⟨row, hget, hsession, hactive⟩ := Database.mem_active_runs.mp hr
  refine ⟨row, ⟨?_, by simpa using hget⟩, hsession, hactive⟩
  simp [World.resume_of_not_ended _ _ _ hended, RowLocks.acquireAll, hr]

private theorem create_session_quiet {task : CreateSession} (h : task.Consistent)
    (hresume : task.resume w.db l = some action) {next : Task} (hgoes : action.goes = some next) :
    next.Consistent w' p := by
  cases CreateSession.resumes hresume with
  | insert | commit_failed | commit_ready => cases hgoes
  | docker | healthy | docker_raised =>
    cases hgoes
    exact h
  | missing | refresh | failed =>
    cases hgoes
    trivial

private theorem check_ready_consistent {request : CreateRunRequest} {session : AgentSession}
    {run_id : RunId} (hlocked : (check_ready request session run_id).ended = false →
      w'.holds_session p request.session_id session) (hdeleted : session.deleted_at = none) :
    (check_ready request session run_id).Consistent w' p := by
  unfold check_ready at hlocked ⊢
  split
  · trivial
  · rename_i hready
    rw [if_neg hready] at hlocked
    exact ⟨hlocked rfl, hdeleted, by simpa using hready⟩

private theorem selected_consistent {request : CreateRunRequest} {session : AgentSession}
    {run_id : RunId} (hlocked : (selected request session run_id).ended = false →
      w'.holds_session p request.session_id session) (hdeleted : session.deleted_at = none) :
    (selected request session run_id).Consistent w' p := by
  unfold selected at hlocked ⊢
  split
  · rename_i hkey
    rw [if_pos hkey] at hlocked
    exact ⟨hlocked rfl, hdeleted, hkey⟩
  · rename_i hkey
    rw [if_neg hkey] at hlocked
    exact check_ready_consistent hlocked hdeleted

private theorem create_run_quiet {task : CreateRun} (h : task.Consistent w p)
    (hresume : task.resume w.db l = some action) {next : Task} (hgoes : action.goes = some next)
    (hperform : w.perform p action = some w') : next.Consistent w' p := by
  have hkept := fun hended => World.perform_quiet_kept hgoes hended hperform
  cases CreateRun.resumes hresume with
  | select _ hsession =>
    cases hgoes
    obtain ⟨hget, hdeleted⟩ := Database.get_session_eq_some hsession
    exact selected_consistent (fun hended => holds_session_of_lock (by exact hended) hget hperform)
      hdeleted
  | lookup =>
    cases hgoes
    exact check_ready_consistent (fun hended => (hkept hended).holds_session h.1) h.2.1
  | flush | sequence =>
    cases hgoes
    exact ⟨(hkept rfl).holds_session h.1, h.2⟩
  | commit => cases hgoes
  | missing | replay | refused | gone | refresh | failed =>
    cases hgoes
    trivial

private theorem Execute.not_ended {task : Execute} {work : RunId × AgentRun × Phase}
    (h : task.work = some work) : task.ended = false := by
  cases task <;> first | rfl | cases h

private theorem execute_quiet {task : Execute} (h : task.Consistent w p)
    (hresume : task.resume w.db l = some action) {next : Task} (hgoes : action.goes = some next)
    (hperform : w.perform p action = some w') : next.Consistent w' p := by
  obtain ⟨-, hruns⟩ := World.perform_quiet_tables hgoes hperform
  cases Execute.resumed hresume with
  | refuse =>
    cases hgoes
    intro _ _ _ hwork
    cases hwork
  | commit => cases hgoes
  | @lock run_id run _ hget hpending =>
    cases hgoes
    intro _ _ _ hwork
    cases hwork
    exact ⟨⟨run, hruns ▸ hget, .refl run⟩, fun _ => ⟨holds_run_of_lock rfl hget hperform, hpending⟩⟩
  | @go next' _ hgoes' hwork =>
    obtain rfl := Option.some.inj (hgoes.symm.trans hgoes')
    intro run_id run ph hnext
    have hkept := World.perform_quiet_kept hgoes (Execute.not_ended hnext) hperform
    rw [hnext] at hwork
    generalize hold : task.work = old at hwork
    cases hwork with
    | stay =>
      obtain ⟨⟨row, hget, hsame⟩, hstarting⟩ := h _ _ _ hold
      exact ⟨⟨row, hruns ▸ hget, hsame⟩, fun hph =>
        ⟨hkept.holds_run (hstarting hph).1, (hstarting hph).2⟩⟩
    | reload hget =>
      refine ⟨⟨run, hruns ▸ hget, .refl run⟩, fun hph => ?_⟩
      unfold checked at hph
      split at hph <;> cases hph
    | retry | relapse =>
      obtain ⟨⟨row, hget, hsame⟩, -⟩ := h _ _ _ hold
      exact ⟨⟨row, hruns ▸ hget, hsame⟩, fun hph => by cases hph⟩

private theorem stop_session_quiet {task : StopSession} (h : task.Consistent w p)
    (hresume : task.resume w.db l = some action) {next : Task} (hgoes : action.goes = some next)
    (hperform : w.perform p action = some w') : next.Consistent w' p := by
  cases StopSession.resumes hresume with
  | get =>
    cases hgoes
    simp only [Task.Consistent, stop_checked]
    split
    · trivial
    · split <;> trivial
  | stop | stop_raised =>
    cases hgoes
    exact h
  | cancel =>
    cases hgoes
    exact ⟨h, holds_active_of_lock rfl hperform⟩
  | commit_stopping | commit_failed | commit_stopped => cases hgoes
  | missing | gone | refresh | failed =>
    cases hgoes
    trivial

private theorem delete_session_quiet {task : DeleteSession} (h : task.Consistent w p)
    (hresume : task.resume w.db l = some action) {next : Task} (hgoes : action.goes = some next)
    (hperform : w.perform p action = some w') : next.Consistent w' p := by
  cases DeleteSession.resumes hresume with
  | get _ hsession =>
    cases hgoes
    obtain ⟨-, hdeleted⟩ := Database.get_session_eq_some hsession
    simp only [Task.Consistent, delete_runtime]
    split <;> exact hdeleted
  | delete =>
    cases hgoes
    exact h
  | cancel =>
    cases hgoes
    exact ⟨h, holds_active_of_lock rfl hperform⟩
  | commit => cases hgoes
  | missing | delete_raised | failed =>
    cases hgoes
    trivial

private theorem reconcile_quiet {task : Reconcile} (hresume : task.resume w.db l = some action)
    {next : Task} (hgoes : action.goes = some next) : next.Consistent w' p := by
  cases Reconcile.resumes hresume <;> cases hgoes <;> trivial

/-- A task that goes on without a commit can rely on what it has read. -/
private theorem Task.Consistent.of_quiet {task : Task} (h : task.Consistent w p)
    (hresume : task.resume w.db l = some action) {next : Task} (hgoes : action.goes = some next)
    (hperform : w.perform p action = some w') : next.Consistent w' p := by
  cases task with
  | create_session task => exact create_session_quiet h hresume hgoes
  | create_run task => exact create_run_quiet h hresume hgoes hperform
  | execute task => exact execute_quiet h hresume hgoes hperform
  | stop_session task => exact stop_session_quiet h hresume hgoes hperform
  | delete_session task => exact delete_session_quiet h hresume hgoes hperform
  | reconcile task => exact reconcile_quiet hresume hgoes
  | killed => cases hresume

end Quiet

section Commit

variable {w w' : World} {p : Pid} {l : Label} {task next conflict : Task} {tx : Transaction}
  (hsame : ∀ id row, w.db.runs.get? id = some row →
    ∃ row', w'.db.runs.get? id = some row' ∧ SameRun row row')
include hsame

private theorem append_consistent {run_id : RunId} {run : AgentRun} {site : Site} {event_id : EventId}
    (h : Execute.Consistent w p (.append run_id run site (.commit event_id))) :
    Execute.Consistent w' p (.append run_id (site.run run) site .refresh) ∧
    ∀ error, Execute.Consistent w' p (append_raised run_id run error site) := by
  obtain ⟨ph, hph⟩ := site.phase_of_unwritten run.status
  obtain ⟨⟨row, hget, hrun⟩, -⟩ := h run_id run ph (by simp [Execute.work, Stage.written, hph])
  obtain ⟨row', hget', hrow⟩ := hsame run_id row hget
  have hrun' : SameRun run row' := hrun.trans hrow
  refine ⟨fun id run₁ ph₁ hwork => ?_, fun error id run₁ ph₁ hwork => ?_⟩
  · obtain ⟨ph₂, hph₂, heq⟩ := Option.map_eq_some_iff.mp hwork
    cases heq
    have hsite := site.run_same run
    exact ⟨⟨row', hget', hrun'.1.trans hsite.1.symm, hrun'.2.trans hsite.2.symm⟩,
      fun hstarting => absurd hstarting (Site.phase_of_written hph₂)⟩
  · cases work_append_raised_eq hwork
    exact ⟨⟨row', hget', hrun'⟩, fun hstarting => by cases hstarting⟩

/-- So can a task whose commit is over, whichever way it ended. -/
private theorem Task.Consistent.of_commit (h : task.Consistent w p)
    (hcommit : Commit l task tx next conflict) :
    next.Consistent w' p ∧ conflict.Consistent w' p := by
  cases hcommit with
  | insert_session => exact ⟨h.1, trivial⟩
  | stopping id session =>
    refine ⟨?_, trivial⟩
    simp only [Task.Consistent, stop_runtime]
    split <;> rfl
  | append =>
    obtain ⟨hnext, hconflict⟩ := append_consistent hsame h
    exact ⟨hnext, hconflict _⟩
  | create_failed | create_ready | create_run | stop_failed | stopped | deleted | reconcile =>
    exact ⟨trivial, trivial⟩

end Commit

namespace World

variable {w w' : World} {l : Label}

private theorem spawn_consistent (w : World) (l : Label) (operation : Operation) :
    (spawn l operation).Consistent w l.pid := by
  cases operation with
  | create_session => exact ⟨rfl, rfl⟩
  | execute =>
    intro _ _ _ hwork
    cases hwork
  | create_run | stop_session | delete_session | reconcile => trivial

private theorem step_own (h : w.Consistent) (hstep : w.step l = some w') {task : Task}
    (htask : w'.tasks.get? l.pid = some task) : task.Consistent w' l.pid := by
  have hsame : ∀ id row, w.db.runs.get? id = some row →
      ∃ row', w'.db.runs.get? id = some row' ∧ SameRun row row' := fun _ _ => step_same hstep
  cases stepped hstep with
  | called operation hfresh =>
    simp only [Table.get?_insert _ _ hfresh, if_true, Option.some.injEq] at htask
    subst htask
    exact spawn_consistent _ l operation
  | killed hold =>
    simp only [resume_tasks, Table.get?_modify_self, hold, Option.map_some, Option.some.injEq] at htask
    subst htask
    trivial
  | drained _ _ _ hdrained =>
    rw [hdrained.tasks] at htask
    exact (hdrained.kept l.pid).consistent (h.tasks _ _ htask)
  | quiet hold hresume hgoes hperform =>
    rw [perform_quiet_tasks hgoes hperform, Table.get?_modify_self, hold, Option.map_some,
      Option.some.injEq] at htask
    subst htask
    exact (h.tasks _ _ hold).of_quiet hresume hgoes hperform
  | refused hold hcommit =>
    simp only [resume_tasks, release_tasks, Table.get?_modify_self, hold, Option.map_some,
      Option.some.injEq] at htask
    subst htask
    exact ((h.tasks _ _ hold).of_commit hsame hcommit).2
  | committed hold hcommit =>
    simp only [commit_tasks, Table.get?_modify_self, hold, Option.map_some,
      Option.some.injEq] at htask
    subst htask
    exact ((h.tasks _ _ hold).of_commit hsame hcommit).1

private theorem step_runtimes (h : w.Consistent) (hstep : w.step l = some w') :
    Database.unique_runtime_ids w'.db.sessions = true := by
  cases stepped hstep with
  | drained _ _ _ hdrained => exact hdrained.sessions ▸ h.runtimes
  | quiet _ _ hgoes hperform =>
    rw [(perform_quiet_tables hgoes hperform).1]
    exact h.runtimes
  | committed _ _ _ _ hconflict => simpa using (Database.conflict_eq_false hconflict).2.2.2
  | called | killed | refused => simpa using h.runtimes

/-- Consistency holds in every state of every run: what a task has read under a lock is
the row for as long as it holds the lock. -/
theorem Consistent.step (h : w.Consistent) (hstep : w.step l = some w') : w'.Consistent where
  tasks q task htask := by
    by_cases hq : q = l.pid
    · subst hq
      exact step_own h hstep htask
    · rw [step_tasks_of_ne hstep hq] at htask
      exact (step_kept hstep hq).consistent (h.tasks q task htask)
  runtimes := step_runtimes h hstep

/-- In the empty database there is nothing to be consistent with, and nobody holds a
lock. -/
theorem Consistent.empty : World.empty.Consistent where
  tasks p task htask := by cases htask
  runtimes := rfl

end World

end session_manager
