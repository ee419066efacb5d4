import SessionManager.World.Invariant

open unit_of_work

namespace session_manager

open sessions run_executor runtime_reconciler lifecycle

variable {w w' : World} {p : Pid} {l : Label} {id : SessionId}

private theorem marker_shift {task next : Task} (htask : w.tasks.get? p = some task)
    (hview : next.view id = task.view id ∨ next.view id = .idle) :
    Shift (w.lifecycle id) p (next.view id) := by
  rcases hview with hview | hview <;> rw [hview]
  · rw [← World.lifecycle_views htask]
    exact .stay
  · exact .leave

private theorem create_session_shift {task : CreateSession} {action : Action} {next : Task}
    (htask : w.tasks.get? p = some (.create_session task))
    (hresume : task.resume w.db l = some action) (hgoes : action.goes = some next) :
    Shift (w.lifecycle id) p (next.view id) := by
  apply marker_shift htask
  cases CreateSession.resumes hresume with
  | insert | commit_failed | commit_ready => cases hgoes
  | docker | healthy =>
    cases hgoes
    exact .inl rfl
  | docker_raised | missing | refresh | failed =>
    cases hgoes
    exact .inr rfl

private theorem create_run_shift {task : CreateRun} {action : Action} {next : Task}
    (hresume : task.resume w.db l = some action) (hgoes : action.goes = some next) :
    Shift (w.lifecycle id) p (next.view id) := by
  cases CreateRun.resumes hresume <;> cases hgoes <;> exact .leave

private theorem stop_session_shift {task : StopSession} {action : Action} {next : Task}
    (hresume : task.resume w.db l = some action) (hgoes : action.goes = some next) :
    Shift (w.lifecycle id) p (next.view id) := by
  cases StopSession.resumes hresume <;> cases hgoes <;> exact .leave

private theorem delete_session_shift {task : DeleteSession} {action : Action} {next : Task}
    (htask : w.tasks.get? p = some (.delete_session task))
    (hresume : task.resume w.db l = some action) (hgoes : action.goes = some next) :
    Shift (w.lifecycle id) p (next.view id) := by
  cases DeleteSession.resumes hresume with
  | get _ hsession =>
    cases hgoes
    obtain ⟨hget, -⟩ := Database.get_session_eq_some hsession
    rw [delete_runtime_view]
    split
    · rename_i hstopped
      obtain ⟨rfl, hstopped⟩ := hstopped
      have hrow := World.lifecycle_session hget
      rw [hstopped] at hrow
      exact .load_stopped (World.lifecycle_views htask) hrow
    · exact .leave
  | delete | cancel =>
    cases hgoes
    exact marker_shift htask (.inl rfl)
  | commit => cases hgoes
  | missing | delete_raised | failed =>
    cases hgoes
    exact .leave

private theorem outcome_loaded {pass : Pass} {old new : SessionStatus}
    (h : pass.outcome id = some (old, new)) :
    ∃ s, pass.sessions.get? id = some s ∧ s.status = old := by
  simp only [Pass.outcome, Pass.copy, Option.map_map, Option.map_eq_some_iff] at h
  obtain ⟨s, hget, hs⟩ := h
  exact ⟨s, hget, congrArg Prod.fst hs⟩

private theorem reconcile_shift {task : Reconcile} {action : Action} {next : Task}
    (htask : w.tasks.get? p = some (.reconcile task))
    (hresume : task.resume w.db l = some action) (hgoes : action.goes = some next) :
    Shift (w.lifecycle id) p (next.view id) := by
  cases Reconcile.resumes hresume with
  | select =>
    cases hgoes
    rw [next_deletion_view]
    split
    · rename_i houtcome
      obtain ⟨s, hget, hcreating⟩ := outcome_loaded houtcome
      have hrow := World.lifecycle_session hget
      rw [hcreating] at hrow
      exact .load_creating (World.lifecycle_views htask) hrow
    · exact .leave
  | delete =>
    cases hgoes
    exact marker_shift htask (.inl (next_deletion_view ..))
  | commit => cases hgoes
  | unlisted | listed | failed =>
    cases hgoes
    exact .leave

/-- The task that starts a run holds the lock of its row, and so its copy of the run is
the row. -/
theorem World.Consistent.starting (h : w.Consistent) {q : Pid} {r : RunId}
    (hview : (w.lifecycle id).views q = .exec r .starting) :
    ∃ run, w.holds_run q r run ∧ run.status = .PENDING := by
  obtain ⟨task, run, htask, hwork, -⟩ := World.exec_of_lifecycle hview
  exact ⟨run, ((h.tasks q _ htask) r run _ hwork).2 rfl⟩

private theorem lock_shift (h : w.Consistent) {run_id : RunId} {run : AgentRun}
    (htask : w.tasks.get? p = some (.execute (.select run_id)))
    (hfree : w.run_locks.free p run_id = true) (hget : w.db.runs.get? run_id = some run)
    (hpending : run.status = .PENDING) :
    Shift (w.lifecycle id) p ((Task.execute (.get_session run_id run)).view id) := by
  rw [execute_view rfl]
  simp only [Execute.work, Option.elim_some]
  split
  · rename_i hsession
    refine .lock (World.lifecycle_views htask)
      (World.lifecycle_runs_eq_some.mpr ⟨run, hget, hsession, hpending⟩) fun q hq => ?_
    obtain ⟨run', hheld, -⟩ := h.starting hq
    have hqp : q = p := RowLocks.not_held_of_free hfree hheld.1
    rw [hqp, World.lifecycle_views htask] at hq
    cases hq
  · exact .leave

/-- The database fails for an executor that has committed its run. -/
def World.Relapses (w : World) (l : Label) (id : SessionId) (r : RunId) : Prop :=
  l.input = .failed ∧ (w.lifecycle id).views l.pid = .exec r .tail

/-- What an executor does without a commit only moves its view, as `Shift` allows,
unless the database fails after its run is committed: then it is back at work on a
finished run. -/
theorem World.Consistent.work_shift (h : w.Consistent) {task next : Execute}
    (htask : w.tasks.get? l.pid = some (.execute task))
    (hwork : WorkChange w.db l task.work next.work) :
    Shift (w.lifecycle id) l.pid ((Task.execute next).view id) ∨
    ∃ r, w.Relapses l id r ∧ (Task.execute next).view id = .exec r .running := by
  have hview : (w.lifecycle id).views l.pid = _ := World.lifecycle_views htask
  have hold := h.tasks l.pid _ htask
  generalize hw : task.work = work at hwork
  generalize hw' : next.work = work' at hwork
  rw [execute_view hw] at hview
  rw [execute_view hw']
  cases hwork with
  | stay => exact .inl (hview ▸ .stay)
  | leave => exact .inl .leave
  | @reload run_id run run' hget =>
    obtain ⟨⟨row, hrow, hsame⟩, -⟩ := hold _ _ _ hw
    rw [hget, Option.some.injEq] at hrow
    subst hrow
    simp only [Option.elim_some, hsame.1] at hview ⊢
    split
    · rename_i hsession
      rw [if_pos hsession] at hview
      unfold checked
      split
      · exact .inl (hview ▸ .stay)
      · rename_i hst
        exact .inl (.read hview
          (World.lifecycle_runs_eq_some.mpr ⟨run', hget, hsame.1.trans hsession, rfl⟩) hst)
    · exact .inl .leave
  | @retry run_id run loaded =>
    simp only [Option.elim_some] at hview ⊢
    split
    · rename_i hsession
      rw [if_pos hsession] at hview
      exact .inl (.retry hview)
    · exact .inl .leave
  | @relapse run_id run hfailed =>
    simp only [Option.elim_some] at hview ⊢
    split
    · rename_i hsession
      rw [if_pos hsession] at hview
      exact .inr ⟨run_id, ⟨hfailed, hview⟩, rfl⟩
    · exact .inl .leave

private theorem execute_shift (h : w.Consistent) {task : Execute} {action : Action} {next : Task}
    (htask : w.tasks.get? l.pid = some (.execute task))
    (hresume : task.resume w.db l = some action) (hgoes : action.goes = some next)
    (hperform : w.perform l.pid action = some w') :
    Shift (w.lifecycle id) l.pid (next.view id) ∨
    ∃ r, w.Relapses l id r ∧ next.view id = .exec r .running := by
  cases Execute.resumed hresume with
  | refuse =>
    cases hgoes
    exact .inl .leave
  | commit => cases hgoes
  | @lock run_id run hselect hget hpending =>
    cases hgoes
    subst hselect
    simp only [World.perform, Option.ite_none_right_eq_some] at hperform
    exact .inl (lock_shift h htask hperform.1 hget hpending)
  | @go next' _ hgoes' hwork =>
    obtain rfl := Option.some.inj (hgoes.symm.trans hgoes')
    exact h.work_shift htask hwork

/-- What a step that commits nothing does to the life cycle of a session. The one
exception is the relapse of an executor for which the database fails too late. -/
theorem World.Consistent.quiet_shift (h : w.Consistent) {task next : Task} {action : Action}
    (htask : w.tasks.get? l.pid = some task) (hresume : task.resume w.db l = some action)
    (hgoes : action.goes = some next) (hperform : w.perform l.pid action = some w')
    (id : SessionId) :
    Shift (w.lifecycle id) l.pid (next.view id) ∨
    ∃ r, w.Relapses l id r ∧ next.view id = .exec r .running := by
  cases task with
  | create_session task => exact .inl (create_session_shift htask hresume hgoes)
  | create_run task => exact .inl (create_run_shift hresume hgoes)
  | execute task => exact execute_shift h htask hresume hgoes hperform
  | stop_session task => exact .inl (stop_session_shift hresume hgoes)
  | delete_session task => exact .inl (delete_session_shift htask hresume hgoes)
  | reconcile task => exact .inl (reconcile_shift htask hresume hgoes)
  | killed => cases hresume

end session_manager
