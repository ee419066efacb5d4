import SessionManager.World.Moves

open unit_of_work

namespace session_manager

open sessions run_executor runtime_reconciler lifecycle

namespace World

variable {w w' : World} {l : Label} {session_id : SessionId} {task next conflict : Task}
  {tx : Transaction}

private theorem create_run_moves {request : CreateRunRequest} {session : AgentSession}
    {run_id : RunId} {message_id : MessageId} {seq : Nat}
    (hrow : w.holds_session l.pid request.session_id session ∧ session.deleted_at = none ∧
      session.status = .READY)
    (htask : w.tasks.get? l.pid =
      some (.create_run (.commit request session run_id message_id seq)))
    (hconflict : w.db.conflict (run_transaction request session run_id message_id seq) = false) :
    w.Moves l session_id (w.commit l.pid (run_transaction request session run_id message_id seq)
      (.create_run (.refresh request run_id))) := by
  obtain ⟨hfresh, -, hactive⟩ :=
    Database.run_conflict_eq_false ((Database.conflict_eq_false hconflict).2.1 _ rfl)
  by_cases hid : request.session_id = session_id
  · subst hid
    have hready : (w.lifecycle request.session_id).session = some (.READY, false) := by
      rw [lifecycle_session hrow.1.2, hrow.2.1, hrow.2.2]
      rfl
    refine .of_commit htask rfl
      ((commit_session_set rfl fun row => ?_).trans (State.set_eq_some_iff.mpr ⟨rfl, _, hready⟩))
      ((commit_created_insert rfl hfresh rfl).trans (if_pos rfl)) (funext fun r => ?_)
      (.submit hready ?_ ?_) trivial
    · simp [run_transaction, update_row_getD, sessions.set_status, column, hrow.2.2]
    · rw [commit_runs_insert rfl hfresh rfl, Function.update_apply]
      simp [new_run]
    · simp [lifecycle_runs_eq_none, hfresh]
    · rintro r ⟨st, hst, hactive'⟩
      obtain ⟨row, hget, hsession, rfl⟩ := lifecycle_runs_eq_some.mp hst
      simp [hactive rfl r row hget hsession] at hactive'
  · refine .of_commit htask rfl (commit_session_same rfl fun row => ?_)
      ((commit_created_insert rfl hfresh rfl).trans (if_neg hid)) (funext fun r => ?_)
      (.shift .leave) trivial
    · simp [run_transaction, update_row_getD, Ne.symm hid]
    · rw [commit_runs_insert rfl hfresh rfl]
      split
      · rename_i hr
        subst hr
        simp [new_run, hid, lifecycle, hfresh]
      · rfl

/-- The row of an executor's run, and its status as the life cycle sees it. -/
private theorem execute_row (h : w.Consistent) {task : Execute} {run_id : RunId} {run : AgentRun}
    {ph : Phase} (htask : w.tasks.get? l.pid = some (.execute task))
    (hwork : task.work = some (run_id, run, ph)) :
    ∃ row, w.db.runs.get? run_id = some row ∧ SameRun run row ∧
      (w.lifecycle run.session_id).views l.pid = .exec run_id ph ∧
      (w.lifecycle run.session_id).runs run_id = some row.status := by
  obtain ⟨⟨row, hget, hsame⟩, -⟩ := (h.tasks l.pid _ htask) _ _ _ hwork
  exact ⟨row, hget, hsame, views_of_work htask hwork,
    lifecycle_runs_eq_some.mpr ⟨row, hget, hsame.1, rfl⟩⟩

section Append

variable {run_id : RunId} {run : AgentRun} {site : Site} {event_id : EventId}

/-- An append writes the session of its site, or leaves the session alone. -/
private theorem append_session :
    ((w.commit l.pid (append_transaction run_id run site event_id) next).lifecycle
      run.session_id).session = (w.lifecycle run.session_id).session ∨
    ∃ x, site.session = some x ∧
      ((w.commit l.pid (append_transaction run_id run site event_id) next).lifecycle
        run.session_id).session = (w.lifecycle run.session_id).set x.current.status := by
  cases hsite : site.session with
  | none =>
    refine .inl (commit_session_same rfl fun row => ?_)
    simp [append_transaction, hsite]
  | some x =>
    have hdeleted : x.current.deleted_at = x.loaded.deleted_at := by
      cases site with
      | started | message =>
        cases hsite
        rfl
      | failed session =>
        obtain ⟨session, -, rfl⟩ := Option.map_eq_some_iff.mp hsite
        rfl
      | emitted | completed => cases hsite
    by_cases hstatus : x.current.status = x.loaded.status
    · refine .inl (commit_session_same rfl fun row => ?_)
      simp [append_transaction, hsite, update_row_getD, hstatus, hdeleted]
    · refine .inr ⟨x, rfl, commit_session_set rfl fun row => ?_⟩
      simp [append_transaction, hsite, update_row_getD, hdeleted, column_of_ne _ hstatus]

/-- The status an append leaves its run. -/
private theorem append_runs {row : AgentRun} (hget : w.db.runs.get? run_id = some row)
    (hsame : SameRun run row) (hkeeps : (append_transaction run_id run site event_id).KeepsRuns) :
    ((w.commit l.pid (append_transaction run_id run site event_id) next).lifecycle
      run.session_id).runs = Function.update (w.lifecycle run.session_id).runs run_id
        (some (column run.status (site.run run).status row.status)) := by
  funext r
  rw [commit_runs rfl hkeeps, Function.update_apply]
  split
  · rename_i hr
    subst hr
    simp [hget, hsame.1, append_transaction, update_row_getD]
  · rename_i hr
    simp [append_transaction, update_row_getD, hr, lifecycle]

variable (h : w.Consistent) {stage : Stage}
  (htask : w.tasks.get? l.pid = some (.execute (.append run_id run site (.commit event_id))))
  (hkeeps : (append_transaction run_id run site event_id).KeepsRuns)
include h htask hkeeps

/-- An append that starts its run. -/
private theorem start_moves {now : Time} {session : AgentSession}
    (hsite : site = .started session now)
    (hview : next.view run.session_id = .exec run_id .running) :
    w.Moves l run.session_id (w.commit l.pid (append_transaction run_id run site event_id) next) := by
  subst hsite
  obtain ⟨row, hget, hsame, hold, hrun⟩ := execute_row h htask rfl
  obtain ⟨⟨-, hrow⟩, hpending⟩ := ((h.tasks l.pid _ htask) _ _ _ rfl).2 rfl
  rw [hget, Option.some.injEq] at hrow
  subst hrow
  rw [hpending] at hrun
  refine ⟨.quiet, ?_, trivial⟩
  rw [commit_lifecycle htask rfl (commit_created rfl hkeeps) (append_runs hget hsame hkeeps), hview,
    hpending]
  refine .start hold hrun ?_
  rcases append_session with hsession | ⟨x, hx, hsession⟩
  · exact .inl hsession
  · cases hx
    exact .inr hsession

/-- An append that ends its run. -/
private theorem finish_moves {final : RunStatus} {v : View RunId}
    (hphase : site.phase run.status false = some (.deciding run.status))
    (hstatus : (site.run run).status = final)
    (hready : ∀ x, site.session = some x → x.current.status = .READY)
    (hfinal : final = .COMPLETED ∧ v = .exec run_id .tail ∨ final = .FAILED ∧ v = .idle)
    (hview : next.view run.session_id = v) :
    w.Moves l run.session_id (w.commit l.pid (append_transaction run_id run site event_id) next) := by
  have hwork : (Execute.append run_id run site (.commit event_id)).work =
      some (run_id, run, .deciding run.status) := by
    simp [Execute.work, Stage.written, hphase]
  obtain ⟨row, hget, hsame, hold, hrun⟩ := execute_row h htask hwork
  refine ⟨.quiet, ?_, trivial⟩
  rw [commit_lifecycle htask rfl (commit_created rfl hkeeps) (append_runs hget hsame hkeeps), hview,
    hstatus]
  refine .finish hold hrun hfinal ?_
  rcases append_session with hsession | ⟨x, hx, hsession⟩
  · exact .inl hsession
  · exact .inr (hready x hx ▸ hsession)

/-- An append that only adds its event. -/
private theorem report_moves {ph : Phase} (hphase : site.phase run.status false = some ph)
    (hrun : site.run run = run) (hsession : site.session = none)
    (hview : next.view run.session_id = .exec run_id ph) :
    w.Moves l run.session_id (w.commit l.pid (append_transaction run_id run site event_id) next) := by
  have hwork : (Execute.append run_id run site (.commit event_id)).work = some (run_id, run, ph) := by
    simp [Execute.work, Stage.written, hphase]
  obtain ⟨row, hget, hsame, hold, hstatus⟩ := execute_row h htask hwork
  refine .shift (hview ▸ hold ▸ .stay) (commit_untouched htask rfl rfl hkeeps (fun row => ?_) ?_)
  · simp [append_transaction, hsession]
  · intro r row' _ _
    by_cases hr : r = run_id <;> simp [append_transaction, update_row_getD, hr, hrun]

private theorem append_moves :
    w.Moves l session_id (w.commit l.pid (append_transaction run_id run site event_id)
      (.execute (.append run_id (site.run run) site .refresh))) := by
  by_cases hid : run.session_id = session_id
  · subst hid
    cases site with
    | started => exact start_moves h htask hkeeps rfl (if_pos rfl)
    | emitted | completed => exact report_moves h htask hkeeps rfl rfl rfl (if_pos rfl)
    | message =>
      exact finish_moves h htask hkeeps rfl rfl (by rintro _ ⟨⟩; rfl) (.inl ⟨rfl, rfl⟩) (if_pos rfl)
    | failed session =>
      refine finish_moves h htask hkeeps rfl rfl ?_ (.inr ⟨rfl, rfl⟩) rfl
      rintro x hx
      obtain ⟨session, -, rfl⟩ := Option.map_eq_some_iff.mp hx
      rfl
  · obtain ⟨ph, hph⟩ := site.phase_of_unwritten run.status
    have hwork : (Execute.append run_id run site (.commit event_id)).work =
        some (run_id, run, ph) := by
      simp [Execute.work, Stage.written, hph]
    obtain ⟨row, hget, hsame, -⟩ := execute_row h htask hwork
    have hview : (Task.execute (.append run_id (site.run run) site .refresh)).view session_id =
        .idle := by
      rw [execute_view rfl]
      cases hwork : site.phase (site.run run).status true <;>
        simp [Execute.work, Stage.written, hwork, (site.run_same run).1, hid]
    refine .shift (hview ▸ .leave) (commit_untouched htask rfl rfl hkeeps (fun row => ?_) ?_)
    · cases hsession : site.session <;>
        simp [append_transaction, hsession, update_row_getD, Ne.symm hid]
    · intro r row' hget' hrow'
      by_cases hr : r = run_id
      · subst hr
        rw [hget, Option.some.injEq] at hget'
        exact absurd (hsame.1.symm.trans (hget' ▸ hrow')) hid
      · simp [append_transaction, update_row_getD, hr]

end Append

section Reconcile

variable {pass : Pass}

/-- A pass writes the outcomes of its sessions that differ from what it read. -/
private theorem pass_write (row : AgentSession) :
    ((pass.transaction.update_session session_id).getD id row).status =
      (pass.outcome session_id).elim row.status (fun x => column x.1 x.2 row.status) ∧
    ((pass.transaction.update_session session_id).getD id row).deleted_at = row.deleted_at := by
  cases hget : pass.sessions.get? session_id with
  | none => simp [Pass.transaction, Pass.outcome, Pass.copy, hget]
  | some s =>
    simp [Pass.transaction, Pass.outcome, Pass.copy, hget, Loaded.update_getD,
      reconcile_session_deleted_at]

private theorem outcome_cases {old new : SessionStatus}
    (houtcome : pass.outcome session_id = some (old, new)) :
    new = old ∨ new = .EXPIRED ∨ new = .FAILED ∨ (old = .CREATING ∧ new = .READY) ∨
      (old = .STOPPING ∧ new = .STOPPED) := by
  simp only [Pass.outcome, Pass.copy, Option.map_map, Option.map_eq_some_iff] at houtcome
  obtain ⟨s, -, hs⟩ := houtcome
  cases hs
  exact reconcile_session_status ..

variable (htask : w.tasks.get? l.pid = some (.reconcile (.commit pass)))
include htask

private theorem pass_untouched (hsame : ∀ x, pass.outcome session_id = some x → x.2 = x.1) :
    (w.commit l.pid pass.transaction (.reconcile .returned)).lifecycle session_id =
      (w.lifecycle session_id).see l.pid .idle := by
  refine commit_untouched htask rfl rfl (no_update_keeps rfl) (fun row => ?_) fun _ _ _ _ => rfl
  refine ⟨?_, (pass_write row).2⟩
  rw [(pass_write row).1]
  cases houtcome : pass.outcome session_id with
  | none => rfl
  | some x => simp [hsame x houtcome]

private theorem pass_set {old new : SessionStatus}
    (houtcome : pass.outcome session_id = some (old, new)) (hne : new ≠ old) :
    (w.commit l.pid pass.transaction (.reconcile .returned)).lifecycle session_id =
      { (w.lifecycle session_id).see l.pid .idle with
        session := (w.lifecycle session_id).set new } := by
  refine commit_lifecycle htask (commit_session_set rfl fun row => ?_)
    (commit_created rfl (no_update_keeps rfl))
    (commit_runs_same rfl (no_update_keeps rfl) fun _ _ _ _ => rfl)
  simp [pass_write row, houtcome, column_of_ne _ hne]

private theorem reconcile_moves (hinput : l.input = .returned) :
    w.Moves l session_id (w.commit l.pid pass.transaction (.reconcile .returned)) := by
  cases houtcome : pass.outcome session_id with
  | none =>
    refine .shift .leave (pass_untouched htask ?_)
    simp [houtcome]
  | some x =>
    obtain ⟨old, new⟩ := x
    by_cases hsame : new = old
    · refine .shift .leave (pass_untouched htask ?_)
      simp [houtcome, hsame]
    have hlife := pass_set htask houtcome hsame
    have hcommits : w.Commits l (.reconcile (.commit pass)) := ⟨htask, hinput⟩
    unfold Moves
    rw [hlife]
    rcases outcome_cases houtcome with rfl | rfl | rfl | ⟨rfl, rfl⟩ | ⟨rfl, rfl⟩
    · exact absurd rfl hsame
    · exact ⟨.expire, .expire, _, hcommits, by simp [Task.expires, houtcome, Ne.symm hsame]⟩
    · exact ⟨.quiet, .set (.inl rfl), trivial⟩
    · refine ⟨.mark, .mark ?_, _, hcommits, by simp [Task.marks, houtcome]⟩
      exact (lifecycle_views htask).trans (if_pos houtcome)
    · refine ⟨.close [], ?_, _, hcommits, by simp [Task.closes, houtcome]⟩
      have hclose : Move l.pid (w.lifecycle session_id) (.close []) _ :=
        .close (fun _ => .STOPPED) false (.inl fun _ => rfl) (by simp) (by simp)
      simpa [State.set, State.cancel] using hclose

end Reconcile

private theorem commit_moves (h : w.Consistent) (htask : w.tasks.get? l.pid = some task)
    (hcommit : Commit l task tx next conflict) (hinput : l.input = .returned)
    (hconflict : w.db.conflict tx = false) : w.Moves l session_id (w.commit l.pid tx next) := by
  have hkeeps := hcommit.keepsRuns
  have hrow := h.tasks l.pid _ htask
  cases hcommit with
  | insert_session => exact insert_session_moves hrow htask hconflict
  | create_failed => exact create_failed_moves htask
  | create_ready => exact create_ready_moves hinput htask
  | create_run => exact create_run_moves hrow htask hconflict
  | stopping => exact stop_status_moves (.inr rfl) htask
  | stop_failed => exact stop_status_moves (.inl rfl) htask
  | stopped => exact stopped_moves h hrow htask hinput hkeeps
  | deleted => exact deleted_moves h hrow htask hinput hkeeps
  | append => exact append_moves h htask hkeeps
  | reconcile => exact reconcile_moves htask hinput

/-- The report of a COMPLETED run violates no constraint. -/
private theorem conflict_completed (h : w.Consistent) (run_id : RunId) (run : AgentRun)
    (event_id : EventId) :
    w.db.conflict (append_transaction run_id run .completed event_id) = false := by
  have hsessions : (w.db.apply (append_transaction run_id run .completed event_id)).sessions =
      w.db.sessions := w.db.sessions.updateRows_none
  simp only [Database.conflict, hsessions, h.runtimes]
  rfl

private theorem shift_or_relapse
    (hshift : Shift (w.lifecycle session_id) l.pid (next.view session_id) ∨
      ∃ r, w.Relapses l session_id r ∧ next.view session_id = .exec r .running)
    (hsee : w'.lifecycle session_id = (w.lifecycle session_id).see l.pid (next.view session_id)) :
    w.Moves l session_id w' := by
  rcases hshift with hshift | ⟨r, hrelapse, hview⟩
  · exact .shift hshift hsee
  · refine ⟨.relapse, ?_, r, hrelapse⟩
    rw [hsee, hview]
    exact .relapse hrelapse.2

/-- A constraint that refuses a commit leaves an executor to its failure path. -/
private theorem refused_moves (h : w.Consistent) (htask : w.tasks.get? l.pid = some task)
    (hcommit : Commit l task tx next conflict) (hconflict : w.db.conflict tx = true) :
    w.Moves l session_id ((w.release l.pid).resume l.pid conflict) := by
  have hsee : ((w.release l.pid).resume l.pid conflict).lifecycle session_id =
      (w.lifecycle session_id).see l.pid (conflict.view session_id) := by
    refine lifecycle_of_tables_eq (by simp) (by simp) fun q => ?_
    simp only [resume_tasks, release_tasks, Table.get?_modify]
    split <;> simp_all
  cases hcommit with
  | append run_id run site event_id =>
    have hsite : site ≠ .completed := by
      rintro rfl
      simp [conflict_completed h] at hconflict
    exact shift_or_relapse (h.work_shift htask (work_refused _ _ _ _ _ hsite _)) hsee
  | _ => exact .shift .leave hsee

/-- Every step of the system is a step of the life cycle of each session. What is proved
of the life cycle holds of the program by this theorem. -/
theorem Consistent.step_moves (h : w.Consistent) (hstep : w.step l = some w')
    (session_id : SessionId) : w.Moves l session_id w' := by
  cases stepped hstep with
  | called operation hfresh =>
    have hidle : (spawn l operation).view session_id = .idle := by cases operation <;> rfl
    refine .shift (v := (spawn l operation).view session_id) (hidle ▸ .leave)
      (lifecycle_of_tables_eq rfl rfl fun q => ?_)
    exact Table.get?_insert _ _ hfresh q
  | killed htask =>
    have hsee : (w.resume l.pid .killed).lifecycle session_id =
        (w.lifecycle session_id).see l.pid (Task.killed.view session_id) := by
      refine lifecycle_of_tables_eq (by simp) (by simp) fun q => ?_
      simp only [resume_tasks, Table.get?_modify]
      split <;> simp_all
    exact .shift .leave hsee
  | @drained _ task _ htask _ _ hdrained =>
    have hstay : Shift (w.lifecycle session_id) l.pid ((Task.execute task).view session_id) :=
      lifecycle_views htask ▸ .stay
    refine .shift hstay (lifecycle_of_tables_eq hdrained.sessions hdrained.runs fun q => ?_)
    rw [hdrained.tasks]
    split <;> simp_all
  | quiet htask hresume hgoes hperform =>
    obtain ⟨hsessions, hruns⟩ := perform_quiet_tables hgoes hperform
    refine shift_or_relapse (h.quiet_shift htask hresume hgoes hperform session_id)
      (lifecycle_of_tables_eq hsessions hruns fun q => ?_)
    rw [perform_quiet_tasks hgoes hperform, Table.get?_modify]
    split <;> simp_all
  | refused htask hcommit _ hconflict => exact refused_moves h htask hcommit hconflict
  | committed htask hcommit hinput _ hconflict => exact commit_moves h htask hcommit hinput hconflict

end World

end session_manager
