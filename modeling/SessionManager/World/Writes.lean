import SessionManager.World.Log
import SessionManager.World.Moves

namespace session_manager

open sessions run_executor lifecycle

/-- The task is about to take the id of the first event of a run of the session. -/
def Task.opens (session_id : SessionId) : Task → Bool
  | execute (.append _ run (.started ..) .flush) => run.session_id = session_id
  | _ => false

/-- The task has committed the end of a run of the session and not taken the id
of its run.completed. -/
def Task.unreported (session_id : SessionId) : Task → Bool
  | execute (.append _ run (.message ..) .refresh) | execute (.append _ run (.message ..) .publish)
  | execute (.append _ run .completed .flush) => run.session_id = session_id
  | _ => false

private theorem Task.unreported_of_due {session_id : SessionId} {task : Task} {r : RunId}
    (h : task.pen session_id = .due r) : task.unreported session_id = true := by
  unfold pen at h
  split at h
  · rename_i run_id run site stage
    split at h
    · rename_i hsession
      cases site <;> cases stage <;> simp_all [Site.pen, unreported]
    · cases h
  · cases h

section Resume

variable {db : Database} {l : Label} {call call' : Execute} {task next : Task} {action : Action}
  {session_id : SessionId}

/-- Ids are taken at the flush of an append. -/
private theorem resume_take_event_id (hresume : task.resume db l = some (.take_event_id next)) :
    l.input = .returned ∧ ∃ run_id run site,
      task = .execute (.append run_id run site .flush) ∧
      next = .execute (.append run_id run site (.commit db.next_event_id)) := by
  obtain ⟨call, rfl⟩ := Task.execute_of_action hresume rfl
  cases Execute.resumes hresume with
  | flush hinput => exact ⟨hinput, _, _, _, rfl, rfl⟩

private theorem pen_append_raised (run_id : RunId) (run : AgentRun) (error : String) (site : Site) :
    (Task.execute (append_raised run_id run error site)).pen session_id = .down := by
  cases site <;> rfl

private theorem pen_after_append (run_id : RunId) (run : AgentRun) (site : Site) :
    (Task.execute (after_append run_id run site)).pen session_id = .down ∨
    (Task.execute (after_append run_id run site)).pen session_id =
      (Task.execute (.append run_id run site .publish)).pen session_id := by
  cases site with
  | message => exact .inr rfl
  | started | emitted | completed | failed => exact .inl rfl

/-- An executor that takes no id keeps what it holds, or lets go of it. -/
private theorem pen_of_resume (hresume : call.resume db l = some action)
    (hgoes : action.goes = some (.execute call')) (hid : ∀ next, action ≠ .take_event_id next) :
    (Task.execute call').pen session_id = .down ∨
    (Task.execute call').pen session_id = (Task.execute call).pen session_id := by
  cases Execute.resumes hresume with
  | flush => exact absurd rfl (hid _)
  | commit => cases hgoes
  | refresh =>
    cases hgoes
    exact .inr rfl
  | call_agent | publish =>
    cases hgoes
    exact pen_after_append ..
  | append_failed =>
    cases hgoes
    exact .inl (pen_append_raised ..)
  | _ =>
    cases hgoes
    exact .inl (by simp [Task.pen, Site.pen])

/-- An executor starts its run by the commit of its first event only. -/
private theorem starting_of_resume (hresume : call.resume db l = some action)
    (hgoes : action.goes = some (.execute call')) {r r' : RunId} {run run' : AgentRun} {ph : Phase}
    (hwork : call.work = some (r, run, .starting)) (hwork' : call'.work = some (r', run', ph)) :
    ph = .starting := by
  cases Execute.resumed hresume with
  | lock htask | refuse htask =>
    subst htask
    cases hwork
  | commit => cases hgoes
  | @go next _ hgoes' hchange =>
    cases hgoes.symm.trans hgoes'
    rw [hwork, hwork'] at hchange
    generalize hold : some (r, run, Phase.starting) = old at hchange
    generalize hnew : some (r', run', ph) = new at hchange
    cases hchange with
    | stay =>
      cases hold.trans hnew.symm
      rfl
    | leave => cases hnew
    | reload | retry | relapse => cases hold

end Resume

namespace World

variable {w w' : World} {l : Label} {session_id : SessionId} {task next conflict : Task}
  {tx : Transaction}

/-- A step that writes no entry and takes no id. -/
private theorem write_rest (hstep : w.step l = some w') (hnext : w'.tasks.get? l.pid = some next)
    (hentries : (w'.log session_id).entries = (w.log session_id).entries)
    (hid : w.db.next_event_id ≤ w'.db.next_event_id)
    (hpen : next.pen session_id = .down ∨ next.pen session_id = (w.log session_id).pens l.pid)
    (hstarting : ∀ r ph, (w.lifecycle session_id).views l.pid = .exec r .starting →
      next.view session_id = .exec r ph → ph = .starting) :
    Write l.pid (w.lifecycle session_id) (w'.lifecycle session_id) (w.log session_id)
      (w'.log session_id) := by
  rw [step_log hstep hnext hentries]
  refine .rest hid hpen fun r ph hview hview' => ?_
  rw [lifecycle_views hnext] at hview'
  exact hstarting r ph hview hview'

/-- The first id of a run is taken while nothing of the session is unreported. -/
def reported (w : World) (l : Label) (session_id : SessionId) : Prop :=
  ∀ task, w.Commits l task → task.opens session_id = true →
    w.tasks.Forall fun _ other => other.unreported session_id = false

private theorem not_due (h : w.tasks.Forall fun _ other => other.unreported session_id = false)
    {q : Pid} {r : RunId} (hdue : (w.log session_id).pens q = .due r) : False := by
  cases hother : w.tasks.get? q with
  | none => simp [log, hother] at hdue
  | some other =>
    rw [log_pens hother] at hdue
    have hunreported := Task.unreported_of_due hdue
    simp [h q other hother] at hunreported

private theorem write_take {run_id : RunId} {run : AgentRun} {site : Site}
    (hreported : w.reported l session_id)
    (hinput : l.input = .returned) (hstep : w.step l = some w')
    (htask : w.tasks.get? l.pid = some (.execute (.append run_id run site .flush)))
    (hnext : w'.tasks.get? l.pid =
      some (.execute (.append run_id run site (.commit w.db.next_event_id))))
    (hevents : w'.db.events = w.db.events) (hid : w'.db.next_event_id = w.db.next_event_id + 1) :
    Write l.pid (w.lifecycle session_id) (w'.lifecycle session_id) (w.log session_id)
      (w'.log session_id) := by
  have hentries : (w'.log session_id).entries = (w.log session_id).entries := by
    simp [log, hevents]
  have hsame : (w'.lifecycle session_id).views l.pid = (w.lifecycle session_id).views l.pid := by
    rw [lifecycle_views hnext, lifecycle_views htask]
    rfl
  by_cases hsession : run.session_id = session_id
  · have hpen : (w.log session_id).pens l.pid = _ := log_pens htask
    have hnext_pen : (Task.execute (.append run_id run site (.commit w.db.next_event_id))).pen
        session_id = .holding run_id w.db.next_event_id site.event_type.mark := if_pos hsession
    rw [step_log hstep hnext hentries, hid, hnext_pen]
    obtain ⟨ph, hph⟩ := site.phase_of_unwritten run.status
    have hview : (w.lifecycle session_id).views l.pid = .exec run_id ph := by
      rw [lifecycle_views htask, execute_view rfl]
      simp [Execute.work, Stage.written, hph, hsession]
    refine .take hview hsame (site.mark_opening_iff hph) ?_ fun hmark q r' hdue => ?_
    · rintro rfl
      rw [hpen]
      cases site <;> cases hph
      exact if_pos hsession
    · obtain ⟨session, now, rfl⟩ := site.started_of_opening hmark
      exact not_due (hreported _ ⟨htask, hinput⟩ (by simp [Task.opens, hsession])) hdue
  · refine write_rest hstep hnext hentries (hid ▸ Nat.le_succ _) (.inl (if_neg hsession)) ?_
    intro r ph hview hview'
    rw [← lifecycle_views hnext, hsame, hview, View.exec.injEq] at hview'
    exact hview'.2.symm

/-- The commit inside an append of the session. -/
private theorem write_append {run_id : RunId} {run : AgentRun} {site : Site} {event_id : EventId}
    (hstep : w.step l = some w')
    (htask : w.tasks.get? l.pid = some (.execute (.append run_id run site (.commit event_id))))
    (hw' : w' = w.commit l.pid (append_transaction run_id run site event_id)
      (.execute (.append run_id (site.run run) site .refresh))) :
    Write l.pid (w.lifecycle session_id) (w'.lifecycle session_id) (w.log session_id)
      (w'.log session_id) := by
  have hnext : w'.tasks.get? l.pid = some (.execute (.append run_id (site.run run) site .refresh)) := by
    simp [hw', htask]
  have hevents : w'.db.events = w.db.events ++ [site.event run_id run event_id] := by
    simp [hw', Database.apply, append_transaction]
  have hid : w'.db.next_event_id = w.db.next_event_id := by
    simp [hw', Database.apply]
  have hsame := (site.run_same run).1
  by_cases hsession : run.session_id = session_id
  · have hpen : (w.log session_id).pens l.pid =
        .holding run_id event_id site.event_type.mark := (log_pens htask).trans (if_pos hsession)
    have hentries : (w'.log session_id).entries =
        (w.log session_id).entries ++ [⟨event_id, run_id, site.event_type.mark⟩] := by
      simp [log, hevents, SessionEvent.entry, Site.event, hsession]
    have hnext_pen : (Task.execute (.append run_id (site.run run) site .refresh)).pen session_id =
        site.pen run_id .refresh := if_pos (hsame.trans hsession)
    have hview : (w'.lifecycle session_id).views l.pid = _ := lifecycle_views hnext
    rw [execute_view rfl] at hview
    rw [step_log hstep hnext hentries, hid, hnext_pen]
    refine .write hpen (fun hmark => ?_) (fun hmark => ?_) ?_
    · obtain ⟨session, now, rfl⟩ := site.started_of_opening hmark
      rw [hview]
      exact if_pos (hsame.trans hsession)
    · rw [hview]
      cases site with
      | emitted => simp [Site.mark_emitted] at hmark
      | started | message => cases hmark
      | completed | failed => simp [Site.pen, Execute.work, Site.phase, Stage.written, hsame.trans hsession]
    · cases site with
      | started | emitted | completed | failed => exact .inl rfl
      | message =>
        refine .inr ⟨rfl, run.status, ?_⟩
        rw [lifecycle_views htask, execute_view rfl]
        exact if_pos hsession
  · have hentries : (w'.log session_id).entries = (w.log session_id).entries := by
      simp [log, hevents, Site.event, hsession]
    refine write_rest hstep hnext hentries (Nat.le_of_eq hid.symm) (.inl (if_neg (hsame ▸ hsession))) ?_
    intro r ph hview
    obtain ⟨task, run', htask', hwork, hsession'⟩ := exec_of_lifecycle hview
    cases htask.symm.trans htask'
    obtain ⟨ph', -, heq⟩ := Option.map_eq_some_iff.mp hwork
    cases heq
    exact absurd hsession' hsession

/-- A step of a task that is no executor. -/
private theorem write_other (hstep : w.step l = some w') (hnext : w'.tasks.get? l.pid = some next)
    (hservice : next.service ≠ some .execute) (hevents : w'.db.events = w.db.events)
    (hid : w.db.next_event_id ≤ w'.db.next_event_id) :
    Write l.pid (w.lifecycle session_id) (w'.lifecycle session_id) (w.log session_id)
      (w'.log session_id) := by
  refine write_rest hstep hnext (by simp [log, hevents]) hid ?_ fun r ph _ hview => ?_
  · cases next with
    | execute => exact absurd rfl hservice
    | _ => exact .inl rfl
  · obtain ⟨call, run, rfl, -⟩ := Task.view_eq_exec hview
    exact absurd rfl hservice

private theorem write_quiet {action : Action} (hreported : w.reported l session_id)
    (hstep : w.step l = some w') (htask : w.tasks.get? l.pid = some task)
    (hresume : task.resume w.db l = some action) (hgoes : action.goes = some next)
    (hperform : w.perform l.pid action = some w') :
    Write l.pid (w.lifecycle session_id) (w'.lifecycle session_id) (w.log session_id)
      (w'.log session_id) := by
  have hnext : w'.tasks.get? l.pid = some next := by
    simp [perform_quiet_tasks hgoes hperform, htask]
  obtain ⟨hevents, hid⟩ := perform_quiet_events hgoes hperform
  by_cases hservice : next.service = some .execute
  swap
  · exact write_other hstep hnext hservice hevents hid
  obtain ⟨call', rfl⟩ := Task.execute_of_service hservice
  by_cases htake : action = .take_event_id (.execute call')
  · subst htake
    obtain ⟨hinput, run_id, run, site, rfl, hcall⟩ := resume_take_event_id hresume
    rw [hcall] at hnext
    have hcounter : w'.db.next_event_id = w.db.next_event_id + 1 := by
      cases hperform
      simp
    exact write_take hreported hinput hstep htask hnext hevents hcounter
  · obtain ⟨call, rfl⟩ := Task.execute_of_service
      ((Task.service_of_resume hresume hgoes).symm.trans hservice)
    have hid' : ∀ next, action ≠ .take_event_id next := by
      rintro _ rfl
      cases hgoes
      exact htake rfl
    refine write_rest hstep hnext (by simp [log, hevents]) hid ?_ fun r ph hview hview' => ?_
    · rw [log_pens htask]
      exact pen_of_resume hresume hgoes hid'
    · rw [lifecycle_views htask] at hview
      obtain ⟨_, run, hcall, hwork, -⟩ := Task.view_eq_exec hview
      obtain ⟨_, run', hcall', hwork', -⟩ := Task.view_eq_exec hview'
      cases hcall
      cases hcall'
      exact starting_of_resume hresume hgoes hwork hwork'

/-- A constraint refuses the commit of an append. -/
private theorem write_refused {run_id : RunId} {run : AgentRun} {site : Site} {event_id : EventId}
    {error : String} (hstep : w.step l = some w')
    (htask : w.tasks.get? l.pid = some (.execute (.append run_id run site (.commit event_id))))
    (hnext : w'.tasks.get? l.pid = some (.execute (append_raised run_id run error site)))
    (hdb : w'.db = w.db) :
    Write l.pid (w.lifecycle session_id) (w'.lifecycle session_id) (w.log session_id)
      (w'.log session_id) := by
  refine write_rest hstep hnext (by simp [log, hdb]) (by simp [hdb]) (.inl (pen_append_raised ..)) ?_
  intro r ph hview hview'
  rw [lifecycle_views htask] at hview
  obtain ⟨_, _, hcall, hwork, -⟩ := Task.view_eq_exec hview
  obtain ⟨_, _, hcall', hwork', -⟩ := Task.view_eq_exec hview'
  cases hcall
  cases hcall'
  cases site <;> cases hwork
  cases hwork'

/-- An agent of the session emits in this step, though its run has raised: the
worker that it has left behind goes on. -/
def late (session_id : SessionId) (w : World) (l : Label) : Bool :=
  match l.input with
  | .drain _ => (w.drains.get? l.pid).any fun drain => drain.session_id = some session_id
  | _ => false

/-- What is left behind of the agents of other sessions writes to the logs of these. -/
private theorem drain_entries {move : DrainMove} (hinput : l.input = .drain move)
    (hlate : w.late session_id l = false) (hdrain : w.drain l.pid move = some w') :
    (w'.log session_id).entries = (w.log session_id).entries ∧
    w.db.next_event_id ≤ w'.db.next_event_id := by
  unfold drain at hdrain
  split at hdrain <;> cases hdrain
  · exact ⟨rfl, Nat.le_succ _⟩
  · rename_i id _ _ _ _ hget
    have hother : id ≠ session_id := by simpa [late, hinput, hget, Drain.session_id] using hlate
    exact ⟨by simp [log, hother], Nat.le_refl _⟩
  · exact ⟨rfl, Nat.le_refl _⟩

private theorem write_drained {move : DrainMove} (hstep : w.step l = some w')
    (htask : w.tasks.get? l.pid = some task) (hinput : l.input = .drain move)
    (hlate : w.late session_id l = false) (hdrain : w.drain l.pid move = some w') :
    Write l.pid (w.lifecycle session_id) (w'.lifecycle session_id) (w.log session_id)
      (w'.log session_id) := by
  have hnext : w'.tasks.get? l.pid = some task := (Drained.of_drain hdrain).tasks ▸ htask
  obtain ⟨hentries, hid⟩ := drain_entries hinput hlate hdrain
  refine write_rest hstep hnext hentries hid (.inr (log_pens htask).symm) fun r ph hview hview' => ?_
  rw [lifecycle_views htask, hview', View.exec.injEq] at hview
  exact hview.2

/-- Every step of the tasks is a step of the log of the session, as long as
nobody opens a run while the end of another one is unreported, and no agent of
the session emits once its run has raised. -/
theorem step_writes (hreported : w.reported l session_id) (hlate : w.late session_id l = false)
    (hstep : w.step l = some w') :
    Write l.pid (w.lifecycle session_id) (w'.lifecycle session_id) (w.log session_id)
      (w'.log session_id) := by
  obtain ⟨next, hnext⟩ := step_task_exists hstep
  cases stepped hstep with
  | called operation hfresh =>
    refine write_rest hstep hnext rfl (Nat.le_refl _) ?_ fun r ph hview => ?_
    · simp only [Table.get?_insert _ _ hfresh, if_true, Option.some.injEq] at hnext
      subst hnext
      cases operation <;> exact .inl rfl
    · simp [lifecycle, hfresh] at hview
  | killed htask =>
    have hkilled : next = .killed := by simpa [htask, eq_comm] using hnext
    exact write_other hstep hnext (by simp [hkilled, Task.service]) (by simp) (by simp)
  | drained htask hinput hdrain => exact write_drained hstep htask hinput hlate hdrain
  | quiet htask hresume hgoes hperform =>
    exact write_quiet hreported hstep htask hresume hgoes hperform
  | @refused task _ conflict _ htask hcommit _ hconflict =>
    have hraised : next = conflict := by simpa [htask, eq_comm] using hnext
    subst hraised
    cases hcommit with
    | append => exact write_refused hstep htask hnext (by simp)
    | _ => exact write_other hstep hnext (by simp [Task.service]) (by simp) (by simp)
  | @committed task after _ _ htask hcommit _ _ hconflict =>
    have hafter : next = after := by simpa [htask, eq_comm] using hnext
    subst hafter
    cases hcommit with
    | append => exact write_append hstep htask rfl
    | _ =>
      refine write_other hstep hnext (by simp [Task.service]) ?_ ?_ <;>
        simp [Database.apply, run_transaction, stop_transaction, runtime_reconciler.Pass.transaction]

end World

end session_manager
