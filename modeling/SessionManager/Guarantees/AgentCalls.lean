import SessionManager.Library.Transition
import SessionManager.Lifecycle.Change
import SessionManager.World.Calls
import SessionManager.World.Refinement

open transition unit_of_work

namespace session_manager

open run_executor lifecycle

/-- The run whose start the call has committed, when its next await is the call
of the agent at the latest. -/
def run_executor.Execute.launches : Execute → Option RunId
  | append run_id _ (.started ..) stage => if stage.written then some run_id else none
  | _ => none

namespace World

def launches (w : World) (p : Pid) (run_id : RunId) : Prop :=
  ∃ call, w.tasks.get? p = some (.execute call) ∧ call.launches = some run_id

/-- The run is there and not PENDING any more. -/
def begun (w : World) (run_id : RunId) : Prop :=
  ∃ row, w.db.runs.get? run_id = some row ∧ row.status ≠ .PENDING

/-- Task `p` works on the run. -/
def works (w : World) (p : Pid) (run_id : RunId) : Prop :=
  ∃ session_id ph, (w.lifecycle session_id).views p = .exec run_id ph

variable {w w' : World} {l : Label} {p q : Pid} {run_id r : RunId}

/-- No run becomes PENDING again, whatever the step is, so the right to call its agent
is given once. -/
theorem begun_step (hconsistent : w.Consistent) (hstep : w.step l = some w')
    (h : w.begun run_id) : w'.begun run_id := by
  obtain ⟨row, hget, hpending⟩ := h
  obtain ⟨kind, hmove, -⟩ := hconsistent.step_moves hstep row.session_id
  have hrun : (w.lifecycle row.session_id).runs run_id = some row.status :=
    lifecycle_runs_eq_some.mpr ⟨row, hget, rfl, rfl⟩
  obtain ⟨st, hst, hne⟩ := hmove.begun ⟨_, hrun, hpending⟩
  obtain ⟨row', hget', -, rfl⟩ := lifecycle_runs_eq_some.mp hst
  exact ⟨row', hget', hne⟩

/-- A task gets to work on a run only while it is PENDING, that is, by taking its lock.
Later the run has begun. -/
theorem works_step (hconsistent : w.Consistent) (hstep : w.step l = some w')
    (h : w'.works p run_id) : w.works p run_id ∨ ¬ w.begun run_id := by
  obtain ⟨session_id, ph, hview⟩ := h
  obtain ⟨kind, hmove, -⟩ := hconsistent.step_moves hstep session_id
  rcases hmove.exec_cases hview with ⟨ph₀, hold⟩ | ⟨-, -, hpending, -⟩
  · exact .inl ⟨session_id, ph₀, hold⟩
  · refine .inr ?_
    rintro ⟨row, hget, hne⟩
    obtain ⟨row', hget', -, hst⟩ := lifecycle_runs_eq_some.mp hpending
    cases hget.symm.trans hget'
    exact hne hst

/-- The step in which an executor commits the start of its run. -/
structure Starts (w : World) (l : Label) (w' : World) (p : Pid) (run_id : RunId) : Prop where
  pid : p = l.pid
  pending : ¬ w.begun run_id
  begun : w'.begun run_id

private theorem starts_of_commit (hconsistent : w.Consistent) {run : AgentRun} {session : AgentSession}
    {now : Time} {event_id : EventId} {next : Task}
    (htask : w.tasks.get? l.pid =
      some (.execute (.append run_id run (.started session now) (.commit event_id)))) :
    Starts w l (w.commit l.pid (append_transaction run_id run (.started session now) event_id) next)
      l.pid run_id := by
  obtain ⟨-, hstarting⟩ := hconsistent.tasks _ _ htask run_id run .starting rfl
  obtain ⟨⟨-, hget⟩, hpending⟩ := hstarting rfl
  refine ⟨rfl, ?_, ?_⟩
  · rintro ⟨row, hget', hne⟩
    cases hget.symm.trans hget'
    exact hne hpending
  · refine ⟨_, (commit_db ..).symm ▸ Database.apply_run_of_some hget, ?_⟩
    simp [append_transaction, update_row_getD, Site.run, start_run, hpending]

private theorem after_append_launches (run_id : RunId) (run : AgentRun) (site : Site) :
    (after_append run_id run site).launches = none := by
  cases site <;> rfl

private theorem append_raised_launches (run_id : RunId) (run : AgentRun) (error : String)
    (site : Site) : (append_raised run_id run error site).launches = none := by
  cases site <;> rfl

/-- Only the commit of a start leads to the call of the agent. -/
private theorem launches_of_resume {db : Database} {call call' : Execute} {action : Action}
    (hresume : call.resume db l = some action) (hgoes : action.goes = some (.execute call'))
    (hcall : call'.launches = some run_id) : call.launches = some run_id := by
  cases Execute.resumes hresume with
  | @refresh _ _ site =>
    cases hgoes
    cases site <;> exact hcall
  | call_agent | publish =>
    cases hgoes
    simp [after_append_launches] at hcall
  | append_failed =>
    cases hgoes
    simp [append_raised_launches] at hcall
  | @flush _ _ site =>
    cases hgoes
    cases site <;> cases hcall
  | commit => cases hgoes
  | _ =>
    cases hgoes
    cases hcall

private theorem launches_step (hconsistent : w.Consistent) (hstep : w.step l = some w')
    (h : w'.launches p run_id) : w.launches p run_id ∨ Starts w l w' p run_id := by
  obtain ⟨call, htask, hcall⟩ := h
  by_cases hp : p = l.pid
  swap
  · exact .inl ⟨call, step_tasks_of_ne hstep hp ▸ htask, hcall⟩
  subst hp
  generalize hnext : Task.execute call = next at htask
  cases step_next hstep htask with
  | @called operation =>
    cases operation <;> cases hnext
    cases hcall
  | killed => cases hnext
  | drained hold =>
    cases hnext
    exact .inl ⟨call, hold, hcall⟩
  | quiet hold hresume hgoes =>
    subst hnext
    obtain ⟨call', rfl⟩ := Task.execute_of_service (Task.service_of_resume hresume hgoes).symm
    exact .inl ⟨call', hold, launches_of_resume hresume hgoes hcall⟩
  | refused _ hcommit =>
    cases hcommit <;> cases hnext
    simp [append_raised_launches] at hcall
  | committed hold hcommit _ hw' =>
    subst hw'
    cases hcommit with
    | append run_id run site =>
      cases hnext
      cases site <;> cases hcall
      exact .inr (starts_of_commit hconsistent hold)
    | _ => cases hnext

/-- The agent is called at one place. -/
private theorem resume_call_agent {db : Database} {task next : Task}
    (hresume : task.resume db l = some (.call_agent run_id next)) :
    ∃ run session now, task = .execute (.append run_id run (.started session now) .publish) ∧
      next = .execute (.agent run_id run (start_session session)) := by
  obtain ⟨call, rfl⟩ := Task.execute_of_action hresume rfl
  cases Execute.resumes hresume with
  | call_agent => exact ⟨_, _, _, rfl, rfl⟩

/-- What a step adds to the calls of the agent: at most one, by an executor at work on
the run that has not called its agent yet. -/
theorem agent_calls_step (hstep : w.step l = some w') :
    w'.agent_calls = w.agent_calls ∨
    ∃ r, w'.agent_calls = w.agent_calls ++ [(l.pid, r)] ∧ w.launches l.pid r ∧
      w.works l.pid r ∧ ∃ run session, w'.tasks.get? l.pid = some (.execute (.agent r run session)) := by
  cases stepped hstep with
  | called | killed | refused | committed => simp
  | drained _ _ _ hdrained => exact .inl hdrained.agent_calls
  | @quiet _ task next action htask hresume hgoes hperform =>
    cases action with
    | commit => cases hgoes
    | lock_session | lock_run | lock_runs =>
      simp only [perform, Option.ite_none_right_eq_some, Option.some.injEq] at hperform
      obtain ⟨-, rfl⟩ := hperform
      simp
    | proceed | take_event_id | leave_drain | see_healthy =>
      cases hperform
      simp
    | call_agent r next =>
      obtain ⟨run, session, now, rfl, rfl⟩ := resume_call_agent hresume
      cases hperform
      refine .inr ⟨r, by simp, ⟨_, htask, rfl⟩, ?_, run, start_session session, by simp [htask]⟩
      exact ⟨run.session_id, .running, (lifecycle_views htask).trans (if_pos rfl)⟩

/-- No call goes back to its first await. -/
private theorem resume_ne_select {db : Database} {call call' : Execute} {action : Action}
    (hresume : call.resume db l = some action) (hgoes : action.goes = some (.execute call')) :
    call' ≠ .select run_id := by
  rintro rfl
  cases Execute.resumes hresume with
  | @call_agent _ _ session now => cases hgoes
  | @publish _ _ site | @append_failed _ _ site => cases site <;> cases hgoes
  | _ => cases hgoes

/-- Task `p` is past the first await of `execute`, or is another call. -/
def under_way (w : World) (p : Pid) : Prop :=
  ∃ task, w.tasks.get? p = some task ∧ ∀ run_id, task ≠ .execute (.select run_id)

private theorem under_way_step (hstep : w.step l = some w') (h : w.under_way p) : w'.under_way p := by
  obtain ⟨task, htask, hselect⟩ := h
  by_cases hp : p = l.pid
  swap
  · exact ⟨task, (step_tasks_of_ne hstep hp).trans htask, hselect⟩
  subst hp
  obtain ⟨next, hnext⟩ := step_task_exists hstep
  refine ⟨next, hnext, ?_⟩
  rintro run_id rfl
  generalize hselected : Task.execute (.select run_id) = next at hnext
  cases step_next hstep hnext with
  | called hfresh => simp [hfresh] at htask
  | killed => cases hselected
  | drained hold => exact hselect _ (Option.some.inj (htask.symm.trans (hselected ▸ hold)))
  | quiet _ hresume hgoes =>
    subst hselected
    obtain ⟨call, rfl⟩ := Task.execute_of_service (Task.service_of_resume hresume hgoes).symm
    exact resume_ne_select hresume hgoes rfl
  | refused _ hcommit =>
    cases hcommit with
    | append _ _ site =>
      cases site <;> cases hselected
    | _ => cases hselected
  | committed _ hcommit => cases hcommit <;> cases hselected

/-- Every run is started and its agent called once, under the lock that found it
PENDING. -/
structure Launched (w : World) : Prop where
  called : ∀ c ∈ w.agent_calls, w.begun c.2 ∧ w.under_way c.1
  once : (w.agent_calls.map Prod.snd).Nodup
  launching : ∀ p run_id, w.launches p run_id →
    w.begun run_id ∧ run_id ∉ w.agent_calls.map Prod.snd
  alone : ∀ p q run_id, w.launches p run_id → w.launches q run_id → p = q

/-- No agent has been called before the first step, and no run has begun. -/
theorem Launched.empty : Launched World.empty where
  called _ hc := by cases hc
  once := .nil
  launching := by
    rintro _ _ ⟨_, htask, -⟩
    cases htask
  alone := by
    rintro _ _ _ ⟨_, htask, -⟩
    cases htask

namespace Launched

variable (h : Launched w) (hconsistent : w.Consistent) (hstep : w.step l = some w')
include h hconsistent hstep

private theorem step_called {c : Pid × RunId} (hc : c ∈ w'.agent_calls) :
    w'.begun c.2 ∧ w'.under_way c.1 := by
  rcases agent_calls_step hstep with hsame | ⟨r, hcalls, hlaunches, -, run, session, htask⟩
  · obtain ⟨hbegun, hunder_way⟩ := h.called c (hsame ▸ hc)
    exact ⟨begun_step hconsistent hstep hbegun, under_way_step hstep hunder_way⟩
  · rw [hcalls, List.mem_append, List.mem_singleton] at hc
    rcases hc with hc | rfl
    · obtain ⟨hbegun, hunder_way⟩ := h.called c hc
      exact ⟨begun_step hconsistent hstep hbegun, under_way_step hstep hunder_way⟩
    · exact ⟨begun_step hconsistent hstep (h.launching _ _ hlaunches).1, _, htask, by simp⟩

omit hconsistent in
private theorem step_once : (w'.agent_calls.map Prod.snd).Nodup := by
  rcases agent_calls_step hstep with hsame | ⟨r, hcalls, hlaunches, -⟩
  · exact hsame ▸ h.once
  · rw [hcalls, List.map_append, List.nodup_append]
    refine ⟨h.once, by simp, ?_⟩
    rintro r' hr' _ hr rfl
    obtain rfl : r' = r := by simpa using hr
    exact (h.launching _ _ hlaunches).2 hr'

private theorem step_launching (hlaunches : w'.launches p run_id) :
    w'.begun run_id ∧ run_id ∉ w'.agent_calls.map Prod.snd := by
  have hold : w'.begun run_id ∧ run_id ∉ w.agent_calls.map Prod.snd := by
    rcases launches_step hconsistent hstep hlaunches with hbefore | hnew
    · obtain ⟨hbegun, hcalls⟩ := h.launching _ _ hbefore
      exact ⟨begun_step hconsistent hstep hbegun, hcalls⟩
    · refine ⟨hnew.begun, fun hmem => hnew.pending ?_⟩
      obtain ⟨c, hc, rfl⟩ := List.mem_map.mp hmem
      exact (h.called c hc).1
  refine ⟨hold.1, ?_⟩
  rcases agent_calls_step hstep with hsame | ⟨r, hcalls, hcaller, -, run, session, htask⟩
  · rw [hsame]
    exact hold.2
  · rw [hcalls, List.map_append, List.mem_append]
    rintro (hmem | hmem)
    · exact hold.2 hmem
    obtain rfl : run_id = r := by simpa using hmem
    have hpid : p = l.pid := by
      rcases launches_step hconsistent hstep hlaunches with hbefore | hnew
      · exact h.alone p l.pid run_id hbefore hcaller
      · exact hnew.pid
    obtain ⟨call, hcall, hlaunch⟩ := hlaunches
    cases (hpid ▸ hcall).symm.trans htask
    cases hlaunch

private theorem step_alone (hp : w'.launches p run_id) (hq : w'.launches q run_id) : p = q := by
  rcases launches_step hconsistent hstep hp with hold | hnew <;>
    rcases launches_step hconsistent hstep hq with hold' | hnew'
  · exact h.alone p q run_id hold hold'
  · exact absurd (h.launching _ _ hold).1 hnew'.pending
  · exact absurd (h.launching _ _ hold').1 hnew.pending
  · exact hnew.pid.trans hnew'.pid.symm

/-- Every step keeps the calls of the agent to one for each run: a run is launched under
the lock that has found it PENDING, and only once. -/
theorem step : Launched w' where
  called _ := h.step_called hconsistent hstep
  once := h.step_once hstep
  launching _ _ := h.step_launching hconsistent hstep
  alone _ _ _ := h.step_alone hconsistent hstep

end Launched

/-- So the agent is called as `Launched` says in every state the system reaches, under
any guard. -/
theorem launched_of_run {guard : World → Label → Prop} (hrun : Run World.step guard empty w) :
    w.Consistent ∧ Launched w := by
  refine hrun.invariant (I := fun w => w.Consistent ∧ Launched w) ?_ ⟨.empty, .empty⟩
  exact fun w _ _ h _ hstep => ⟨h.1.step hstep, h.2.step h.1 hstep⟩

/-- Task `p` will not call the agent for the run. -/
structure Barred (w : World) (p : Pid) (run_id : RunId) : Prop where
  consistent : w.Consistent
  begun : w.begun run_id
  idle : ¬ w.works p run_id
  uncalled : (p, run_id) ∉ w.agent_calls

private theorem Barred.step (h : Barred w p run_id) (hstep : w.step l = some w') : Barred w' p run_id where
  consistent := h.consistent.step hstep
  begun := begun_step h.consistent hstep h.begun
  idle hworks := by
    rcases works_step h.consistent hstep hworks with hold | hnew
    · exact h.idle hold
    · exact hnew h.begun
  uncalled hmem := by
    rcases agent_calls_step hstep with hsame | ⟨r, hcalls, -, hworks, -⟩
    · exact h.uncalled (hsame ▸ hmem)
    · rw [hcalls, List.mem_append, List.mem_singleton] at hmem
      rcases hmem with hmem | hmem
      · exact h.uncalled hmem
      · cases hmem
        exact h.idle hworks

/-- Nobody calls the agent for a run that was not PENDING any more before he locked it,
neither now nor in any later state. -/
theorem not_called {guard : World → Label → Prop} (hlaunched : w.Consistent ∧ Launched w)
    (hbegun : w.begun run_id)
    (hunlocked : w.tasks.get? p = none ∨ w.tasks.get? p = some (.execute (.select run_id)))
    (hlater : Run World.step guard w w') : (p, run_id) ∉ w'.agent_calls := by
  have hbarred : Barred w p run_id := by
    refine ⟨hlaunched.1, hbegun, ?_, fun hmem => ?_⟩
    · rintro ⟨session_id, ph, hview⟩
      obtain ⟨task, run, htask, hwork, -⟩ := exec_of_lifecycle hview
      rcases hunlocked with hnone | hselect
      · simp [hnone] at htask
      · cases hselect.symm.trans htask
        cases hwork
    · obtain ⟨task, htask, hselect⟩ := (hlaunched.2.called _ hmem).2
      rcases hunlocked with hnone | hselected
      · simp [hnone] at htask
      · exact hselect run_id (Option.some.inj (htask.symm.trans hselected))
  exact (hlater.invariant (I := fun w => Barred w p run_id)
    (fun _ _ _ h _ hstep => h.step hstep) hbarred).uncalled

end World

end session_manager
