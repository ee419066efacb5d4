import SessionManager.World.Work

namespace session_manager

open sessions run_executor runtime_reconciler

/-- The service function a task is a call of. -/
inductive Service
  | create_session
  | create_run
  | execute
  | stop_session
  | delete_session
  | reconcile
deriving DecidableEq

def Task.service : Task → Option Service
  | create_session _ => some .create_session
  | create_run _ => some .create_run
  | execute _ => some .execute
  | stop_session _ => some .stop_session
  | delete_session _ => some .delete_session
  | reconcile _ => some .reconcile
  | killed => none

section Service

variable {db : Database} {l : Label} {task next conflict : Task} {action : Action} {tx : Transaction}

/-- A resumed task is still a call of the same function: whatever it awaits next, the
function goes on where it was. -/
theorem Task.service_of_resume (hresume : task.resume db l = some action)
    (hgoes : action.goes = some next) : next.service = task.service := by
  cases task with
  | create_session => cases CreateSession.resumes hresume <;> cases hgoes <;> rfl
  | create_run => cases CreateRun.resumes hresume <;> cases hgoes <;> rfl
  | execute => cases Execute.resumes hresume <;> cases hgoes <;> rfl
  | stop_session => cases StopSession.resumes hresume <;> cases hgoes <;> rfl
  | delete_session => cases DeleteSession.resumes hresume <;> cases hgoes <;> rfl
  | reconcile => cases Reconcile.resumes hresume <;> cases hgoes <;> rfl
  | killed => cases hresume

/-- The actions only executors take. -/
def Action.executor : Action → Bool
  | take_event_id _ | call_agent .. | leave_drain .. => true
  | _ => false

/-- Only executors take event ids, call agents and leave workers behind, so a step that
does one of these is a step of `execute`. -/
theorem Task.execute_of_action (hresume : task.resume db l = some action)
    (haction : action.executor = true) : ∃ call, task = .execute call := by
  cases task with
  | execute call => exact ⟨call, rfl⟩
  | create_session => cases CreateSession.resumes hresume <;> cases haction
  | create_run => cases CreateRun.resumes hresume <;> cases haction
  | stop_session => cases StopSession.resumes hresume <;> cases haction
  | delete_session => cases DeleteSession.resumes hresume <;> cases haction
  | reconcile => cases Reconcile.resumes hresume <;> cases haction
  | killed => cases hresume

private theorem Commit.service (h : Commit l task tx next conflict) :
    next.service = task.service ∧ conflict.service = task.service := by
  cases h <;> exact ⟨rfl, rfl⟩

end Service

section Inversion

variable {task : Task}

/-- A call of `create_session` is suspended in one of its own awaits. This gives its
resumption lemmas a call to split. -/
theorem Task.create_session_of_service (h : task.service = some .create_session) :
    ∃ call, task = .create_session call := by
  cases task <;> cases h
  exact ⟨_, rfl⟩

/-- A call of `create_run` is suspended in one of its own awaits, whichever request it
serves. -/
theorem Task.create_run_of_service (h : task.service = some .create_run) :
    ∃ call, task = .create_run call := by
  cases task <;> cases h
  exact ⟨_, rfl⟩

/-- A call of `execute` is suspended in one of its own awaits, whichever run it
executes. -/
theorem Task.execute_of_service (h : task.service = some .execute) :
    ∃ call, task = .execute call := by
  cases task <;> cases h
  exact ⟨_, rfl⟩

end Inversion

namespace World

/-- Where the task of a step is after it. -/
inductive Next (w : World) (l : Label) (w' : World) : Task → Prop
  | called {operation : Operation} (hfresh : w.tasks.get? l.pid = none)
      (hinput : l.input = .call operation) : Next w l w' (spawn l operation)
  | killed (hinput : l.input = .killed) : Next w l w' .killed
  | drained {task : Execute} {move : DrainMove} (htask : w.tasks.get? l.pid = some (.execute task))
      (hinput : l.input = .drain move) (hdrained : Drained w w') : Next w l w' (.execute task)
  | quiet {task next : Task} {action : Action} (htask : w.tasks.get? l.pid = some task)
      (hresume : task.resume w.db l = some action) (hgoes : action.goes = some next)
      (hperform : w.perform l.pid action = some w') : Next w l w' next
  | refused {task next conflict : Task} {tx : Transaction} (htask : w.tasks.get? l.pid = some task)
      (hcommit : Commit l task tx next conflict) (hconflict : w.db.conflict tx = true)
      (hw' : w' = (w.release l.pid).resume l.pid conflict) : Next w l w' conflict
  | committed {task next conflict : Task} {tx : Transaction}
      (htask : w.tasks.get? l.pid = some task) (hcommit : Commit l task tx next conflict)
      (hconflict : w.db.conflict tx = false) (hw' : w' = w.commit l.pid tx next) : Next w l w' next

variable {w w' : World} {l : Label} {task task' : Task}

/-- Where the resumed task stands after a step, with everything that the step has found
on the way there. -/
theorem step_next (hstep : w.step l = some w') (htask : w'.tasks.get? l.pid = some task') :
    Next w l w' task' := by
  cases stepped hstep with
  | called operation hfresh hinput =>
    simp only [Table.get?_insert _ _ hfresh, if_true, Option.some.injEq] at htask
    subst htask
    exact .called hfresh hinput
  | killed hold hinput =>
    simp only [resume_tasks, Table.get?_modify_self, hold, Option.map_some, Option.some.injEq] at htask
    subst htask
    exact .killed hinput
  | drained hold hinput _ hdrained =>
    rw [hdrained.tasks, hold, Option.some.injEq] at htask
    subst htask
    exact .drained hold hinput hdrained
  | quiet hold hresume hgoes hperform =>
    rw [perform_quiet_tasks hgoes hperform, Table.get?_modify_self, hold, Option.map_some,
      Option.some.injEq] at htask
    subst htask
    exact .quiet hold hresume hgoes hperform
  | refused hold hcommit _ hconflict =>
    simp only [resume_tasks, release_tasks, Table.get?_modify_self, hold, Option.map_some,
      Option.some.injEq] at htask
    subst htask
    exact .refused hold hcommit hconflict rfl
  | committed hold hcommit _ _ hconflict =>
    simp only [commit_tasks, Table.get?_modify_self, hold, Option.map_some,
      Option.some.injEq] at htask
    subst htask
    exact .committed hold hcommit hconflict rfl

/-- No task disappears: a call that is over stays in the table with what it has
returned. -/
theorem step_task_exists (hstep : w.step l = some w') : ∃ task, w'.tasks.get? l.pid = some task := by
  cases stepped hstep with
  | called _ hfresh => simp [Table.get?_insert _ _ hfresh]
  | drained hold _ _ hdrained => exact ⟨_, hdrained.tasks ▸ hold⟩
  | quiet hold _ hgoes hperform => simp [perform_quiet_tasks hgoes hperform, hold]
  | killed hold | refused hold | committed hold => simp [hold]

/-- A call is a call of the same function until its process dies, and the steps of the
others leave it alone anyway. -/
theorem service_step (hstep : w.step l = some w') (hkilled : l.input ≠ .killed) {p : Pid}
    (htask : w.tasks.get? p = some task) :
    ∃ task', w'.tasks.get? p = some task' ∧ task'.service = task.service := by
  by_cases hp : p = l.pid
  · subst hp
    obtain ⟨task', htask'⟩ := step_task_exists hstep
    refine ⟨task', htask', ?_⟩
    cases step_next hstep htask' with
    | called hfresh => simp [hfresh] at htask
    | killed hinput => exact absurd hinput hkilled
    | drained hold =>
      cases htask.symm.trans hold
      rfl
    | quiet hold hresume hgoes =>
      cases htask.symm.trans hold
      exact Task.service_of_resume hresume hgoes
    | refused hold hcommit =>
      cases htask.symm.trans hold
      exact hcommit.service.2
    | committed hold hcommit =>
      cases htask.symm.trans hold
      exact hcommit.service.1
  · exact ⟨task, (step_tasks_of_ne hstep hp).trans htask, rfl⟩

end World

end session_manager
