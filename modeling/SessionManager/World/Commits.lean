import SessionManager.World.Resumes

open unit_of_work

namespace session_manager

open sessions run_executor runtime_reconciler

/-- The commits of the service functions: the task that awaits one, its
transaction, and how it goes on after a success and after a violated
constraint. -/
inductive Commit (l : Label) : Task → Transaction → Task → Task → Prop
  | insert_session (id : SessionId) (session : AgentSession) :
      Commit l (.create_session (.insert id session)) { insert_session := some (id, session) }
        (.create_session (.runtime id session .lock)) (.create_session (.raised .IntegrityError))
  | create_failed (id : SessionId) (session : AgentSession) :
      Commit l (.create_session (.commit_failed id session))
        { update_session := update_row id ⟨session, sessions.set_status .FAILED session⟩ }
        (.create_session (.raised (.RuntimeOperationError "创建会话运行时失败。")))
        (.create_session (.raised .IntegrityError))
  | create_ready (id : SessionId) (session : AgentSession) (runtime_id : RuntimeId) :
      Commit l (.create_session (.commit_ready id session runtime_id))
        { update_session := update_row id ⟨session, bind_runtime runtime_id session⟩ }
        (.create_session (.refresh id)) (.create_session (.raised .IntegrityError))
  | create_run (request : CreateRunRequest) (session : AgentSession) (run_id : RunId)
      (message_id : MessageId) (seq : Nat) :
      Commit l (.create_run (.commit request session run_id message_id seq))
        (run_transaction request session run_id message_id seq)
        (.create_run (.refresh request run_id)) (.create_run (.raised request .IntegrityError))
  | stopping (id : SessionId) (session : AgentSession) :
      Commit l (.stop_session (.commit_stopping id session))
        (stop_transaction id ⟨session, sessions.set_status .STOPPING session⟩ [] l.now)
        (.stop_session (stop_runtime id (sessions.set_status .STOPPING session) l.now))
        (.stop_session (.raised .IntegrityError))
  | stop_failed (id : SessionId) (session : AgentSession) :
      Commit l (.stop_session (.commit_failed id session))
        (stop_transaction id ⟨session, sessions.set_status .FAILED session⟩ [] l.now)
        (.stop_session (.raised (.RuntimeOperationError "停止会话运行时失败。")))
        (.stop_session (.raised .IntegrityError))
  | stopped (id : SessionId) (session : AgentSession) (cancelled : List RunId) (now : Time) :
      Commit l (.stop_session (.commit_stopped id session cancelled now))
        (stop_transaction id ⟨session, sessions.set_status .STOPPED session⟩ cancelled now)
        (.stop_session (.refresh id)) (.stop_session (.raised .IntegrityError))
  | deleted (id : SessionId) (session : AgentSession) (cancelled : List RunId) (now : Time) :
      Commit l (.delete_session (.commit id session cancelled now))
        (stop_transaction id ⟨session, mark_deleted now session⟩ cancelled now)
        (.delete_session .returned) (.delete_session (.raised .IntegrityError))
  | append (run_id : RunId) (run : AgentRun) (site : Site) (event_id : EventId) :
      Commit l (.execute (.append run_id run site (.commit event_id)))
        (append_transaction run_id run site event_id)
        (.execute (.append run_id (site.run run) site .refresh))
        (.execute (append_raised run_id run "IntegrityError" site))
  | reconcile (pass : Pass) :
      Commit l (.reconcile (.commit pass)) pass.transaction
        (.reconcile .returned) (.reconcile .raised)

private theorem Task.commit_of_resume {db : Database} {l : Label} {task next conflict : Task}
    {tx : Transaction} (h : task.resume db l = some (.commit tx next conflict)) :
    Commit l task tx next conflict ∧ l.input = .returned := by
  cases task with
  | create_session task =>
    cases CreateSession.resumes h with
    | insert hinput => exact ⟨.insert_session .., hinput⟩
    | commit_failed hinput => exact ⟨.create_failed .., hinput⟩
    | commit_ready hinput => exact ⟨.create_ready .., hinput⟩
  | create_run task =>
    cases CreateRun.resumes h with
    | commit hinput => exact ⟨.create_run .., hinput⟩
  | execute task =>
    cases Execute.resumes h with
    | commit hinput => exact ⟨.append .., hinput⟩
  | stop_session task =>
    cases StopSession.resumes h with
    | commit_stopping hinput => exact ⟨.stopping .., hinput⟩
    | commit_failed hinput => exact ⟨.stop_failed .., hinput⟩
    | commit_stopped hinput => exact ⟨.stopped .., hinput⟩
  | delete_session task =>
    cases DeleteSession.resumes h with
    | commit hinput => exact ⟨.deleted .., hinput⟩
  | reconcile task =>
    cases Reconcile.resumes h with
    | commit hinput => exact ⟨.reconcile .., hinput⟩
  | killed => cases h

namespace World

variable {w w' : World} {p : Pid} {l : Label}

/-- How a commit ends: refused by a constraint, with the transaction rolled back, or
with all of its writes visible at once. It waits for the locks of the rows it updates. -/
theorem perform_commit {tx : Transaction} {next conflict : Task}
    (hperform : w.perform p (.commit tx next conflict) = some w') :
    (w.db.conflict tx = true ∧ w' = (w.release p).resume p conflict) ∨
    (w.writable p tx = true ∧ w.db.conflict tx = false ∧
      w' = w.commit p tx next) := by
  simp only [perform] at hperform
  split at hperform
  · rename_i hwritable
    split at hperform
    · exact .inl ⟨by assumption, (Option.some.inj hperform).symm⟩
    · rename_i hconflict
      exact .inr ⟨hwritable, by simpa using hconflict, (Option.some.inj hperform).symm⟩
  · cases hperform

/-- What one step of the system does. -/
inductive Stepped (w : World) (l : Label) : World → Prop
  | called (operation : Operation) (hfresh : w.tasks.get? l.pid = none)
      (hinput : l.input = .call operation) :
      Stepped w l { w with tasks := w.tasks.insert l.pid (spawn l operation) }
  | killed {task : Task} (htask : w.tasks.get? l.pid = some task) (hinput : l.input = .killed) :
      Stepped w l (w.resume l.pid .killed)
  /-- The worker that the agent of a task has left behind goes on. -/
  | drained {w' : World} {task : Execute} {move : DrainMove}
      (htask : w.tasks.get? l.pid = some (.execute task)) (hinput : l.input = .drain move)
      (hdrain : w.drain l.pid move = some w') (hdrained : Drained w w') :
      Stepped w l w'
  /-- A task goes on without a commit. -/
  | quiet {w' : World} {task next : Task} {action : Action}
      (htask : w.tasks.get? l.pid = some task) (hresume : task.resume w.db l = some action)
      (hgoes : action.goes = some next) (hperform : w.perform l.pid action = some w') :
      Stepped w l w'
  /-- A constraint refuses a commit. -/
  | refused {task next conflict : Task} {tx : Transaction}
      (htask : w.tasks.get? l.pid = some task) (hcommit : Commit l task tx next conflict)
      (hinput : l.input = .returned) (hconflict : w.db.conflict tx = true) :
      Stepped w l ((w.release l.pid).resume l.pid conflict)
  | committed {task next conflict : Task} {tx : Transaction}
      (htask : w.tasks.get? l.pid = some task) (hcommit : Commit l task tx next conflict)
      (hinput : l.input = .returned) (hwritable : w.writable l.pid tx = true)
      (hconflict : w.db.conflict tx = false) :
      Stepped w l (w.commit l.pid tx next)

/-- Everything that a step of the program does. All invariants are proved by these
cases, and none takes the step function apart again. -/
theorem stepped (hstep : w.step l = some w') : Stepped w l w' := by
  rcases step_cases hstep with ⟨operation, hfresh, hinput, rfl⟩ | ⟨task, htask, hinput, rfl⟩ |
    ⟨task, move, htask, hinput, hdrain⟩ | ⟨task, action, htask, hresume, hperform⟩
  · exact .called operation hfresh hinput
  · exact .killed htask hinput
  · exact .drained htask hinput hdrain (.of_drain hdrain)
  · cases action with
    | commit tx next conflict =>
      obtain ⟨hcommit, hinput⟩ := Task.commit_of_resume hresume
      rcases perform_commit hperform with ⟨hconflict, rfl⟩ | ⟨hwritable, hconflict, rfl⟩
      · exact .refused htask hcommit hinput hconflict
      · exact .committed htask hcommit hinput hwritable hconflict
    | _ => exact .quiet htask hresume rfl hperform

end World

end session_manager
