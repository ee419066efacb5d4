import SessionManager.Library.Transition
import SessionManager.World.State

open unit_of_work

namespace session_manager

open sessions run_executor runtime_reconciler

/-- `create_session` resumed. Reads see the committed database `db`. -/
def sessions.CreateSession.resume (db : Database) (l : Label) (task : CreateSession) : Option Action :=
  match task, l.input with
  | .insert session_id session, .returned =>
    some (.commit { insert_session := some (session_id, session) }
      (.create_session (.runtime session_id session .lock))
      (.create_session (.raised .IntegrityError)))
  | .runtime session_id session create, .docker answer =>
    match create.resume answer with
    | none => none
    | some (.await next) => some (.proceed (.create_session (.runtime session_id session next)))
    | some (.healthy runtime_id) =>
      some (.see_healthy session_id (.create_session (.commit_ready session_id session runtime_id)))
    | some .raised => some (.proceed (.create_session (.commit_failed session_id session)))
  | .commit_failed session_id session, .returned =>
    some (.commit { update_session := update_row session_id ⟨session, sessions.set_status .FAILED session⟩ }
      (.create_session (.raised (.RuntimeOperationError "创建会话运行时失败。")))
      (.create_session (.raised .IntegrityError)))
  | .commit_ready session_id session runtime_id, .returned =>
    some (.commit { update_session := update_row session_id ⟨session, bind_runtime runtime_id session⟩ }
      (.create_session (.refresh session_id))
      (.create_session (.raised .IntegrityError)))
  | .refresh session_id, .returned =>
    match db.sessions.get? session_id with
    | none => some (.proceed (.create_session (.raised .DatabaseError)))
    | some session => some (.proceed (.create_session (.returned session_id session)))
  | .insert .., .failed | .commit_failed .., .failed | .commit_ready .., .failed
  | .refresh _, .failed => some (.proceed (.create_session (.raised .DatabaseError)))
  | _, _ => none

/-- What `create_run` commits. -/
def sessions.run_transaction (request : CreateRunRequest) (session : AgentSession) (run_id : RunId)
    (message_id : MessageId) (sequence : Nat) : Transaction :=
  { update_session := update_row request.session_id ⟨session, sessions.set_status .RUNNING session⟩
    insert_run := some (run_id, new_run request)
    insert_message := some (message_id, user_message request run_id sequence) }

def sessions.CreateRun.resume (db : Database) (l : Label) (task : CreateRun) : Option Action :=
  match task, l.input with
  | .select request, .returned =>
    match db.get_session request.session_id with
    | none => some (.proceed (.create_run (.raised request session_not_found)))
    | some session =>
      some (.lock_session request.session_id (.create_run (selected request session l.uuid)))
  | .lookup request session, .returned =>
    match db.get_run_by_idempotency_key request.session_id (request.idempotency_key.getD "") with
    | some (run_id, run) => some (.proceed (.create_run (.returned request run_id run true)))
    | none => some (.proceed (.create_run (check_ready request session l.uuid)))
  | .flush request session run_id, .returned =>
    if db.run_conflict run_id (new_run request) then
      some (.proceed (.create_run (.raised request .IntegrityError)))
    else some (.proceed (.create_run (.sequence request session run_id)))
  | .sequence request session run_id, .returned =>
    some (.proceed (.create_run (.commit request session run_id l.uuid
      (db.next_message_sequence request.session_id))))
  | .commit request session run_id message_id seq, .returned =>
    some (.commit (run_transaction request session run_id message_id seq)
      (.create_run (.refresh request run_id))
      (.create_run (.raised request .IntegrityError)))
  | .refresh request run_id, .returned =>
    match db.runs.get? run_id with
    | none => some (.proceed (.create_run (.raised request .DatabaseError)))
    | some run => some (.proceed (.create_run (.returned request run_id run false)))
  | .select request, .failed | .lookup request _, .failed | .flush request .., .failed
  | .sequence request .., .failed | .commit request .., .failed | .refresh request _, .failed =>
    some (.proceed (.create_run (.raised request .DatabaseError)))
  | _, _ => none

/-- The commits of `stop_session`: a session row written from the given copy,
and with it the runs its UPDATE statement cancelled. -/
def sessions.stop_transaction (session_id : SessionId) (session : Loaded AgentSession)
    (cancelled : List RunId) (now : Time) : Transaction :=
  { update_session := update_row session_id session
    update_run := cancel_rows cancelled now }

def sessions.StopSession.resume (db : Database) (l : Label) (task : StopSession) : Option Action :=
  match task, l.input with
  | .get session_id, .returned =>
    match db.get_session session_id with
    | none => some (.proceed (.stop_session (.raised session_not_found)))
    | some session => some (.proceed (.stop_session (stop_checked session_id session)))
  | .commit_stopping session_id session, .returned =>
    some (.commit (stop_transaction session_id ⟨session, sessions.set_status .STOPPING session⟩ [] l.now)
      (.stop_session (stop_runtime session_id (sessions.set_status .STOPPING session) l.now))
      (.stop_session (.raised .IntegrityError)))
  | .stop session_id session, .runtime true =>
    some (.proceed (.stop_session (.cancel session_id session l.now)))
  | .stop session_id session, .runtime false =>
    some (.proceed (.stop_session (.commit_failed session_id session)))
  | .commit_failed session_id session, .returned =>
    some (.commit (stop_transaction session_id ⟨session, sessions.set_status .FAILED session⟩ [] l.now)
      (.stop_session (.raised (.RuntimeOperationError "停止会话运行时失败。")))
      (.stop_session (.raised .IntegrityError)))
  | .cancel session_id session now, .returned =>
    some (.lock_runs (db.active_runs session_id)
      (.stop_session (.commit_stopped session_id session (db.active_runs session_id) now)))
  | .commit_stopped session_id session cancelled now, .returned =>
    some (.commit
      (stop_transaction session_id ⟨session, sessions.set_status .STOPPED session⟩ cancelled now)
      (.stop_session (.refresh session_id))
      (.stop_session (.raised .IntegrityError)))
  | .refresh session_id, .returned =>
    match db.sessions.get? session_id with
    | none => some (.proceed (.stop_session (.raised .DatabaseError)))
    | some session => some (.proceed (.stop_session (.returned session_id session)))
  | .get _, .failed | .commit_stopping .., .failed | .commit_failed .., .failed
  | .cancel .., .failed | .commit_stopped .., .failed | .refresh _, .failed =>
    some (.proceed (.stop_session (.raised .DatabaseError)))
  | _, _ => none

def sessions.DeleteSession.resume (db : Database) (l : Label) (task : DeleteSession) : Option Action :=
  match task, l.input with
  | .get session_id, .returned =>
    match db.get_session session_id with
    | none => some (.proceed (.delete_session (.raised session_not_found)))
    | some session => some (.proceed (.delete_session (delete_runtime session_id session l.now)))
  | .delete session_id session, .runtime true =>
    some (.proceed (.delete_session (.cancel session_id session l.now)))
  | .delete _ _, .runtime false =>
    some (.proceed (.delete_session (.raised (.RuntimeOperationError "销毁会话运行时失败。"))))
  | .cancel session_id session now, .returned =>
    some (.lock_runs (db.active_runs session_id)
      (.delete_session (.commit session_id session (db.active_runs session_id) now)))
  | .commit session_id session cancelled now, .returned =>
    some (.commit (stop_transaction session_id ⟨session, mark_deleted now session⟩ cancelled now)
      (.delete_session .returned)
      (.delete_session (.raised .IntegrityError)))
  | .get _, .failed | .cancel .., .failed | .commit .., .failed =>
    some (.proceed (.delete_session (.raised .DatabaseError)))
  | _, _ => none

/-- What the commit inside `EventService.append` writes: the event, and with it
every assignment `execute` made to its objects before. -/
def run_executor.append_transaction (run_id : RunId) (run : AgentRun) (site : Site)
    (event_id : EventId) : Transaction :=
  { update_session := fun id => site.session.bind fun session => update_row run.session_id session id
    update_run := update_row run_id ⟨run, site.run run⟩
    insert_message := site.chat_message run_id run
    insert_event := some (site.event run_id run event_id) }

def run_executor.Execute.resume (db : Database) (l : Label) (task : Execute) : Option Action :=
  match task, l.input with
  | .select run_id, .returned =>
    match db.runs.get? run_id with
    | none => some (.proceed (.execute .returned))
    | some run => some (.lock_run run_id
        (.execute (if run.status ≠ .PENDING then .returned else .get_session run_id run)))
  | .get_session run_id run, .returned =>
    match db.sessions.get? run.session_id with
    | none => some (.proceed (.execute .returned))
    | some session =>
      if session.deleted_at.isSome then some (.proceed (.execute .returned))
      else some (.proceed (.execute (.append run_id run (.started session l.now) .flush)))
  | .append run_id run site .flush, .returned =>
    some (.take_event_id (.execute (.append run_id run site (.commit db.next_event_id))))
  | .append run_id run site (.commit event_id), .returned =>
    some (.commit (append_transaction run_id run site event_id)
      (.execute (.append run_id (site.run run) site .refresh))
      (.execute (append_raised run_id run "IntegrityError" site)))
  | .append run_id run site .refresh, .returned =>
    some (.proceed (.execute (.append run_id run site .publish)))
  | .append run_id run (.started session now) .publish, .published _ =>
    some (.call_agent run_id (.execute (after_append run_id run (.started session now))))
  | .append run_id run site .publish, .published _ =>
    some (.proceed (.execute (after_append run_id run site)))
  | .agent run_id run session, .agent (.emit event_type payload) =>
    some (.proceed (.execute (.append run_id run (.emitted session event_type payload) .flush)))
  | .agent run_id run _, .agent (.returns final_text) =>
    some (.proceed (.execute (.refresh_run run_id run final_text)))
  | .agent run_id run _, .agent (.raises error) =>
    -- `adapter.close()` may have raised and left the worker behind
    some (.leave_drain run.session_id run_id (.execute (.rollback run_id run error)))
  | .refresh_run run_id run final_text, .returned =>
    match db.runs.get? run_id with
    | none => some (.proceed (.execute (.rollback run_id run "InvalidRequestError")))
    | some run => some (.proceed (.execute (.refresh_session run_id run final_text)))
  | .refresh_session run_id run final_text, .returned =>
    match db.sessions.get? run.session_id with
    | none => some (.proceed (.execute (.rollback run_id run "InvalidRequestError")))
    | some session =>
      if run.status = .CANCELLED then some (.proceed (.execute .returned))
      else some (.proceed (.execute (.sequence run_id run session final_text)))
  | .sequence run_id run session final_text, .returned =>
    some (.proceed (.execute (.append run_id run
      (.message session l.uuid final_text (db.next_message_sequence run.session_id) l.now) .flush)))
  | .rollback run_id run error, .returned =>
    some (.proceed (.execute (.reload_run run_id run error)))
  | .reload_run run_id _ error, .returned =>
    match db.runs.get? run_id with
    | none => some (.proceed (.execute .returned))
    | some run =>
      if run.status = .CANCELLED then some (.proceed (.execute .returned))
      else some (.proceed (.execute (.reload_session run_id run error)))
  | .reload_session run_id run error, .returned =>
    some (.proceed (.execute (.append run_id run
      (.failed (db.sessions.get? run.session_id) error l.now) .flush)))
  | .append run_id run site .flush, .failed | .append run_id run site (.commit _), .failed
  | .append run_id run site .refresh, .failed =>
    some (.proceed (.execute (append_raised run_id run "DatabaseError" site)))
  | .refresh_run run_id run _, .failed | .refresh_session run_id run _, .failed
  | .sequence run_id run _ _, .failed =>
    some (.proceed (.execute (.rollback run_id run "DatabaseError")))
  | .select _, .failed | .get_session .., .failed | .rollback .., .failed
  | .reload_run .., .failed | .reload_session .., .failed => some (.proceed (.execute .raised))
  | _, _ => none

/-- What a reconcile pass commits: every session it changed. -/
def runtime_reconciler.Pass.transaction (pass : Pass) : Transaction :=
  { update_session := fun session_id => (pass.copy session_id).bind Loaded.update }

def runtime_reconciler.Reconcile.resume (db : Database) (l : Label) (task : Reconcile) : Option Action :=
  match task, l.input with
  | .list, .listed none => some (.proceed (.reconcile .raised))
  | .list, .listed (some runtimes) => some (.proceed (.reconcile (.select runtimes)))
  | .select runtimes, .returned =>
    some (.proceed (.reconcile
      (next_deletion (Pass.deletions ⟨runtimes, db.sessions, l.now⟩) ⟨runtimes, db.sessions, l.now⟩)))
  -- `_delete_runtime` swallows the exceptions of its provider
  | .delete pending pass, .runtime _ =>
    some (.proceed (.reconcile (next_deletion pending.tail pass)))
  | .commit pass, .returned =>
    some (.commit pass.transaction (.reconcile .returned) (.reconcile .raised))
  | .select _, .failed | .commit _, .failed => some (.proceed (.reconcile .raised))
  | _, _ => none

/-- The task a call starts, suspended in its first await. -/
def spawn (l : Label) : Operation → Task
  | .create_session expires_in_seconds =>
    .create_session (.insert l.uuid (new_session (l.now + expires_in_seconds)))
  | .create_run request => .create_run (.select request)
  | .execute run_id => .execute (.select run_id)
  | .stop_session session_id => .stop_session (.get session_id)
  | .delete_session session_id => .delete_session (.get session_id)
  | .reconcile => .reconcile .list

/-- Resumes a suspended task with what ended its await. -/
def Task.resume (db : Database) (l : Label) : Task → Option Action
  | create_session task => task.resume db l
  | create_run task => task.resume db l
  | execute task => task.resume db l
  | stop_session task => task.resume db l
  | delete_session task => task.resume db l
  | reconcile task => task.resume db l
  | killed => none

/-- The step is one of the task itself, whose process lives on. -/
def Input.resumes : Input → Bool
  | .killed | .drain _ => false
  | _ => true

/-- One step of the whole system: a call starts, the process of a task dies, the
worker that an agent has left behind goes on, or a suspended task runs up to its
next await. -/
def World.step (w : World) (l : Label) : Option World :=
  match w.tasks.get? l.pid with
  | none =>
    match l.input with
    | .call operation => some { w with tasks := w.tasks.insert l.pid (spawn l operation) }
    | _ => none
  | some task =>
    match l.input with
    | .killed => some (w.resume l.pid .killed)
    | .drain move =>
      match task with
      | .execute _ => w.drain l.pid move
      | _ => none
    | _ => (task.resume w.db l).bind (w.perform l.pid)

/-- The ways one step can go: a call, a kill, a worker that goes on writing, or a task
that is resumed. -/
theorem World.step_cases {w w' : World} {l : Label} (h : w.step l = some w') :
    (∃ operation, w.tasks.get? l.pid = none ∧ l.input = .call operation ∧
      w' = { w with tasks := w.tasks.insert l.pid (spawn l operation) }) ∨
    (∃ task, w.tasks.get? l.pid = some task ∧ l.input = .killed ∧ w' = w.resume l.pid .killed) ∨
    (∃ task move, w.tasks.get? l.pid = some (.execute task) ∧ l.input = .drain move ∧
      w.drain l.pid move = some w') ∨
    (∃ task action, w.tasks.get? l.pid = some task ∧ task.resume w.db l = some action ∧
      w.perform l.pid action = some w') := by
  unfold World.step at h
  split at h
  · rename_i hnone
    split at h
    · rename_i operation hinput
      exact .inl ⟨operation, hnone, hinput, (Option.some.inj h).symm⟩
    · cases h
  · rename_i task htask
    split at h
    · rename_i hinput
      exact .inr (.inl ⟨task, htask, hinput, (Option.some.inj h).symm⟩)
    · rename_i move hinput
      split at h
      · rename_i task
        exact .inr (.inr (.inl ⟨task, move, htask, hinput, h⟩))
      · cases h
    · obtain ⟨action, haction, hperform⟩ := Option.bind_eq_some_iff.mp h
      exact .inr (.inr (.inr ⟨task, action, htask, haction, hperform⟩))

end session_manager
