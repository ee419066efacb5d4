import SessionManager.World.Step

/-! How a suspended call goes on: every service function, branch by branch. -/

open unit_of_work

namespace session_manager

open sessions run_executor runtime_reconciler

/-- How `create_session` goes on. A database call that raises ends it, whichever
it is. -/
inductive sessions.CreateSession.Resumes (db : Database) (l : Label) : CreateSession → Action → Prop
  | insert {session_id : SessionId} {session : AgentSession} (hinput : l.input = .returned) :
    Resumes db l (.insert session_id session)
      (.commit { insert_session := some (session_id, session) }
        (.create_session (.runtime session_id session .lock)) (.create_session (.raised .IntegrityError)))
  | docker {session_id : SessionId} {session : AgentSession} {create next : docker_runtime.Create}
      {answer : docker_runtime.Answer} (hinput : l.input = .docker answer)
      (hnext : create.resume answer = some (.await next)) :
    Resumes db l (.runtime session_id session create)
      (.proceed (.create_session (.runtime session_id session next)))
  | healthy {session_id : SessionId} {session : AgentSession} {create : docker_runtime.Create}
      {answer : docker_runtime.Answer} {runtime_id : RuntimeId} (hinput : l.input = .docker answer)
      (hnext : create.resume answer = some (.healthy runtime_id)) :
    Resumes db l (.runtime session_id session create)
      (.see_healthy session_id (.create_session (.commit_ready session_id session runtime_id)))
  | docker_raised {session_id : SessionId} {session : AgentSession} {create : docker_runtime.Create}
      {answer : docker_runtime.Answer} (hinput : l.input = .docker answer)
      (hnext : create.resume answer = some .raised) :
    Resumes db l (.runtime session_id session create)
      (.proceed (.create_session (.commit_failed session_id session)))
  | commit_failed {session_id : SessionId} {session : AgentSession} (hinput : l.input = .returned) :
    Resumes db l (.commit_failed session_id session)
      (.commit { update_session := update_row session_id ⟨session, sessions.set_status .FAILED session⟩ }
        (.create_session (.raised (.RuntimeOperationError "创建会话运行时失败。")))
        (.create_session (.raised .IntegrityError)))
  | commit_ready {session_id : SessionId} {session : AgentSession} {runtime_id : RuntimeId}
      (hinput : l.input = .returned) :
    Resumes db l (.commit_ready session_id session runtime_id)
      (.commit { update_session := update_row session_id ⟨session, bind_runtime runtime_id session⟩ }
        (.create_session (.refresh session_id)) (.create_session (.raised .IntegrityError)))
  | missing {session_id : SessionId} (hinput : l.input = .returned)
      (hget : db.sessions.get? session_id = none) :
    Resumes db l (.refresh session_id) (.proceed (.create_session (.raised .DatabaseError)))
  | refresh {session_id : SessionId} {session : AgentSession} (hinput : l.input = .returned)
      (hget : db.sessions.get? session_id = some session) :
    Resumes db l (.refresh session_id) (.proceed (.create_session (.returned session_id session)))
  | failed {task : CreateSession} (hinput : l.input = .failed) :
    Resumes db l task (.proceed (.create_session (.raised .DatabaseError)))

/-- A step of `create_session` is one of those listed, with what it has read. The proofs
about the function split on this list, never on its definition. -/
theorem sessions.CreateSession.resumes {db : Database} {l : Label} {task : CreateSession} {action : Action}
    (h : task.resume db l = some action) : Resumes db l task action := by
  unfold CreateSession.resume at h
  split at h
  case h_2 =>
    split at h <;> cases h
    · exact .docker ‹_› ‹_›
    · exact .healthy ‹_› ‹_›
    · exact .docker_raised ‹_› ‹_›
  case h_5 =>
    split at h <;> cases h
    · exact .missing ‹_› ‹_›
    · exact .refresh ‹_› ‹_›
  case h_9 =>
    cases h
    exact .failed ‹_›
  all_goals cases h <;> constructor <;> assumption

/-- How `create_run` goes on. -/
inductive sessions.CreateRun.Resumes (db : Database) (l : Label) : CreateRun → Action → Prop
  | missing {request : CreateRunRequest} (hinput : l.input = .returned)
      (hget : db.get_session request.session_id = none) :
    Resumes db l (.select request) (.proceed (.create_run (.raised request session_not_found)))
  | select {request : CreateRunRequest} {session : AgentSession} (hinput : l.input = .returned)
      (hget : db.get_session request.session_id = some session) :
    Resumes db l (.select request)
      (.lock_session request.session_id (.create_run (selected request session l.uuid)))
  | replay {request : CreateRunRequest} {session : AgentSession} {run_id : RunId} {run : AgentRun}
      (hinput : l.input = .returned)
      (hfound : db.get_run_by_idempotency_key request.session_id (request.idempotency_key.getD "") =
        some (run_id, run)) :
    Resumes db l (.lookup request session) (.proceed (.create_run (.returned request run_id run true)))
  | lookup {request : CreateRunRequest} {session : AgentSession} (hinput : l.input = .returned)
      (hfound : db.get_run_by_idempotency_key request.session_id (request.idempotency_key.getD "") = none) :
    Resumes db l (.lookup request session) (.proceed (.create_run (check_ready request session l.uuid)))
  | refused {request : CreateRunRequest} {session : AgentSession} {run_id : RunId}
      (hinput : l.input = .returned) (hconflict : db.run_conflict run_id (new_run request) = true) :
    Resumes db l (.flush request session run_id) (.proceed (.create_run (.raised request .IntegrityError)))
  | flush {request : CreateRunRequest} {session : AgentSession} {run_id : RunId}
      (hinput : l.input = .returned) (hconflict : db.run_conflict run_id (new_run request) = false) :
    Resumes db l (.flush request session run_id) (.proceed (.create_run (.sequence request session run_id)))
  | sequence {request : CreateRunRequest} {session : AgentSession} {run_id : RunId}
      (hinput : l.input = .returned) :
    Resumes db l (.sequence request session run_id)
      (.proceed (.create_run (.commit request session run_id l.uuid
        (db.next_message_sequence request.session_id))))
  | commit {request : CreateRunRequest} {session : AgentSession} {run_id : RunId} {message_id : MessageId}
      {seq : Nat} (hinput : l.input = .returned) :
    Resumes db l (.commit request session run_id message_id seq)
      (.commit (run_transaction request session run_id message_id seq)
        (.create_run (.refresh request run_id)) (.create_run (.raised request .IntegrityError)))
  | gone {request : CreateRunRequest} {run_id : RunId} (hinput : l.input = .returned)
      (hget : db.runs.get? run_id = none) :
    Resumes db l (.refresh request run_id) (.proceed (.create_run (.raised request .DatabaseError)))
  | refresh {request : CreateRunRequest} {run_id : RunId} {run : AgentRun} (hinput : l.input = .returned)
      (hget : db.runs.get? run_id = some run) :
    Resumes db l (.refresh request run_id) (.proceed (.create_run (.returned request run_id run false)))
  | failed {request : CreateRunRequest} {task : CreateRun} (hinput : l.input = .failed) :
    Resumes db l task (.proceed (.create_run (.raised request .DatabaseError)))

/-- A step of `create_run` is one of those listed, with the row or the conflict it has
found. -/
theorem sessions.CreateRun.resumes {db : Database} {l : Label} {task : CreateRun} {action : Action}
    (h : task.resume db l = some action) : Resumes db l task action := by
  unfold CreateRun.resume at h
  split at h
  case h_1 =>
    split at h <;> cases h
    · exact .missing ‹_› ‹_›
    · exact .select ‹_› ‹_›
  case h_2 =>
    split at h <;> cases h
    · exact .replay ‹_› ‹_›
    · exact .lookup ‹_› ‹_›
  case h_3 =>
    split at h <;> cases h
    · exact .refused ‹_› ‹_›
    · rename_i hconflict
      exact .flush ‹_› (by simpa using hconflict)
  case h_6 =>
    split at h <;> cases h
    · exact .gone ‹_› ‹_›
    · exact .refresh ‹_› ‹_›
  case h_12 =>
    cases h
    exact .failed ‹_›
  all_goals cases h <;> constructor <;> assumption

/-- How `stop_session` goes on. -/
inductive sessions.StopSession.Resumes (db : Database) (l : Label) : StopSession → Action → Prop
  | missing {session_id : SessionId} (hinput : l.input = .returned) (hget : db.get_session session_id = none) :
    Resumes db l (.get session_id) (.proceed (.stop_session (.raised session_not_found)))
  | get {session_id : SessionId} {session : AgentSession} (hinput : l.input = .returned)
      (hget : db.get_session session_id = some session) :
    Resumes db l (.get session_id) (.proceed (.stop_session (stop_checked session_id session)))
  | commit_stopping {session_id : SessionId} {session : AgentSession} (hinput : l.input = .returned) :
    Resumes db l (.commit_stopping session_id session)
      (.commit (stop_transaction session_id ⟨session, sessions.set_status .STOPPING session⟩ [] l.now)
        (.stop_session (stop_runtime session_id (sessions.set_status .STOPPING session) l.now))
        (.stop_session (.raised .IntegrityError)))
  | stop {session_id : SessionId} {session : AgentSession} (hinput : l.input = .runtime true) :
    Resumes db l (.stop session_id session) (.proceed (.stop_session (.cancel session_id session l.now)))
  | stop_raised {session_id : SessionId} {session : AgentSession} (hinput : l.input = .runtime false) :
    Resumes db l (.stop session_id session) (.proceed (.stop_session (.commit_failed session_id session)))
  | commit_failed {session_id : SessionId} {session : AgentSession} (hinput : l.input = .returned) :
    Resumes db l (.commit_failed session_id session)
      (.commit (stop_transaction session_id ⟨session, sessions.set_status .FAILED session⟩ [] l.now)
        (.stop_session (.raised (.RuntimeOperationError "停止会话运行时失败。")))
        (.stop_session (.raised .IntegrityError)))
  | cancel {session_id : SessionId} {session : AgentSession} {now : Time} (hinput : l.input = .returned) :
    Resumes db l (.cancel session_id session now)
      (.lock_runs (db.active_runs session_id)
        (.stop_session (.commit_stopped session_id session (db.active_runs session_id) now)))
  | commit_stopped {session_id : SessionId} {session : AgentSession} {cancelled : List RunId} {now : Time}
      (hinput : l.input = .returned) :
    Resumes db l (.commit_stopped session_id session cancelled now)
      (.commit (stop_transaction session_id ⟨session, sessions.set_status .STOPPED session⟩ cancelled now)
        (.stop_session (.refresh session_id)) (.stop_session (.raised .IntegrityError)))
  | gone {session_id : SessionId} (hinput : l.input = .returned)
      (hget : db.sessions.get? session_id = none) :
    Resumes db l (.refresh session_id) (.proceed (.stop_session (.raised .DatabaseError)))
  | refresh {session_id : SessionId} {session : AgentSession} (hinput : l.input = .returned)
      (hget : db.sessions.get? session_id = some session) :
    Resumes db l (.refresh session_id) (.proceed (.stop_session (.returned session_id session)))
  | failed {task : StopSession} (hinput : l.input = .failed) :
    Resumes db l task (.proceed (.stop_session (.raised .DatabaseError)))

/-- A step of `stop_session` is one of those listed, with the outcome of the Docker call
it has waited for. -/
theorem sessions.StopSession.resumes {db : Database} {l : Label} {task : StopSession} {action : Action}
    (h : task.resume db l = some action) : Resumes db l task action := by
  unfold StopSession.resume at h
  split at h
  case h_1 =>
    split at h <;> cases h
    · exact .missing ‹_› ‹_›
    · exact .get ‹_› ‹_›
  case h_8 =>
    split at h <;> cases h
    · exact .gone ‹_› ‹_›
    · exact .refresh ‹_› ‹_›
  case h_14 =>
    cases h
    exact .failed ‹_›
  all_goals cases h <;> constructor <;> assumption

/-- How `delete_session` goes on. -/
inductive sessions.DeleteSession.Resumes (db : Database) (l : Label) : DeleteSession → Action → Prop
  | missing {session_id : SessionId} (hinput : l.input = .returned) (hget : db.get_session session_id = none) :
    Resumes db l (.get session_id) (.proceed (.delete_session (.raised session_not_found)))
  | get {session_id : SessionId} {session : AgentSession} (hinput : l.input = .returned)
      (hget : db.get_session session_id = some session) :
    Resumes db l (.get session_id) (.proceed (.delete_session (delete_runtime session_id session l.now)))
  | delete {session_id : SessionId} {session : AgentSession} (hinput : l.input = .runtime true) :
    Resumes db l (.delete session_id session)
      (.proceed (.delete_session (.cancel session_id session l.now)))
  | delete_raised {session_id : SessionId} {session : AgentSession} (hinput : l.input = .runtime false) :
    Resumes db l (.delete session_id session)
      (.proceed (.delete_session (.raised (.RuntimeOperationError "销毁会话运行时失败。"))))
  | cancel {session_id : SessionId} {session : AgentSession} {now : Time} (hinput : l.input = .returned) :
    Resumes db l (.cancel session_id session now)
      (.lock_runs (db.active_runs session_id)
        (.delete_session (.commit session_id session (db.active_runs session_id) now)))
  | commit {session_id : SessionId} {session : AgentSession} {cancelled : List RunId} {now : Time}
      (hinput : l.input = .returned) :
    Resumes db l (.commit session_id session cancelled now)
      (.commit (stop_transaction session_id ⟨session, mark_deleted now session⟩ cancelled now)
        (.delete_session .returned) (.delete_session (.raised .IntegrityError)))
  | failed {task : DeleteSession} (hinput : l.input = .failed) :
    Resumes db l task (.proceed (.delete_session (.raised .DatabaseError)))

/-- A step of `delete_session` is one of those listed. A Docker call that raises leaves
the session as it is. -/
theorem sessions.DeleteSession.resumes {db : Database} {l : Label} {task : DeleteSession} {action : Action}
    (h : task.resume db l = some action) : Resumes db l task action := by
  unfold DeleteSession.resume at h
  split at h
  case h_1 =>
    split at h <;> cases h
    · exact .missing ‹_› ‹_›
    · exact .get ‹_› ‹_›
  all_goals cases h <;> constructor <;> assumption

/-- How an executor goes on. -/
inductive run_executor.Execute.Resumes (db : Database) (l : Label) : Execute → Action → Prop
  | missing {run_id : RunId} (hinput : l.input = .returned) (hget : db.runs.get? run_id = none) :
    Resumes db l (.select run_id) (.proceed (.execute .returned))
  | taken {run_id : RunId} {run : AgentRun} (hinput : l.input = .returned)
      (hget : db.runs.get? run_id = some run) (htaken : run.status ≠ .PENDING) :
    Resumes db l (.select run_id) (.lock_run run_id (.execute .returned))
  | lock {run_id : RunId} {run : AgentRun} (hinput : l.input = .returned)
      (hget : db.runs.get? run_id = some run) (hpending : run.status = .PENDING) :
    Resumes db l (.select run_id) (.lock_run run_id (.execute (.get_session run_id run)))
  /-- The session is gone, or deleted. -/
  | no_session {run_id : RunId} {run : AgentRun} (hinput : l.input = .returned)
      (hgone : ∀ session, db.sessions.get? run.session_id = some session → session.deleted_at.isSome = true) :
    Resumes db l (.get_session run_id run) (.proceed (.execute .returned))
  | start {run_id : RunId} {run : AgentRun} {session : AgentSession} (hinput : l.input = .returned)
      (hget : db.sessions.get? run.session_id = some session) (hdeleted : session.deleted_at.isSome = false) :
    Resumes db l (.get_session run_id run)
      (.proceed (.execute (.append run_id run (.started session l.now) .flush)))
  | flush {run_id : RunId} {run : AgentRun} {site : Site} (hinput : l.input = .returned) :
    Resumes db l (.append run_id run site .flush)
      (.take_event_id (.execute (.append run_id run site (.commit db.next_event_id))))
  | commit {run_id : RunId} {run : AgentRun} {site : Site} {event_id : EventId}
      (hinput : l.input = .returned) :
    Resumes db l (.append run_id run site (.commit event_id))
      (.commit (append_transaction run_id run site event_id)
        (.execute (.append run_id (site.run run) site .refresh))
        (.execute (append_raised run_id run "IntegrityError" site)))
  | refresh {run_id : RunId} {run : AgentRun} {site : Site} (hinput : l.input = .returned) :
    Resumes db l (.append run_id run site .refresh) (.proceed (.execute (.append run_id run site .publish)))
  | call_agent {run_id : RunId} {run : AgentRun} {session : AgentSession} {now : Time} {ok : Bool}
      (hinput : l.input = .published ok) :
    Resumes db l (.append run_id run (.started session now) .publish)
      (.call_agent run_id (.execute (after_append run_id run (.started session now))))
  | publish {run_id : RunId} {run : AgentRun} {site : Site} {ok : Bool} (hinput : l.input = .published ok)
      (hsite : ∀ session now, site ≠ .started session now) :
    Resumes db l (.append run_id run site .publish) (.proceed (.execute (after_append run_id run site)))
  | emit {run_id : RunId} {run : AgentRun} {session : AgentSession} {event_type : AgentEventType}
      {payload : Payload} (hinput : l.input = .agent (.emit event_type payload)) :
    Resumes db l (.agent run_id run session)
      (.proceed (.execute (.append run_id run (.emitted session event_type payload) .flush)))
  | answer {run_id : RunId} {run : AgentRun} {session : AgentSession} {final_text : String}
      (hinput : l.input = .agent (.returns final_text)) :
    Resumes db l (.agent run_id run session) (.proceed (.execute (.refresh_run run_id run final_text)))
  | raise {run_id : RunId} {run : AgentRun} {session : AgentSession} {error : String}
      (hinput : l.input = .agent (.raises error)) :
    Resumes db l (.agent run_id run session)
      (.leave_drain run.session_id run_id (.execute (.rollback run_id run error)))
  | run_lost {run_id : RunId} {run : AgentRun} {final_text : String} (hinput : l.input = .returned)
      (hget : db.runs.get? run_id = none) :
    Resumes db l (.refresh_run run_id run final_text)
      (.proceed (.execute (.rollback run_id run "InvalidRequestError")))
  | refresh_run {run_id : RunId} {run row : AgentRun} {final_text : String} (hinput : l.input = .returned)
      (hget : db.runs.get? run_id = some row) :
    Resumes db l (.refresh_run run_id run final_text)
      (.proceed (.execute (.refresh_session run_id row final_text)))
  | session_lost {run_id : RunId} {run : AgentRun} {final_text : String} (hinput : l.input = .returned)
      (hget : db.sessions.get? run.session_id = none) :
    Resumes db l (.refresh_session run_id run final_text)
      (.proceed (.execute (.rollback run_id run "InvalidRequestError")))
  | cancelled {run_id : RunId} {run : AgentRun} {final_text : String} (hinput : l.input = .returned)
      (hcancelled : run.status = .CANCELLED) :
    Resumes db l (.refresh_session run_id run final_text) (.proceed (.execute .returned))
  | refresh_session {run_id : RunId} {run : AgentRun} {session : AgentSession} {final_text : String}
      (hinput : l.input = .returned) (hget : db.sessions.get? run.session_id = some session)
      (hgoes_on : run.status ≠ .CANCELLED) :
    Resumes db l (.refresh_session run_id run final_text)
      (.proceed (.execute (.sequence run_id run session final_text)))
  | sequence {run_id : RunId} {run : AgentRun} {session : AgentSession} {final_text : String}
      (hinput : l.input = .returned) :
    Resumes db l (.sequence run_id run session final_text)
      (.proceed (.execute (.append run_id run
        (.message session l.uuid final_text (db.next_message_sequence run.session_id) l.now) .flush)))
  | rollback {run_id : RunId} {run : AgentRun} {error : String} (hinput : l.input = .returned) :
    Resumes db l (.rollback run_id run error) (.proceed (.execute (.reload_run run_id run error)))
  | reload_missing {run_id : RunId} {run : AgentRun} {error : String} (hinput : l.input = .returned)
      (hget : db.runs.get? run_id = none) :
    Resumes db l (.reload_run run_id run error) (.proceed (.execute .returned))
  | reload_cancelled {run_id : RunId} {run row : AgentRun} {error : String} (hinput : l.input = .returned)
      (hget : db.runs.get? run_id = some row) (hcancelled : row.status = .CANCELLED) :
    Resumes db l (.reload_run run_id run error) (.proceed (.execute .returned))
  | reload_run {run_id : RunId} {run row : AgentRun} {error : String} (hinput : l.input = .returned)
      (hget : db.runs.get? run_id = some row) (hgoes_on : row.status ≠ .CANCELLED) :
    Resumes db l (.reload_run run_id run error) (.proceed (.execute (.reload_session run_id row error)))
  | reload_session {run_id : RunId} {run : AgentRun} {error : String} (hinput : l.input = .returned) :
    Resumes db l (.reload_session run_id run error)
      (.proceed (.execute (.append run_id run
        (.failed (db.sessions.get? run.session_id) error l.now) .flush)))
  | append_failed {run_id : RunId} {run : AgentRun} {site : Site} {stage : Stage}
      (hinput : l.input = .failed) (hstage : stage ≠ .publish) :
    Resumes db l (.append run_id run site stage)
      (.proceed (.execute (append_raised run_id run "DatabaseError" site)))
  | refresh_run_failed {run_id : RunId} {run : AgentRun} {final_text : String} (hinput : l.input = .failed) :
    Resumes db l (.refresh_run run_id run final_text)
      (.proceed (.execute (.rollback run_id run "DatabaseError")))
  | refresh_session_failed {run_id : RunId} {run : AgentRun} {final_text : String}
      (hinput : l.input = .failed) :
    Resumes db l (.refresh_session run_id run final_text)
      (.proceed (.execute (.rollback run_id run "DatabaseError")))
  | sequence_failed {run_id : RunId} {run : AgentRun} {session : AgentSession} {final_text : String}
      (hinput : l.input = .failed) :
    Resumes db l (.sequence run_id run session final_text)
      (.proceed (.execute (.rollback run_id run "DatabaseError")))
  | select_failed {run_id : RunId} (hinput : l.input = .failed) :
    Resumes db l (.select run_id) (.proceed (.execute .raised))
  | get_session_failed {run_id : RunId} {run : AgentRun} (hinput : l.input = .failed) :
    Resumes db l (.get_session run_id run) (.proceed (.execute .raised))
  | rollback_failed {run_id : RunId} {run : AgentRun} {error : String} (hinput : l.input = .failed) :
    Resumes db l (.rollback run_id run error) (.proceed (.execute .raised))
  | reload_run_failed {run_id : RunId} {run : AgentRun} {error : String} (hinput : l.input = .failed) :
    Resumes db l (.reload_run run_id run error) (.proceed (.execute .raised))
  | reload_session_failed {run_id : RunId} {run : AgentRun} {error : String} (hinput : l.input = .failed) :
    Resumes db l (.reload_session run_id run error) (.proceed (.execute .raised))

/-- A step of `execute` is one of those listed, its agent and the appends of its sink
included; the failures of the database calls are cases of their own. -/
theorem run_executor.Execute.resumes {db : Database} {l : Label} {task : Execute} {action : Action}
    (h : task.resume db l = some action) : Resumes db l task action := by
  unfold Execute.resume at h
  split at h
  case h_1 =>
    split at h
    · cases h
      exact .missing ‹_› ‹_›
    · rename_i run hget
      cases h
      split
      · exact .taken ‹_› hget ‹_›
      · rename_i hpending
        exact .lock ‹_› hget (by simpa using hpending)
  case h_2 =>
    split at h
    · rename_i hget
      cases h
      exact .no_session ‹_› (by simp [hget])
    · rename_i session hget
      split at h <;> cases h
      · rename_i hdeleted
        exact .no_session ‹_› (by simp [hget, hdeleted])
      · rename_i hdeleted
        exact .start ‹_› hget (by simpa using hdeleted)
  case h_11 =>
    split at h <;> cases h
    · exact .run_lost ‹_› ‹_›
    · exact .refresh_run ‹_› ‹_›
  case h_12 =>
    split at h
    · cases h
      exact .session_lost ‹_› ‹_›
    · rename_i hget
      split at h <;> cases h
      · exact .cancelled ‹_› ‹_›
      · exact .refresh_session ‹_› hget ‹_›
  case h_15 =>
    split at h
    · cases h
      exact .reload_missing ‹_› ‹_›
    · rename_i hget
      split at h <;> cases h
      · exact .reload_cancelled ‹_› hget ‹_›
      · exact .reload_run ‹_› hget ‹_›
  case h_7 hsite hinput =>
    cases h
    exact .publish hinput hsite
  case h_17 | h_18 | h_19 =>
    cases h
    exact .append_failed ‹_› (by simp)
  all_goals cases h <;> constructor <;> assumption

/-- How a reconcile pass goes on. -/
inductive runtime_reconciler.Reconcile.Resumes (db : Database) (l : Label) : Reconcile → Action → Prop
  | unlisted (hinput : l.input = .listed none) : Resumes db l .list (.proceed (.reconcile .raised))
  | listed {runtimes : List RuntimeInfo} (hinput : l.input = .listed (some runtimes)) :
    Resumes db l .list (.proceed (.reconcile (.select runtimes)))
  | select {runtimes : List RuntimeInfo} (hinput : l.input = .returned) :
    Resumes db l (.select runtimes)
      (.proceed (.reconcile (next_deletion (Pass.deletions ⟨runtimes, db.sessions, l.now⟩)
        ⟨runtimes, db.sessions, l.now⟩)))
  | delete {pending : List RuntimeInfo} {pass : Pass} {ok : Bool} (hinput : l.input = .runtime ok) :
    Resumes db l (.delete pending pass) (.proceed (.reconcile (next_deletion pending.tail pass)))
  | commit {pass : Pass} (hinput : l.input = .returned) :
    Resumes db l (.commit pass) (.commit pass.transaction (.reconcile .returned) (.reconcile .raised))
  | failed {task : Reconcile} (hinput : l.input = .failed) :
    Resumes db l task (.proceed (.reconcile .raised))

/-- A step of the reconcile pass is one of those listed: the listing, the SELECT, each
deletion and the commit. -/
theorem runtime_reconciler.Reconcile.resumes {db : Database} {l : Label} {task : Reconcile}
    {action : Action} (h : task.resume db l = some action) : Resumes db l task action := by
  unfold Reconcile.resume at h
  split at h
  all_goals cases h <;> constructor <;> assumption

end session_manager
