import SessionManager.Database.State
import SessionManager.Runtime.Docker

namespace session_manager.sessions

/-- The await points of `SessionService.create_session`. -/
inductive CreateSession
  | insert (session_id : SessionId) (session : AgentSession)
  | runtime (session_id : SessionId) (session : AgentSession) (create : docker_runtime.Create)
  | commit_failed (session_id : SessionId) (session : AgentSession)
  | commit_ready (session_id : SessionId) (session : AgentSession) (runtime_id : RuntimeId)
  | refresh (session_id : SessionId)
  | returned (session_id : SessionId) (session : AgentSession)
  | raised (error : Error)

/-- A submitted task. The API layer rejects an empty idempotency key. -/
structure CreateRunRequest where
  session_id : SessionId
  user_input : String
  idempotency_key : Option String
deriving DecidableEq, Repr

/-- The await points of `SessionService.create_run`; up to the commit they lie
inside its transaction, and `session` is the locked row. -/
inductive CreateRun
  | select (request : CreateRunRequest)
  | lookup (request : CreateRunRequest) (session : AgentSession)
  | flush (request : CreateRunRequest) (session : AgentSession) (run_id : RunId)
  | sequence (request : CreateRunRequest) (session : AgentSession) (run_id : RunId)
  | commit (request : CreateRunRequest) (session : AgentSession) (run_id : RunId)
      (message_id : MessageId) (sequence : Nat)
  | refresh (request : CreateRunRequest) (run_id : RunId)
  | returned (request : CreateRunRequest) (run_id : RunId) (run : AgentRun) (replayed : Bool)
  | raised (request : CreateRunRequest) (error : Error)

/-- The await points of `SessionService.stop_session`; `session` is the row as
its first SELECT read it. -/
inductive StopSession
  | get (session_id : SessionId)
  | commit_stopping (session_id : SessionId) (session : AgentSession)
  | stop (session_id : SessionId) (session : AgentSession)
  | commit_failed (session_id : SessionId) (session : AgentSession)
  | cancel (session_id : SessionId) (session : AgentSession) (now : Time)
  | commit_stopped (session_id : SessionId) (session : AgentSession) (cancelled : List RunId)
      (now : Time)
  | refresh (session_id : SessionId)
  | returned (session_id : SessionId) (session : AgentSession)
  | raised (error : Error)

/-- The await points of `SessionService.delete_session`; `session` is the row as
its SELECT read it. -/
inductive DeleteSession
  | get (session_id : SessionId)
  | delete (session_id : SessionId) (session : AgentSession)
  | cancel (session_id : SessionId) (session : AgentSession) (now : Time)
  | commit (session_id : SessionId) (session : AgentSession) (cancelled : List RunId) (now : Time)
  | returned
  | raised (error : Error)

def CreateSession.ended : CreateSession → Bool
  | returned .. | raised .. => true
  | _ => false

def CreateRun.ended : CreateRun → Bool
  | returned .. | raised .. => true
  | _ => false

def StopSession.ended : StopSession → Bool
  | returned .. | raised .. => true
  | _ => false

def DeleteSession.ended : DeleteSession → Bool
  | returned | raised .. => true
  | _ => false

def session_not_found : Error := .ResourceNotFoundError "会话不存在。"

/-- `session.status = status` and `session.version += 1`. -/
def set_status (status : SessionStatus) (session : AgentSession) : AgentSession :=
  { session with status := status, version := session.version + 1 }

/-- The row `create_session` inserts. -/
def new_session (expires_at : Time) : AgentSession :=
  { status := .CREATING, expires_at := expires_at }

/-- `create_session` after `provider.create` returned a handle. -/
def bind_runtime (runtime_id : RuntimeId) (session : AgentSession) : AgentSession :=
  set_status .READY { session with runtime_id := some runtime_id }

def new_run (request : CreateRunRequest) : AgentRun :=
  { session_id := request.session_id
    status := .PENDING
    input := request.user_input
    idempotency_key := request.idempotency_key }

def user_message (request : CreateRunRequest) (run_id : RunId) (sequence : Nat) : ChatMessage :=
  { session_id := request.session_id
    run_id := some run_id
    role := .USER
    content := [("text", request.user_input)]
    sequence := sequence }

/-- `create_run` once no earlier run answers the request: only a READY session
takes a new task. -/
def check_ready (request : CreateRunRequest) (session : AgentSession) (run_id : RunId) : CreateRun :=
  if session.status ≠ .READY then
    .raised request (.StateConflictError
      ("会话当前状态为 " ++ session.status.value ++ "，只有 READY 状态可以提交任务。"))
  else .flush request session run_id

/-- `create_run` after the locking SELECT found the session. -/
def selected (request : CreateRunRequest) (session : AgentSession) (run_id : RunId) : CreateRun :=
  if truthy request.idempotency_key then .lookup request session
  else check_ready request session run_id

/-- `stop_session` after its first SELECT. -/
def stop_checked (session_id : SessionId) (session : AgentSession) : StopSession :=
  if session.status = .STOPPED then .returned session_id session
  else if session.status = .CREATING then
    .raised (.StateConflictError "会话仍在创建，暂时无法停止。")
  else .commit_stopping session_id session

/-- `stop_session` after STOPPING was committed. -/
def stop_runtime (session_id : SessionId) (session : AgentSession) (now : Time) : StopSession :=
  if truthy session.runtime_id then .stop session_id session
  else .cancel session_id session now

/-- `delete_session` after its SELECT. -/
def delete_runtime (session_id : SessionId) (session : AgentSession) (now : Time) : DeleteSession :=
  if truthy session.runtime_id then .delete session_id session
  else .cancel session_id session now

/-- The attributes `delete_session` assigns before its commit. -/
def mark_deleted (now : Time) (session : AgentSession) : AgentSession :=
  { set_status .STOPPED session with deleted_at := some now }

/-- The await points of `SessionService.issue_vnc_access` and of the provider's
function of that name. -/
inductive IssueVncAccess
  | get (session_id : SessionId)
  | get_container (session_id : SessionId) (runtime_id : RuntimeId)
  | reload (session_id : SessionId) (container : docker_runtime.Container)
  | returned (session_id : SessionId) (access : docker_runtime.VncAccess)
  | raised (error : Error)
deriving DecidableEq

/-- What ends an await of `issue_vnc_access`: its SELECT, the lookup of the
container, its reload, or an exception of one of these. -/
inductive VncAnswer
  | returned
  | failed
  | container (found : Option docker_runtime.Container)
  | reloaded (attrs : docker_runtime.Attrs)
  | raised

def vnc_failed : Error := .RuntimeOperationError "生成桌面访问地址失败。"

/-- `issue_vnc_access` after its SELECT. -/
def vnc_checked (session_id : SessionId) (session : AgentSession) : IssueVncAccess :=
  if session.status ≠ .READY ∧ session.status ≠ .RUNNING then
    .raised (.StateConflictError
      ("会话当前状态为 " ++ session.status.value ++ "，桌面不可访问。"))
  else
    match session.runtime_id with
    | none => .raised (.RuntimeOperationError "会话尚未绑定桌面运行时。")
    | some runtime_id =>
      if runtime_id = "" then .raised (.RuntimeOperationError "会话尚未绑定桌面运行时。")
      else .get_container session_id runtime_id

/-- `issue_vnc_access` resumed; `expires_at` is the end of the token it issues. -/
def IssueVncAccess.resume (db : Database) (expires_at : Time) :
    IssueVncAccess → VncAnswer → Option IssueVncAccess
  | .get session_id, .returned =>
    match db.get_session session_id with
    | none => some (.raised session_not_found)
    | some session => some (vnc_checked session_id session)
  | .get _, .failed => some (.raised .DatabaseError)
  | .get_container session_id _, .container (some container) => some (.reload session_id container)
  | .get_container .., .container none | .get_container .., .raised => some (.raised vnc_failed)
  | .reload session_id container, .reloaded attrs =>
    match docker_runtime.vnc_access container attrs expires_at with
    | none => some (.raised vnc_failed)
    | some access => some (.returned session_id access)
  | .reload .., .raised => some (.raised vnc_failed)
  | _, _ => none

end session_manager.sessions
