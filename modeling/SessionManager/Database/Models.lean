import SessionManager.Domain
import SessionManager.Library.UnitOfWork

open unit_of_work

namespace session_manager

/-- A row of `sessions`, keyed by its id. -/
structure AgentSession where
  status : SessionStatus := .CREATING
  runtime_id : Option RuntimeId := none
  version : Nat := 1
  expires_at : Time
  deleted_at : Option Time := none
deriving DecidableEq, Repr

/-- A row of `runs`, keyed by its id. -/
structure AgentRun where
  session_id : SessionId
  status : RunStatus := .PENDING
  input : String
  idempotency_key : Option String
  error : Option String := none
  started_at : Option Time := none
  finished_at : Option Time := none
deriving DecidableEq, Repr

/-- A row of `messages`, keyed by its id. -/
structure ChatMessage where
  session_id : SessionId
  run_id : Option RunId
  role : MessageRole := .USER
  content : Payload
  sequence : Nat
deriving DecidableEq, Repr

/-- A row of `events`. -/
structure SessionEvent where
  id : EventId
  session_id : SessionId
  run_id : Option RunId
  event_type : EventType
  payload : Payload
deriving DecidableEq, Repr

instance : Columns AgentSession where
  update loaded current row :=
    { status := column loaded.status current.status row.status
      runtime_id := column loaded.runtime_id current.runtime_id row.runtime_id
      version := column loaded.version current.version row.version
      expires_at := column loaded.expires_at current.expires_at row.expires_at
      deleted_at := column loaded.deleted_at current.deleted_at row.deleted_at }
  update_self := by simp
  update_loaded := by simp

instance : Columns AgentRun where
  update loaded current row :=
    { session_id := column loaded.session_id current.session_id row.session_id
      status := column loaded.status current.status row.status
      input := column loaded.input current.input row.input
      idempotency_key := column loaded.idempotency_key current.idempotency_key row.idempotency_key
      error := column loaded.error current.error row.error
      started_at := column loaded.started_at current.started_at row.started_at
      finished_at := column loaded.finished_at current.finished_at row.finished_at }
  update_self := by simp
  update_loaded := by simp

@[simp] theorem AgentSession.write_status (x : Loaded AgentSession) (row : AgentSession) :
    (x.write row).status = column x.loaded.status x.current.status row.status := rfl

@[simp] theorem AgentSession.write_deleted_at (x : Loaded AgentSession) (row : AgentSession) :
    (x.write row).deleted_at = column x.loaded.deleted_at x.current.deleted_at row.deleted_at := rfl

@[simp] theorem AgentSession.write_runtime_id (x : Loaded AgentSession) (row : AgentSession) :
    (x.write row).runtime_id = column x.loaded.runtime_id x.current.runtime_id row.runtime_id := rfl

@[simp] theorem AgentRun.write_status (x : Loaded AgentRun) (row : AgentRun) :
    (x.write row).status = column x.loaded.status x.current.status row.status := rfl

@[simp] theorem AgentRun.write_session_id (x : Loaded AgentRun) (row : AgentRun) :
    (x.write row).session_id = column x.loaded.session_id x.current.session_id row.session_id := rfl

@[simp] theorem AgentRun.write_idempotency_key (x : Loaded AgentRun) (row : AgentRun) :
    (x.write row).idempotency_key =
      column x.loaded.idempotency_key x.current.idempotency_key row.idempotency_key := rfl

end session_manager
