import Mathlib.Logic.Basic

namespace session_manager

abbrev Uuid := Nat
abbrev SessionId := Uuid
abbrev RunId := Uuid
abbrev MessageId := Uuid
abbrev EventId := Nat
abbrev RuntimeId := String
abbrev Time := Nat

/-- A task of the event loops of all server processes. -/
abbrev Pid := Nat

inductive SessionStatus
  | CREATING | READY | RUNNING | STOPPING | STOPPED | FAILED | EXPIRED
deriving DecidableEq, Repr

def SessionStatus.value : SessionStatus → String
  | CREATING => "CREATING"
  | READY => "READY"
  | RUNNING => "RUNNING"
  | STOPPING => "STOPPING"
  | STOPPED => "STOPPED"
  | FAILED => "FAILED"
  | EXPIRED => "EXPIRED"

inductive RunStatus
  | PENDING | RUNNING | COMPLETED | FAILED | CANCELLED
deriving DecidableEq, Repr

def RunStatus.value : RunStatus → String
  | PENDING => "PENDING"
  | RUNNING => "RUNNING"
  | COMPLETED => "COMPLETED"
  | FAILED => "FAILED"
  | CANCELLED => "CANCELLED"

/-- The statuses covered by the partial index `uq_runs_one_active_per_session`. -/
def RunStatus.active : RunStatus → Bool
  | PENDING | RUNNING => true
  | COMPLETED | FAILED | CANCELLED => false

inductive MessageRole
  | USER | ASSISTANT | TOOL | SYSTEM
deriving DecidableEq, Repr

inductive EventType
  | SESSION_STATUS | RUN_STARTED | ASSISTANT_DELTA | ASSISTANT_MESSAGE | TOOL_STARTED
  | TOOL_RESULT | SCREENSHOT_AVAILABLE | RUN_COMPLETED | RUN_FAILED
deriving DecidableEq, Repr

/-- The event types that report the end of a run. -/
def EventType.terminal : EventType → Bool
  | RUN_COMPLETED | RUN_FAILED => true
  | _ => false

/-- The event types the runners of `app.agents` hand to their sink. -/
def EventType.agent : EventType → Bool
  | ASSISTANT_DELTA | ASSISTANT_MESSAGE | TOOL_STARTED | TOOL_RESULT | SCREENSHOT_AVAILABLE => true
  | SESSION_STATUS | RUN_STARTED | RUN_COMPLETED | RUN_FAILED => false

/-- A type an agent may emit. -/
abbrev AgentEventType := { t : EventType // t.agent = true }

/-- A flat JSON object. -/
abbrev Payload := List (String × String)

/-- Python truthiness of an optional string: neither None nor empty. -/
def truthy : Option String → Bool
  | none => false
  | some s => s ≠ ""

/-- The exceptions that leave the service functions. -/
inductive Error
  | ResourceNotFoundError (message : String)
  | StateConflictError (message : String)
  | RuntimeOperationError (message : String)
  | IntegrityError
  | DatabaseError
deriving DecidableEq, Repr

end session_manager
