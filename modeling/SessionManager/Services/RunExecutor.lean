import SessionManager.Database.State

open unit_of_work

namespace session_manager.run_executor

/-- The five places where `execute` reaches `EventService.append`, with the
objects its assignments before the append come from; `emitted` is the agent
calling its event sink. -/
inductive Site
  | started (session : AgentSession) (now : Time)
  | emitted (session : AgentSession) (event_type : AgentEventType) (payload : Payload)
  | message (session : AgentSession) (message_id : MessageId) (final_text : String)
      (sequence : Nat) (now : Time)
  | completed
  | failed (session : Option AgentSession) (error : String) (now : Time)

/-- The await points of `EventService.append`: the INSERT that takes an id from
the sequence, the commit, the refresh and the publish. -/
inductive Stage
  | flush
  | commit (event_id : EventId)
  | refresh
  | publish
deriving DecidableEq, Repr

/-- The await points of `RunExecutor.execute`. The copies of the run and the
session are the values last loaded or committed; assignments not yet flushed
are computed from the site. -/
inductive Execute
  | select (run_id : RunId)
  | get_session (run_id : RunId) (run : AgentRun)
  | append (run_id : RunId) (run : AgentRun) (site : Site) (stage : Stage)
  | agent (run_id : RunId) (run : AgentRun) (session : AgentSession)
  | refresh_run (run_id : RunId) (run : AgentRun) (final_text : String)
  | refresh_session (run_id : RunId) (run : AgentRun) (final_text : String)
  | sequence (run_id : RunId) (run : AgentRun) (session : AgentSession) (final_text : String)
  | rollback (run_id : RunId) (run : AgentRun) (error : String)
  | reload_run (run_id : RunId) (run : AgentRun) (error : String)
  | reload_session (run_id : RunId) (run : AgentRun) (error : String)
  | returned
  | raised

def Execute.ended : Execute → Bool
  | returned | raised => true
  | _ => false

/-- `execute` marks the locked PENDING run as running. -/
def start_run (now : Time) (run : AgentRun) : AgentRun :=
  { run with status := .RUNNING, started_at := some now }

def start_session (session : AgentSession) : AgentSession :=
  { session with status := .RUNNING }

def complete_run (now : Time) (run : AgentRun) : AgentRun :=
  { run with status := .COMPLETED, finished_at := some now }

/-- The exception handler's assignments to the reloaded run. -/
def fail_run (error : String) (now : Time) (run : AgentRun) : AgentRun :=
  { run with status := .FAILED, error := some error, finished_at := some now }

/-- Both ends of a run give the session back. -/
def ready_session (session : AgentSession) : AgentSession :=
  { session with status := .READY, version := session.version + 1 }

def assistant_message (run_id : RunId) (run : AgentRun) (final_text : String) (sequence : Nat) :
    ChatMessage :=
  { session_id := run.session_id
    run_id := some run_id
    role := .ASSISTANT
    content := [("text", final_text)]
    sequence := sequence }

namespace Site

/-- The run as assigned before the append. -/
def run (site : Site) (run : AgentRun) : AgentRun :=
  match site with
  | started _ now => start_run now run
  | message _ _ _ _ now => complete_run now run
  | failed _ error now => fail_run error now run
  | emitted .. | completed => run

/-- The session object with its assignments before the append, when it has any. -/
def session : Site → Option (Loaded AgentSession)
  | started session _ => some ⟨session, start_session session⟩
  | message session _ _ _ _ => some ⟨session, ready_session session⟩
  | failed session _ _ => session.map fun session => ⟨session, ready_session session⟩
  | emitted .. | completed => none

/-- The assistant message added together with its event. -/
def chat_message (site : Site) (run_id : RunId) (run : AgentRun) : Option (MessageId × ChatMessage) :=
  match site with
  | message _ message_id final_text sequence _ =>
    some (message_id, assistant_message run_id run final_text sequence)
  | _ => none

def event_type : Site → EventType
  | started .. => .RUN_STARTED
  | emitted _ event_type _ => event_type.val
  | message .. => .ASSISTANT_MESSAGE
  | completed => .RUN_COMPLETED
  | failed .. => .RUN_FAILED

def payload (site : Site) (run : AgentRun) : Payload :=
  match site with
  | started .. => [("input", run.input)]
  | emitted _ _ payload => payload
  | message _ message_id final_text _ _ =>
    [("message_id", toString message_id), ("text", final_text)]
  | completed => [("status", RunStatus.COMPLETED.value)]
  | failed _ error _ => [("error", error)]

/-- The event `append` inserts. -/
def event (site : Site) (run_id : RunId) (run : AgentRun) (event_id : EventId) : SessionEvent :=
  { id := event_id
    session_id := run.session_id
    run_id := some run_id
    event_type := site.event_type
    payload := site.payload run }

end Site

/-- How `execute` goes on when an `append` has returned. -/
def after_append (run_id : RunId) (run : AgentRun) : Site → Execute
  | .started session _ => .agent run_id run (start_session session)
  | .emitted session _ _ => .agent run_id run session
  | .message .. => .append run_id run .completed .flush
  | .completed | .failed .. => .returned

/-- How `execute` goes on when a database call of an `append` raised: the first
append lies before the `try`, the last one in its handler, and the agent sees
the exception of its own event sink. -/
def append_raised (run_id : RunId) (run : AgentRun) (error : String) : Site → Execute
  | .started .. | .failed .. => .raised
  | .emitted session _ _ => .agent run_id run session
  | .message .. | .completed => .rollback run_id run error

end session_manager.run_executor
