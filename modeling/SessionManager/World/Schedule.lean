import SessionManager.Library.Transition
import SessionManager.World.Step

namespace session_manager.schedule

open sessions run_executor

/-- Task `p` runs on through these awaits. -/
def through (p : Pid) (inputs : List Input) : List Label :=
  inputs.map fun input => { pid := p, input := input }

/-- `create_session` up to the health check of its new container. -/
def creates (p : Pid) (session_id : SessionId) (runtime_id : RuntimeId) : List Label :=
  { pid := p, input := .call (.create_session 1000), uuid := session_id } ::
  through p [.returned, .docker .done, .docker (.listed []),
    .docker (.container ⟨runtime_id, "running"⟩)]

/-- `create_session` from a good health check to its commit of READY. -/
def becomes_ready (p : Pid) : List Label :=
  through p [.docker (.state (some "running") (some "healthy")), .returned]

/-- `create_run` without an idempotency key, up to its commit. -/
def submits (p : Pid) (session_id : SessionId) (run_id : RunId) (message_id : MessageId) : List Label :=
  [{ pid := p, input := .call (.create_run ⟨session_id, "task", none⟩) },
    { pid := p, input := .returned, uuid := run_id }, { pid := p, input := .returned },
    { pid := p, input := .returned, uuid := message_id }, { pid := p, input := .returned }]

/-- `execute` up to the lock of its run. -/
def locks (p : Pid) (run_id : RunId) : List Label :=
  through p [.call (.execute run_id), .returned]

/-- `execute` from the lock of its run to the call of the agent. -/
def starts (p : Pid) : List Label :=
  through p [.returned, .returned, .returned, .returned, .published true]

/-- `execute` from the agent's answer to the check of the run. -/
def agent_returns (p : Pid) : List Label :=
  through p [.agent (.returns "done"), .returned, .returned]

/-- `execute` from the check of the run to the commit of its answer. -/
def completes (p : Pid) (message_id : MessageId) : List Label :=
  [{ pid := p, input := .returned, uuid := message_id }] ++ through p [.returned, .returned]

/-- `execute` from the commit of its answer to its end. -/
def reports (p : Pid) : List Label :=
  through p [.returned, .published true, .returned, .returned, .returned, .published true]

/-- The exception handler of `execute`, from its rollback to its end. -/
def handles (p : Pid) : List Label :=
  through p [.returned, .returned, .returned, .returned, .returned, .returned, .published true]

/-- `stop_session` of a session with a runtime, up to the stop of its container. -/
def stops (p : Pid) (session_id : SessionId) : List Label :=
  through p [.call (.stop_session session_id), .returned, .returned]

/-- `stop_session` from the stop of the container to its last commit. -/
def stopped (p : Pid) : List Label :=
  through p [.runtime true, .returned, .returned]

/-- `delete_session` of a session with a runtime, up to its last commit. -/
def deletes (p : Pid) (session_id : SessionId) : List Label :=
  through p [.call (.delete_session session_id), .returned, .runtime true, .returned]

/-- A reconcile pass over the given runtimes up to its commit, when it deletes
none of them. -/
def reconciles (p : Pid) (runtimes : List RuntimeInfo) (now : Time) : List Label :=
  through p [.call .reconcile, .listed (some runtimes)] ++
    [{ pid := p, input := .returned, now := now }]

end session_manager.schedule
