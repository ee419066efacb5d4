import SessionManager.Library.RowLocks
import SessionManager.Services.Sessions
import SessionManager.Services.RunExecutor
import SessionManager.Services.RuntimeReconciler
import Mathlib.Tactic.Simps.Basic

namespace session_manager

open sessions run_executor runtime_reconciler

/-- One call of a service function, at the await it is suspended in. -/
inductive Task
  | create_session (task : CreateSession)
  | create_run (task : CreateRun)
  | execute (task : Execute)
  | stop_session (task : StopSession)
  | delete_session (task : DeleteSession)
  | reconcile (task : Reconcile)
  | killed

/-- Whether the call is over, so that its database session is closed. -/
def Task.ended : Task → Bool
  | create_session task => task.ended
  | create_run task => task.ended
  | execute task => task.ended
  | stop_session task => task.ended
  | delete_session task => task.ended
  | reconcile task => task.ended
  | killed => true

/-- The calls that start a task. -/
inductive Operation
  | create_session (expires_in_seconds : Time)
  | create_run (request : CreateRunRequest)
  | execute (run_id : RunId)
  | stop_session (session_id : SessionId)
  | delete_session (session_id : SessionId)
  | reconcile

/-- What an agent does next inside `agent_runner.run`. Its sink only receives
the types the runners of `app.agents` emit. -/
inductive AgentMove
  | emit (event_type : AgentEventType) (payload : Payload)
  | returns (final_text : String)
  | raises (error : String)

/-- What the worker of an agent's adapter does that `agent_runner.run` has left
behind: it takes an event from its queue and flushes it in the append of the sink,
whose commit then returns, or raises and ends the worker. -/
inductive DrainMove
  | emit (event_type : AgentEventType) (payload : Payload)
  | returned
  | failed

/-- What ends the await a task is suspended in. -/
inductive Input
  /-- Starts an operation under a new pid. -/
  | call (operation : Operation)
  /-- The awaited database call returns. -/
  | returned
  /-- The awaited database call raises. -/
  | failed
  | docker (answer : docker_runtime.Answer)
  /-- `runtime_provider.stop` or `runtime_provider.delete` ends, or raises. -/
  | runtime (ok : Bool)
  /-- `list_managed` returns, or raises. -/
  | listed (runtimes : Option (List RuntimeInfo))
  | agent (move : AgentMove)
  /-- `broker.publish` ends, or raises. -/
  | published (ok : Bool)
  /-- Not the task goes on but the worker that its agent has left behind. -/
  | drain (move : DrainMove)
  /-- The process of the task dies. -/
  | killed

/-- One step of the system: the task that resumes, with the readings of
`datetime.now` and `uuid.uuid4` it sees. -/
structure Label where
  pid : Pid
  input : Input
  now : Time := 0
  uuid : Uuid := 0

/-- What a resumed task does to the shared state before its next await. An
awaited commit that a unique constraint refuses goes on at `conflict`. -/
inductive Action
  | proceed (next : Task)
  | lock_session (session_id : SessionId) (next : Task)
  | lock_run (run_id : RunId) (next : Task)
  | lock_runs (run_ids : List RunId) (next : Task)
  | take_event_id (next : Task)
  | commit (tx : Transaction) (next conflict : Task)
  | call_agent (run_id : RunId) (next : Task)
  | leave_drain (session_id : SessionId) (run_id : RunId) (next : Task)
  | see_healthy (session_id : SessionId) (next : Task)

/-- Where an action other than a commit leads. -/
def Action.goes : Action → Option Task
  | commit .. => none
  | proceed next | lock_session _ next | lock_run _ next | lock_runs _ next | take_event_id next
  | call_agent _ next | leave_drain _ _ next | see_healthy _ next => some next

/-- Where a worker that an agent has left behind stands: it waits for the next event
of its queue, or for the commit of one, or an append has raised. -/
inductive Drain
  | get (session_id : SessionId) (run_id : RunId)
  | commit (session_id : SessionId) (run_id : RunId) (event_id : EventId) (event_type : AgentEventType)
      (payload : Payload)
  | raised

/-- The run whose sink the worker emits to, until an append raises. -/
def Drain.run_id : Drain → Option RunId
  | get _ run_id | commit _ run_id .. => some run_id
  | raised => none

/-- The session whose events the worker writes, until an append raises. -/
def Drain.session_id : Drain → Option SessionId
  | get session_id _ | commit session_id .. => some session_id
  | raised => none

/-- The committed database, its row locks, the suspended tasks, the workers that
agents have left behind, and the history of what the tasks did outside: the calls of
`agent_runner.run`, and the sessions whose `DockerRuntimeProvider.create` has seen
its container healthy. -/
structure World where
  db : Database
  session_locks : RowLocks SessionId Pid
  run_locks : RowLocks RunId Pid
  tasks : Table Pid Task
  drains : Table Pid Drain
  agent_calls : List (Pid × RunId)
  healthy_seen : List SessionId

namespace World

def empty : World :=
  { db := .empty, session_locks := .empty, run_locks := .empty, tasks := .empty,
    drains := .empty, agent_calls := [], healthy_seen := [] }

/-- The end of a transaction of `p`: its row locks are given back. -/
@[simps] def release (w : World) (p : Pid) : World :=
  { w with session_locks := w.session_locks.release p, run_locks := w.run_locks.release p }

@[simps] def suspend (w : World) (p : Pid) (task : Task) : World :=
  { w with tasks := w.tasks.modify p fun _ => task }

/-- Suspends `p` in its next await. A call that is over closes its database
session, which rolls an open transaction back. -/
def resume (w : World) (p : Pid) (task : Task) : World :=
  if task.ended then (w.suspend p task).release p else w.suspend p task

@[simps] def with_db (w : World) (db : Database) : World := { w with db := db }

@[simps] def lock_session (w : World) (p : Pid) (session_id : SessionId) : World :=
  { w with session_locks := w.session_locks.acquire p session_id }

@[simps] def lock_runs (w : World) (p : Pid) (run_ids : List RunId) : World :=
  { w with run_locks := w.run_locks.acquireAll p run_ids }

@[simps] def add_agent_call (w : World) (p : Pid) (run_id : RunId) : World :=
  { w with agent_calls := w.agent_calls ++ [(p, run_id)] }

@[simps] def leave_drain (w : World) (p : Pid) (session_id : SessionId) (run_id : RunId) : World :=
  { w with drains := w.drains.assign p (.get session_id run_id) }

@[simps] def add_healthy (w : World) (session_id : SessionId) : World :=
  { w with healthy_seen := session_id :: w.healthy_seen }

/-- The commit of a transaction of `p`, which goes on at `next`. -/
def commit (w : World) (p : Pid) (tx : Transaction) (next : Task) : World :=
  ((w.with_db (w.db.apply tx)).release p).resume p next

/-- No row the transaction updates is locked by another one. -/
def writable (w : World) (p : Pid) (tx : Transaction) : Bool :=
  (w.db.sessions.keys.all fun id =>
    (tx.update_session id).isNone || w.session_locks.free p id) &&
  w.db.runs.keys.all fun id => (tx.update_run id).isNone || w.run_locks.free p id

/-- Carries an action out. An UPDATE or a locking SELECT waits for the locks of
its rows: it is not enabled while another transaction holds one. The writes of
a transaction become visible at its commit. -/
def perform (w : World) (p : Pid) : Action → Option World
  | .proceed next => some (w.resume p next)
  | .lock_session session_id next =>
    if w.session_locks.free p session_id then some ((w.lock_session p session_id).resume p next)
    else none
  | .lock_run run_id next =>
    if w.run_locks.free p run_id then some ((w.lock_runs p [run_id]).resume p next) else none
  | .lock_runs run_ids next =>
    if run_ids.all (w.run_locks.free p) then some ((w.lock_runs p run_ids).resume p next) else none
  | .take_event_id next =>
    some ((w.with_db { w.db with next_event_id := w.db.next_event_id + 1 }).resume p next)
  | .commit tx next conflict =>
    if w.writable p tx then
      if w.db.conflict tx then some ((w.release p).resume p conflict)
      else some (w.commit p tx next)
    else none
  | .call_agent run_id next => some ((w.add_agent_call p run_id).resume p next)
  | .leave_drain session_id run_id next => some ((w.leave_drain p session_id run_id).resume p next)
  | .see_healthy session_id next => some ((w.add_healthy session_id).resume p next)

/-- One step of the worker that the agent of `p` has left behind. Its events get
their ids and become visible as those of `EventService.append` do; nothing else of
the database changes. -/
def drain (w : World) (p : Pid) (move : DrainMove) : Option World :=
  match w.drains.get? p, move with
  | some (.get session_id run_id), .emit event_type payload => some { w with
      db := { w.db with next_event_id := w.db.next_event_id + 1 }
      drains := w.drains.modify p fun _ => .commit session_id run_id w.db.next_event_id event_type payload }
  | some (.commit session_id run_id event_id event_type payload), .returned => some { w with
      db := { w.db with events := w.db.events ++ [⟨event_id, session_id, some run_id, event_type, payload⟩] }
      drains := w.drains.modify p fun _ => .get session_id run_id }
  | some (.commit ..), .failed => some { w with drains := w.drains.modify p fun _ => .raised }
  | _, _ => none

/-- A worker that is left behind writes nothing but events of its agent. -/
structure Drained (w w' : World) : Prop where
  events : w'.db.events = w.db.events ∨ ∃ event, w'.db.events = w.db.events ++ [event] ∧
    event.event_type.agent = true ∧ ∃ p drain, w.drains.get? p = some drain ∧ event.run_id = drain.run_id ∧
      drain.run_id.isSome
  drains : ∀ p drain', w'.drains.get? p = some drain' → ∃ drain, w.drains.get? p = some drain ∧
    (drain'.run_id = drain.run_id ∨ drain'.run_id = none)
  sessions : w'.db.sessions = w.db.sessions
  runs : w'.db.runs = w.db.runs
  messages : w'.db.messages = w.db.messages
  session_locks : w'.session_locks = w.session_locks
  run_locks : w'.run_locks = w.run_locks
  tasks : w'.tasks = w.tasks
  agent_calls : w'.agent_calls = w.agent_calls
  healthy_seen : w'.healthy_seen = w.healthy_seen

/-- Every step of a worker that is left behind, and so every append of it, is `Drained`:
an event of its agent at most, and no row, lock or task of anybody. -/
theorem Drained.of_drain {w w' : World} {p : Pid} {move : DrainMove} (h : w.drain p move = some w') :
    Drained w w' := by
  have hmodify {drain : Drain} {next : Drain} (hdrain : w.drains.get? p = some drain)
      (hrun : next.run_id = drain.run_id ∨ next.run_id = none) (q : Pid) (drain' : Drain)
      (hnext : (w.drains.modify p fun _ => next).get? q = some drain') :
      ∃ drain, w.drains.get? q = some drain ∧ (drain'.run_id = drain.run_id ∨ drain'.run_id = none) := by
    by_cases hq : q = p
    · subst hq
      rw [Table.get?_modify_self, hdrain, Option.map_some, Option.some.injEq] at hnext
      exact ⟨drain, hdrain, hnext ▸ hrun⟩
    · rw [Table.get?_modify_of_ne _ _ hq] at hnext
      exact ⟨drain', hnext, .inl rfl⟩
  unfold drain at h
  split at h <;> cases h
  · rename_i hdrain
    exact ⟨.inl rfl, hmodify hdrain (.inl rfl), rfl, rfl, rfl, rfl, rfl, rfl, rfl, rfl⟩
  · rename_i event_type _ hdrain
    exact ⟨.inr ⟨_, rfl, event_type.property, p, _, hdrain, rfl, rfl⟩, hmodify hdrain (.inl rfl), rfl, rfl, rfl,
      rfl, rfl, rfl, rfl, rfl⟩
  · rename_i hdrain
    exact ⟨.inl rfl, hmodify hdrain (.inr rfl), rfl, rfl, rfl, rfl, rfl, rfl, rfl, rfl⟩

section Resume

variable (w : World) (p : Pid) (task : Task)

@[simp] theorem resume_db : (w.resume p task).db = w.db := by
  unfold resume
  split <;> rfl

@[simp] theorem resume_tasks : (w.resume p task).tasks = w.tasks.modify p fun _ => task := by
  unfold resume
  split <;> rfl

@[simp] theorem resume_drains : (w.resume p task).drains = w.drains := by
  unfold resume
  split <;> rfl

@[simp] theorem resume_agent_calls : (w.resume p task).agent_calls = w.agent_calls := by
  unfold resume
  split <;> rfl

@[simp] theorem resume_healthy_seen : (w.resume p task).healthy_seen = w.healthy_seen := by
  unfold resume
  split <;> rfl

/-- A call that goes on keeps its locks: it is only suspended at its next await. -/
theorem resume_of_not_ended (h : task.ended = false) : w.resume p task = w.suspend p task := by
  simp [resume, h]

@[simp] theorem commit_db (tx : Transaction) : (w.commit p tx task).db = w.db.apply tx := by
  simp [commit]

@[simp] theorem commit_tasks (tx : Transaction) :
    (w.commit p tx task).tasks = w.tasks.modify p fun _ => task := by
  simp [commit]

@[simp] theorem commit_drains (tx : Transaction) : (w.commit p tx task).drains = w.drains := by
  simp [commit]

@[simp] theorem commit_agent_calls (tx : Transaction) :
    (w.commit p tx task).agent_calls = w.agent_calls := by
  simp [commit]

@[simp] theorem commit_healthy_seen (tx : Transaction) :
    (w.commit p tx task).healthy_seen = w.healthy_seen := by
  simp [commit]

end Resume

end World

end session_manager
