import Mathlib.Data.List.Perm.Basic
import SessionManager.Library.RowLocks
import SessionManager.Runtime.Docker
import SessionManager.Runtime.Engine

namespace session_manager.docker_runtime

open docker

/-- A suspended call of the provider. -/
inductive Await
  | create (session_id : SessionId) (create : Create)
  | stop (stop : Stop)
  | delete (delete : Delete)
deriving DecidableEq

/-- A call of the provider. A suspended one has its thread work on one request;
`made` is the container its `containers.run` has created, `answer` what the
thread has come back with. -/
inductive Call
  | suspended (await : Await) (made : Option RuntimeId) (answer : Option Answer)
  | created (session_id : SessionId) (runtime_id : RuntimeId)
  | returned
  | raised
deriving DecidableEq

inductive Request
  | create (session_id : SessionId)
  | stop (runtime_id : RuntimeId)
  | delete (runtime_id : RuntimeId)

def Request.start : Request → Await
  | .create session_id => .create session_id .lock
  | .stop runtime_id => .stop (.get runtime_id)
  | .delete runtime_id => .delete (.get runtime_id)

def Call.ended : Call → Bool
  | .suspended .. => false
  | _ => true

/-- What a call does with the answer to its await. -/
def Await.resume (made : Option RuntimeId) : Await → Answer → Option Call
  | .create session_id task, answer =>
    (task.resume answer).map fun
      | .await next => .suspended (.create session_id next) made none
      | .healthy runtime_id => .created session_id runtime_id
      | .raised => .raised
  | .stop task, answer =>
    (task.resume answer).map fun
      | .await next => .suspended (.stop next) made none
      | .returned => .returned
      | .raised => .raised
  | .delete task, answer =>
    (task.resume answer).map fun
      | .await next => .suspended (.delete next) made none
      | .returned => .returned
      | .raised => .raised

/-- The container that `containers.run` creates for a session. -/
def sandbox (session_id : SessionId) : docker.Container where
  name := .session session_id
  managed := true
  session_id := some session_id
  status := "created"

/-- The change that the request of an await asks for. `containers.run` creates
one container; whether it starts, and in which state a container is, is left to
the other changes. -/
def Await.asks (made : Option RuntimeId) : Await → Change → Prop
  | .create session_id .run, .create _ container => made = none ∧ container = sandbox session_id
  | .create _ (.remove container), .remove runtime_id | .delete (.remove container), .remove runtime_id =>
    runtime_id = container.id
  | _, _ => False

instance (made : Option RuntimeId) (await : Await) (change : Change) : Decidable (await.asks made change) := by
  unfold Await.asks
  split <;> infer_instance

/-- Only `containers.run` asks for a container, and it asks for the sandbox of its own
session. -/
theorem Await.asks_create {await : Await} {made : Option RuntimeId} {id : RuntimeId} {container : docker.Container}
    (hasks : await.asks made (.create id container)) :
    ∃ session_id, await = .create session_id .run ∧ made = none ∧ container = sandbox session_id := by
  cases await with
  | create session_id task =>
    cases task with
    | run => exact ⟨session_id, rfl, hasks⟩
    | _ => cases hasks
  | stop task | delete task => simp [Await.asks] at hasks

/-- What a call of `create` asks Docker to change: to run its container, or to remove
one it has found or made. -/
theorem Await.asks_cases {session_id : SessionId} {task : Create} {made : Option RuntimeId} {change : Change}
    (hasks : (Await.create session_id task).asks made change) :
    (task = .run ∧ made = none ∧ ∃ id, change = .create id (sandbox session_id)) ∨
      ∃ container, task = .remove container ∧ change = .remove container.id := by
  cases change with
  | create id container =>
    obtain ⟨_, heq, hmade, rfl⟩ := Await.asks_create hasks
    cases heq
    exact .inl ⟨rfl, hmade, id, rfl⟩
  | state => cases task <;> cases hasks
  | remove runtime_id =>
    cases task with
    | remove container =>
      obtain rfl : runtime_id = container.id := hasks
      exact .inr ⟨container, rfl, rfl⟩
    | lock | find | start | wait | logs | run | get => cases hasks

end docker_runtime

namespace docker

open docker_runtime

/-- `containers.list` with the labels of a session, removed containers aside. -/
def Engine.list (engine : Engine) (session_id : SessionId) : List docker_runtime.Container :=
  (engine.rows.filter fun row => row.2.managed && row.2.session_id = some session_id && !row.2.removed).map
    fun row => ⟨row.1, row.2.status⟩

/-- What a reload of a container reads. -/
def Engine.state (engine : Engine) (id : RuntimeId) : Option (Option String × Option String) :=
  ((engine.get? id).filter fun container => !container.removed).map fun container =>
    (some container.status, container.health)

/-- A new container has a new id. -/
def Engine.admits (engine : Engine) : Change → Prop
  | .create id _ => engine.get? id = none
  | _ => True

instance (engine : Engine) (change : Change) : Decidable (engine.admits change) := by
  cases change <;> unfold Engine.admits <;> infer_instance

/-- What others do. The labels and the names of this program's containers are
used by this program only. -/
def Change.foreign : Change → Bool
  | .create _ ⟨.other _, managed, _, _, _, _⟩ => !managed
  | .create .. => false
  | _ => true

end docker

namespace docker_runtime

open docker

/-- One provider with its locks, its calls and the Docker engine. -/
structure DockerRuntimeProvider where
  engine : Engine
  _create_locks : RowLocks SessionId Pid
  calls : Table Pid Call

/-- A step of the provider or of its surroundings: a call starts; the engine makes
a change that the request of a call asks for, or answers the request; a call goes
on with its answer; somebody else changes a container. -/
inductive Event
  | call (p : Pid) (request : Request)
  | docker (p : Pid) (change : Change)
  | answer (p : Pid) (answer : Answer)
  | resume (p : Pid)
  | outside (change : Change)

namespace DockerRuntimeProvider

/-- What an await can be answered with: a free lock; by Docker, with the
containers as they are at that moment, or at any moment with an error. -/
def answers (s : DockerRuntimeProvider) (p : Pid) (made : Option RuntimeId) : Await → Answer → Prop
  | .create session_id .lock, answer => answer = .done ∧ s._create_locks.free p session_id = true
  | _, .raised _ => True
  | .create session_id .find, .listed containers => containers.Perm (s.engine.list session_id)
  | .create _ (.start container), .done | .create _ (.logs container _), .done
  | .stop (.stop container), .done => s.engine.live container.id
  | .create _ (.wait container _), .state status health | .stop (.reload container), .state status health =>
    s.engine.state container.id = some (status, health)
  | .create _ (.wait ..), .deadline => True
  | .create _ .run, .container container => made = some container.id
  | .create session_id .get, .container container =>
    s.engine.live container.id ∧ s.engine.named container.id (.session session_id)
  | .stop (.get runtime_id), .container container | .delete (.get runtime_id), .container container =>
    container.id = runtime_id ∧ s.engine.live container.id
  | .create _ (.remove container), .done | .delete (.remove container), .done => ¬ s.engine.live container.id
  | _, _ => False

instance (s : DockerRuntimeProvider) (p : Pid) (made : Option RuntimeId) (await : Await) (answer : Answer) :
    Decidable (s.answers p made await answer) := by
  unfold answers
  split <;> infer_instance

/-- A call notes the container its request has created. -/
def notes (made : Option RuntimeId) : Change → Option RuntimeId
  | .create id _ => some id
  | _ => made

/-- The lock a call has waited for is its own. -/
def locks (s : DockerRuntimeProvider) (p : Pid) : Await → RowLocks SessionId Pid
  | .create session_id .lock => s._create_locks.acquire p session_id
  | _ => s._create_locks

def step (s : DockerRuntimeProvider) : Event → Option DockerRuntimeProvider
  | .call p request =>
    if s.calls.get? p = none then
      some { s with calls := s.calls.insert p (.suspended request.start none none) }
    else none
  | .docker p change =>
    match s.calls.get? p with
    | some (.suspended await made none) =>
      if await.asks made change ∧ s.engine.admits change then
        some { s with
          engine := s.engine.apply change
          calls := s.calls.modify p fun _ => .suspended await (notes made change) none }
      else none
    | _ => none
  | .answer p answer =>
    match s.calls.get? p with
    | some (.suspended await made none) =>
      if s.answers p made await answer then
        some { s with
          _create_locks := s.locks p await
          calls := s.calls.modify p fun _ => .suspended await made (some answer) }
      else none
    | _ => none
  | .resume p =>
    match s.calls.get? p with
    | some (.suspended await made (some answer)) =>
      (await.resume made answer).map fun call =>
        { s with
          _create_locks := if call.ended then s._create_locks.release p else s._create_locks
          calls := s.calls.modify p fun _ => call }
    | _ => none
  | .outside change =>
    if change.foreign = true ∧ s.engine.admits change then some { s with engine := s.engine.apply change }
    else none

/-- What one step does. -/
inductive Stepped (s : DockerRuntimeProvider) : Event → DockerRuntimeProvider → Prop
  | call {p : Pid} {request : Request} (hfresh : s.calls.get? p = none) :
      Stepped s (.call p request)
        { s with calls := s.calls.insert p (.suspended request.start none none) }
  | docker {p : Pid} {change : Change} {await : Await} {made : Option RuntimeId}
      (hcall : s.calls.get? p = some (.suspended await made none)) (hasks : await.asks made change)
      (hadmits : s.engine.admits change) :
      Stepped s (.docker p change)
        { s with
          engine := s.engine.apply change
          calls := s.calls.modify p fun _ => .suspended await (notes made change) none }
  | answer {p : Pid} {answer : Answer} {await : Await} {made : Option RuntimeId}
      (hcall : s.calls.get? p = some (.suspended await made none))
      (hanswers : s.answers p made await answer) :
      Stepped s (.answer p answer)
        { s with
          _create_locks := s.locks p await
          calls := s.calls.modify p fun _ => .suspended await made (some answer) }
  | resume {p : Pid} {answer : Answer} {await : Await} {made : Option RuntimeId} {call : Call}
      (hcall : s.calls.get? p = some (.suspended await made (some answer)))
      (hresume : await.resume made answer = some call) :
      Stepped s (.resume p)
        { s with
          _create_locks := if call.ended then s._create_locks.release p else s._create_locks
          calls := s.calls.modify p fun _ => call }
  | outside {change : Change} (hforeign : change.foreign = true) (hadmits : s.engine.admits change) :
      Stepped s (.outside change) { s with engine := s.engine.apply change }

/-- The inversion of `step`: an event of the provider is one of the cases of `Stepped`.
Invariants split these cases and never unfold the step. -/
theorem stepped {s s' : DockerRuntimeProvider} {event : Event} (hstep : s.step event = some s') :
    Stepped s event s' := by
  cases event with
  | call p request =>
    simp only [step, Option.ite_none_right_eq_some, Option.some.injEq] at hstep
    obtain ⟨hfresh, rfl⟩ := hstep
    exact .call hfresh
  | docker p change =>
    simp only [step] at hstep
    split at hstep
    · rename_i await made hcall
      simp only [Option.ite_none_right_eq_some, Option.some.injEq] at hstep
      obtain ⟨⟨hasks, hadmits⟩, rfl⟩ := hstep
      exact .docker hcall hasks hadmits
    · cases hstep
  | answer p answer =>
    simp only [step] at hstep
    split at hstep
    · rename_i await made hcall
      simp only [Option.ite_none_right_eq_some, Option.some.injEq] at hstep
      obtain ⟨hanswers, rfl⟩ := hstep
      exact .answer hcall hanswers
    · cases hstep
  | resume p =>
    simp only [step] at hstep
    split at hstep
    · rename_i await made answer hcall
      obtain ⟨call, hresume, rfl⟩ := Option.map_eq_some_iff.mp hstep
      exact .resume hcall hresume
    · cases hstep
  | outside change =>
    simp only [step, Option.ite_none_right_eq_some, Option.some.injEq] at hstep
    obtain ⟨⟨hforeign, hadmits⟩, rfl⟩ := hstep
    exact .outside hforeign hadmits

end DockerRuntimeProvider

end docker_runtime

end session_manager
