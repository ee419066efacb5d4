import SessionManager.Library.Transition
import SessionManager.Runtime.Engine
import SessionManager.World.Schedule

namespace session_manager

open sessions runtime_reconciler docker

/-- The program together with the Docker engine it shares with everybody else,
and its calls of `issue_vnc_access`. -/
structure System where
  world : World
  engine : Engine
  desktops : Table Pid IssueVncAccess

/-- One step: the program goes on, a container is created or changes, or a call
of `issue_vnc_access` starts or goes on. -/
inductive Event
  | program (l : Label)
  | docker (change : Change)
  | open_desktop (p : Pid) (session_id : SessionId)
  | desktop (p : Pid) (answer : VncAnswer) (expires_at : Time)

/-- Docker finds containers by the labels and names they were created with: the
ones of a label filter carry the label, the one that `run` or `get` returns has
the name. A listing may show any of the labelled containers, in any state. -/
def docker.Engine.answers (engine : Engine) : Task → Input → Prop
  | .create_session (.runtime session_id _ .find), .docker (.listed containers) =>
    ∀ container ∈ containers, engine.labelled container.id session_id
  | .create_session (.runtime session_id _ .run), .docker (.container container)
  | .create_session (.runtime session_id _ .get), .docker (.container container) =>
    engine.named container.id (.session session_id)
  | .reconcile .list, .listed (some runtimes) =>
    ∀ runtime ∈ runtimes, engine.labelled runtime.runtime_id runtime.session_id
  | _, _ => True

instance (engine : Engine) (task : Task) (input : Input) : Decidable (engine.answers task input) := by
  unfold Engine.answers
  split <;> infer_instance

/-- A lookup by id finds the container of that id. -/
def sessions.IssueVncAccess.answered : IssueVncAccess → VncAnswer → Prop
  | .get_container _ runtime_id, .container (some container) => container.id = runtime_id
  | _, _ => True

instance (call : IssueVncAccess) (answer : VncAnswer) : Decidable (call.answered answer) := by
  unfold IssueVncAccess.answered
  split <;> infer_instance

namespace System

def empty : System := { world := .empty, engine := .empty, desktops := .empty }

def step (s : System) : Event → Option System
  | .program l =>
    if ∀ task ∈ s.world.tasks.get? l.pid, s.engine.answers task l.input then
      (s.world.step l).map fun world => { s with world := world }
    else none
  | .docker change => (s.engine.change change).map fun engine => { s with engine := engine }
  | .open_desktop p session_id =>
    if s.desktops.get? p = none then
      some { s with desktops := s.desktops.insert p (.get session_id) }
    else none
  | .desktop p answer expires_at =>
    (s.desktops.get? p).bind fun call =>
      if call.answered answer then
        (call.resume s.world.db expires_at answer).map fun next =>
          { s with desktops := s.desktops.modify p fun _ => next }
      else none

/-- What one step of the system does. -/
inductive Stepped (s : System) : Event → System → Prop
  | program {l : Label} {world : World}
      (hanswered : ∀ task, s.world.tasks.get? l.pid = some task → s.engine.answers task l.input)
      (hstep : s.world.step l = some world) : Stepped s (.program l) { s with world := world }
  | docker {change : Change} {engine : Engine} (hchange : s.engine.change change = some engine) :
      Stepped s (.docker change) { s with engine := engine }
  | open_desktop {p : Pid} {session_id : SessionId} (hfresh : s.desktops.get? p = none) :
      Stepped s (.open_desktop p session_id)
        { s with desktops := s.desktops.insert p (.get session_id) }
  | desktop {p : Pid} {answer : VncAnswer} {expires_at : Time} {call next : IssueVncAccess}
      (hcall : s.desktops.get? p = some call) (hanswered : call.answered answer)
      (hresume : call.resume s.world.db expires_at answer = some next) :
      Stepped s (.desktop p answer expires_at)
        { s with desktops := s.desktops.modify p fun _ => next }

/-- The inversion of `step`: a step of the system is one of the program, of the engine
or of a request for a desktop. -/
theorem stepped {s s' : System} {event : Event} (hstep : s.step event = some s') :
    Stepped s event s' := by
  cases event with
  | program l =>
    simp only [step, Option.ite_none_right_eq_some, Option.map_eq_some_iff] at hstep
    obtain ⟨hanswered, world, hworld, rfl⟩ := hstep
    exact .program hanswered hworld
  | docker change =>
    obtain ⟨engine, hchange, rfl⟩ := Option.map_eq_some_iff.mp hstep
    exact .docker hchange
  | open_desktop p session_id =>
    simp only [step, Option.ite_none_right_eq_some, Option.some.injEq] at hstep
    obtain ⟨hfresh, rfl⟩ := hstep
    exact .open_desktop hfresh
  | desktop p answer expires_at =>
    obtain ⟨call, hcall, hstep⟩ := Option.bind_eq_some_iff.mp hstep
    simp only [Option.ite_none_right_eq_some, Option.map_eq_some_iff] at hstep
    obtain ⟨hanswered, next, hresume, rfl⟩ := hstep
    exact .desktop hcall hanswered hresume

end System

namespace schedule

/-- `create_session` up to the call that runs its container. -/
def requests_container (p : Pid) (session_id : SessionId) : List Event :=
  ((creates p session_id "").take 4).map .program

/-- Docker creates the container of the session, which starts and gets healthy,
and `create_session` goes on to its commit of READY. -/
def boots (p : Pid) (session_id : SessionId) (runtime_id : RuntimeId) : List Event :=
  [.docker (.create runtime_id ⟨.session session_id, true, some session_id, "created", none, false⟩),
    .docker (.state runtime_id "running" (some "healthy")),
    .program { pid := p, input := .docker (.container ⟨runtime_id, "running"⟩) }] ++
  (becomes_ready p).map .program

end schedule

end session_manager
