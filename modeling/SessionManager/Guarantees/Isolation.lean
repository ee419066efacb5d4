import SessionManager.System.State
import SessionManager.World.Bindings
import SessionManager.World.Schedule

open transition

namespace session_manager

open sessions run_executor runtime_reconciler docker schedule

section Mono

variable {P Q : RuntimeId → SessionId → Prop} (hPQ : ∀ runtime_id session_id,
  P runtime_id session_id → Q runtime_id session_id)
include hPQ

private theorem AgentSession.Binds.mono {session_id : SessionId} {session : AgentSession}
    (h : session.Binds P session_id) : session.Binds Q session_id :=
  fun runtime_id hbound => hPQ runtime_id session_id (h runtime_id hbound)

private theorem listed_mono {runtimes : List RuntimeInfo} (h : Listed P runtimes) :
    Listed Q runtimes :=
  fun runtime hmem => hPQ _ _ (h runtime hmem)

private theorem Task.Binds.mono {task : Task} (h : task.Binds P) : task.Binds Q := by
  cases task with
  | create_session call =>
    cases call with
    | runtime id session create =>
      refine ⟨h.1.mono hPQ, ?_⟩
      have hcreate := h.2
      cases create <;> first | exact hPQ _ _ hcreate | trivial
    | commit_ready => exact ⟨h.1.mono hPQ, hPQ _ _ h.2⟩
    | insert | commit_failed | returned => exact AgentSession.Binds.mono hPQ h
    | refresh | raised => trivial
  | create_run call =>
    cases call with
    | lookup | flush | sequence | commit => exact AgentSession.Binds.mono hPQ h
    | select | refresh | returned | raised => trivial
  | execute call =>
    cases call with
    | append run_id run site stage =>
      cases site with
      | started | emitted | message => exact AgentSession.Binds.mono hPQ h
      | completed => trivial
      | failed => exact fun s hs => (h s hs).mono hPQ
    | agent | sequence => exact AgentSession.Binds.mono hPQ h
    | _ => trivial
  | stop_session call =>
    cases call with
    | get | refresh | raised => trivial
    | _ => exact AgentSession.Binds.mono hPQ h
  | delete_session call =>
    cases call with
    | get | returned | raised => trivial
    | _ => exact AgentSession.Binds.mono hPQ h
  | reconcile call =>
    cases call with
    | select => exact listed_mono hPQ h
    | delete | commit =>
      exact ⟨listed_mono hPQ h.1, fun session_id session hget =>
        (h.2 session_id session hget).mono hPQ⟩
    | list | returned | raised => trivial
  | killed => trivial

end Mono

/-- The container a call of `issue_vnc_access` works with belongs to its session. -/
def sessions.IssueVncAccess.Binds (P : RuntimeId → SessionId → Prop) : IssueVncAccess → Prop
  | get_container session_id runtime_id => P runtime_id session_id
  | reload session_id container => P container.id session_id
  | returned session_id access => P access.container_id session_id
  | get _ | raised _ => True

private theorem sessions.IssueVncAccess.Binds.mono {P Q : RuntimeId → SessionId → Prop}
    (hPQ : ∀ runtime_id session_id, P runtime_id session_id → Q runtime_id session_id)
    {call : IssueVncAccess} (h : call.Binds P) : call.Binds Q := by
  cases call with
  | get_container | reload | returned => exact hPQ _ _ h
  | get | raised => trivial

private theorem sessions.vnc_checked_binds {P : RuntimeId → SessionId → Prop} {session_id : SessionId}
    {session : AgentSession} (h : session.Binds P session_id) : (vnc_checked session_id session).Binds P := by
  unfold vnc_checked
  split
  · trivial
  · split
    · trivial
    · rename_i runtime_id hbound
      split
      · trivial
      · exact h runtime_id hbound

/-- The call takes the runtime from the row of its session, and keeps to the
container that Docker answers with. -/
theorem sessions.IssueVncAccess.Binds.resume {P : RuntimeId → SessionId → Prop} {db : Database}
    {expires_at : Time} {call next : IssueVncAccess} {answer : VncAnswer} (hdb : db.Binds P)
    (h : call.Binds P) (hanswered : call.answered answer)
    (hresume : call.resume db expires_at answer = some next) : next.Binds P := by
  cases call with
  | get session_id =>
    cases answer with
    | returned =>
      simp only [IssueVncAccess.resume] at hresume
      split at hresume <;> cases hresume
      · trivial
      · exact vnc_checked_binds (hdb.get_session ‹_›)
    | failed =>
      cases hresume
      trivial
    | _ => cases hresume
  | get_container session_id runtime_id =>
    cases answer with
    | container found =>
      cases found with
      | none =>
        cases hresume
        trivial
      | some container =>
        have hid : container.id = runtime_id := hanswered
        cases hresume
        simp only [Binds, hid]
        exact h
    | raised =>
      cases hresume
      trivial
    | _ => cases hresume
  | reload session_id container =>
    cases answer with
    | reloaded attrs =>
      simp only [IssueVncAccess.resume] at hresume
      split at hresume <;> cases hresume
      · trivial
      · rename_i access haccess
        simp only [Binds, docker_runtime.vnc_access_container haccess]
        exact h
    | raised =>
      cases hresume
      trivial
    | _ => cases hresume
  | returned | raised => cases hresume

namespace System

variable {s s' : System} {event : Event}

/-- Every runtime in the database, in a task or in an address of a desktop is a
container created with the label of the session it is used for. -/
structure Isolated (s : System) : Prop where
  named : s.engine.Named
  db : s.world.db.Binds s.engine.labelled
  tasks : ∀ p task, s.world.tasks.get? p = some task → task.Binds s.engine.labelled
  desktops : ∀ p call, s.desktops.get? p = some call → call.Binds s.engine.labelled

/-- Nothing is bound before the first step, and there is no container. -/
theorem Isolated.empty : Isolated System.empty where
  named := .empty
  db _ _ hget := by cases hget
  tasks _ _ htask := by cases htask
  desktops _ _ hcall := by cases hcall

namespace Isolated

/-- A container named after a session carries its label. -/
private theorem answered (hnamed : s.engine.Named) {task : Task} {input : Input}
    (h : s.engine.answers task input) : task.Answered s.engine.labelled input := by
  unfold Task.Answered
  split
  · exact h
  · exact hnamed _ _ h
  · exact hnamed _ _ h
  · exact h
  · trivial

variable (h : Isolated s)
include h

private theorem program {l : Label} {world : World}
    (hanswered : ∀ task, s.world.tasks.get? l.pid = some task → s.engine.answers task l.input)
    (hstep : s.world.step l = some world) :
    world.db.Binds s.engine.labelled ∧
      ∀ p task, world.tasks.get? p = some task → task.Binds s.engine.labelled := by
  constructor
  · cases World.stepped hstep with
    | called => exact h.db
    | killed | refused => simpa using h.db
    | drained _ _ _ hdrained =>
      unfold Database.Binds
      rw [hdrained.sessions]
      exact h.db
    | quiet _ _ hgoes hperform =>
      unfold Database.Binds
      rw [(World.perform_quiet_tables hgoes hperform).1]
      exact h.db
    | committed htask hcommit => simpa using h.db.apply (h.tasks _ _ htask) hcommit
  · intro p task htask
    by_cases hp : p = l.pid
    swap
    · exact h.tasks p task ((World.step_tasks_of_ne hstep hp).symm.trans htask)
    subst hp
    cases World.step_next hstep htask with
    | @called operation =>
      cases operation with
      | create_session => exact fun _ hbound => by cases hbound
      | create_run | execute | stop_session | delete_session | reconcile => trivial
    | killed => trivial
    | drained hold => exact h.tasks _ _ hold
    | quiet hold hresume hgoes =>
      have hanswer := answered h.named (hanswered _ hold)
      exact (h.tasks _ _ hold).of_quiet h.db hanswer hresume hgoes
    | refused hold hcommit => exact ((h.tasks _ _ hold).of_commit hcommit).2
    | committed hold hcommit => exact ((h.tasks _ _ hold).of_commit hcommit).1

/-- Every step of the program or of Docker keeps the runtimes apart, whoever takes it
and whatever Docker answers. -/
theorem step (hstep : s.step event = some s') : Isolated s' := by
  cases stepped hstep with
  | program hanswered hworld =>
    obtain ⟨hdb, htasks⟩ := h.program hanswered hworld
    exact ⟨h.named, hdb, htasks, h.desktops⟩
  | docker hchange =>
    have hkeep : ∀ runtime_id session_id, s.engine.labelled runtime_id session_id → _ :=
      fun _ _ => Engine.change_labelled hchange
    exact
      { named := h.named.change hchange
        db := fun session_id session hget => (h.db session_id session hget).mono hkeep
        tasks := fun p task htask => (h.tasks p task htask).mono hkeep
        desktops := fun p call hcall => (h.desktops p call hcall).mono hkeep }
  | @open_desktop p session_id hfresh =>
    refine ⟨h.named, h.db, h.tasks, fun q call hcall => ?_⟩
    rw [Table.get?_insert _ _ hfresh] at hcall
    split at hcall
    · cases hcall
      trivial
    · exact h.desktops q call hcall
  | @desktop p answer expires_at call next hcall hanswered hresume =>
    refine ⟨h.named, h.db, h.tasks, fun q call' hcall' => ?_⟩
    rw [Table.get?_modify] at hcall'
    split at hcall'
    · rename_i hq
      subst hq
      rw [hcall] at hcall'
      cases hcall'
      exact (h.desktops q call hcall).resume h.db hanswered hresume
    · exact h.desktops q call' hcall'

end Isolated

/-- Runtimes, sandboxes and desktops are apart in every state the system reaches. -/
theorem isolated_of_run (hrun : Run step (fun _ _ => True) empty s) : Isolated s :=
  hrun.invariant (fun _ _ _ h _ hstep => h.step hstep) .empty

/-- Every runtime_id is the id of a container created with the label of its
session, so no two sessions have the same one, and the sandbox an agent is handed
and the desktop an address leads to belong to the session. -/
theorem sessions_isolated (hrun : Run step (fun _ _ => True) empty s) :
    (∀ session_id session runtime_id, s.world.db.sessions.get? session_id = some session →
      session.runtime_id = some runtime_id → s.engine.labelled runtime_id session_id) ∧
    (∀ session_id session session_id' session' runtime_id,
      s.world.db.sessions.get? session_id = some session →
      s.world.db.sessions.get? session_id' = some session' →
      session.runtime_id = some runtime_id → session'.runtime_id = some runtime_id →
      session_id = session_id') ∧
    (∀ p run_id run session runtime_id,
      s.world.tasks.get? p = some (.execute (.agent run_id run session)) →
      session.runtime_id = some runtime_id → s.engine.labelled runtime_id run.session_id) ∧
    ∀ p session_id access, s.desktops.get? p = some (.returned session_id access) →
      s.engine.labelled access.container_id session_id := by
  have hisolated := isolated_of_run hrun
  refine ⟨fun session_id session runtime_id hget => hisolated.db session_id session hget runtime_id,
    ?_, ?_, ?_⟩
  · intro session_id session session_id' session' runtime_id hget hget' hbound hbound'
    exact Engine.labelled_unique (hisolated.db session_id session hget runtime_id hbound)
      (hisolated.db session_id' session' hget' runtime_id hbound')
  · intro p run_id run session runtime_id htask
    exact hisolated.tasks p _ htask runtime_id
  · intro p session_id access hcall
    exact hisolated.desktops p _ hcall

/-- A session with a running agent and an address of its desktop. -/
theorem sessions_isolated_desktop : ∃ (s : System) (session : AgentSession)
    (access : docker_runtime.VncAccess), s.world.db.sessions.get? 10 = some session ∧
    session.runtime_id = some "c" ∧ s.engine.labelled "c" 10 ∧
    s.desktops.get? 1 = some (.returned 10 access) ∧
    s.engine.labelled access.container_id 10 := by
  obtain ⟨s, hrun, ⟨session, hget, hbound⟩, hcall⟩ : ∃ s,
      Run step (fun _ _ => True) empty s ∧
      (∃ session ∈ s.world.db.sessions.get? 10, session.runtime_id = some "c") ∧
      s.desktops.get? 1 = some (.returned 10 ⟨"c", 6080, "key", 120⟩) :=
    Run.exists_of_exec (fun _ _ => trivial) (requests_container 1 10 ++ boots 1 10 "c" ++
      (submits 3 10 20 30 ++ locks 4 20 ++ starts 4).map .program ++
      [.open_desktop 1 10, .desktop 1 .returned 0, .desktop 1 (.container (some ⟨"c", "running"⟩)) 0,
        .desktop 1 (.reloaded ⟨"running", some "healthy", some "key", some 6080⟩) 120]) _
      (by decide +kernel)
  obtain ⟨hbindings, -, -, hdesktops⟩ := sessions_isolated hrun
  exact ⟨s, session, _, hget, hbound, hbindings 10 session "c" hget hbound, hcall,
    hdesktops 1 10 _ hcall⟩

end System

end session_manager
