import SessionManager.World.Calls
import SessionManager.World.Copies

open unit_of_work

namespace session_manager

open sessions run_executor runtime_reconciler

section Binds

-- `P` relates the id of a runtime to the session it belongs to.
variable (P : RuntimeId → SessionId → Prop)

/-- The runtime a copy of the session is bound to belongs to the session. -/
def AgentSession.Binds (session_id : SessionId) (session : AgentSession) : Prop :=
  ∀ runtime_id, session.runtime_id = some runtime_id → P runtime_id session_id

def docker_runtime.Create.Binds (session_id : SessionId) : Create → Prop
  | start container | wait container _ | logs container _ | remove container =>
    P container.id session_id
  | lock | find | run | get => True

def docker_runtime.Next.Binds (session_id : SessionId) : Next → Prop
  | await create => create.Binds P session_id
  | healthy runtime_id => P runtime_id session_id
  | raised => True

def sessions.CreateSession.Binds : CreateSession → Prop
  | insert id session | commit_failed id session | returned id session => session.Binds P id
  | runtime id session create => session.Binds P id ∧ create.Binds P id
  | commit_ready id session runtime_id => session.Binds P id ∧ P runtime_id id
  | refresh _ | raised _ => True

def sessions.CreateRun.Binds : CreateRun → Prop
  | lookup request session | flush request session _ | sequence request session _
  | commit request session _ _ _ => session.Binds P request.session_id
  | _ => True

def sessions.StopSession.Binds : StopSession → Prop
  | commit_stopping id session | stop id session | commit_failed id session | cancel id session _
  | commit_stopped id session _ _ | returned id session => session.Binds P id
  | _ => True

def sessions.DeleteSession.Binds : DeleteSession → Prop
  | delete id session | cancel id session _ | commit id session _ _ => session.Binds P id
  | _ => True

def run_executor.Site.Binds (session_id : SessionId) : Site → Prop
  | started session _ | emitted session _ _ | message session _ _ _ _ => session.Binds P session_id
  | completed => True
  | failed session _ _ => ∀ s, session = some s → s.Binds P session_id

def run_executor.Execute.Binds : Execute → Prop
  | append _ run site _ => site.Binds P run.session_id
  | agent _ run session | sequence _ run session _ => session.Binds P run.session_id
  | _ => True

def Database.Binds (db : Database) : Prop :=
  ∀ session_id session, db.sessions.get? session_id = some session → session.Binds P session_id

def runtime_reconciler.Listed (runtimes : List RuntimeInfo) : Prop :=
  ∀ runtime ∈ runtimes, P runtime.runtime_id runtime.session_id

def runtime_reconciler.Reconcile.Binds : Reconcile → Prop
  | select runtimes => Listed P runtimes
  | delete _ pass | commit pass => Listed P pass.runtimes ∧
      ∀ session_id session, pass.sessions.get? session_id = some session → session.Binds P session_id
  | _ => True

/-- Every runtime a task works with belongs to the session it works with it for. -/
def Task.Binds : Task → Prop
  | create_session task => task.Binds P
  | create_run task => task.Binds P
  | execute task => task.Binds P
  | stop_session task => task.Binds P
  | delete_session task => task.Binds P
  | reconcile task => task.Binds P
  | killed => True

/-- The containers Docker answers a task with belong to the session it looked
them up for, or that it reports. -/
def Task.Answered : Task → Input → Prop
  | create_session (.runtime id _ .find), .docker (.listed containers) =>
    ∀ container ∈ containers, P container.id id
  | create_session (.runtime id _ .run), .docker (.container container)
  | create_session (.runtime id _ .get), .docker (.container container) => P container.id id
  | reconcile .list, .listed (some runtimes) => Listed P runtimes
  | _, _ => True

end Binds

section Step

variable {P : RuntimeId → SessionId → Prop} {db : Database} {l : Label} {action : Action}
  {task next conflict : Task} {tx : Transaction} {session_id : SessionId} {session : AgentSession}

/-- What `get_session` reads is a row of the table, so its runtime belongs to the
session. -/
theorem Database.Binds.get_session (h : db.Binds P) (hget : db.get_session session_id = some session) :
    session.Binds P session_id :=
  h session_id session (Database.get_session_eq_some hget).1

/-- `create` works with containers Docker has answered with, by label or by name, and
goes on with the same ones: it never turns to a container of another session. -/
theorem docker_runtime.Create.resume_binds {create : Create} {answer : Answer} {next : Next}
    (h : create.Binds P session_id)
    (hlisted : ∀ containers, create = .find → answer = .listed containers →
      ∀ c ∈ containers, P c.id session_id)
    (hcontainer : ∀ container, create = .run ∨ create = .get → answer = .container container →
      P container.id session_id)
    (hresume : create.resume answer = some next) : next.Binds P session_id := by
  cases Create.resumed hresume with
  | locked | absent | conflict => trivial
  | stopped | running => exact hlisted _ rfl rfl _ List.mem_cons_self
  | started | healthy | poll | exited | gave_up | logged => exact h
  | created => exact hcontainer _ (.inl rfl) rfl
  | found => exact hcontainer _ (.inr rfl) rfl
  | unlisted | unstarted | left | logged_left | uncreated | unfound | removed => trivial

private theorem create_session_binds {call : CreateSession} (hdb : db.Binds P) (h : call.Binds P)
    (hanswered : (Task.create_session call).Answered P l.input)
    (hresume : call.resume db l = some action) (hgoes : action.goes = some next) : next.Binds P := by
  have hnext {id : SessionId} {session : AgentSession} {create : docker_runtime.Create}
      {answer : docker_runtime.Answer} {n : docker_runtime.Next} (hinput : l.input = .docker answer)
      (hanswered : (Task.create_session (.runtime id session create)).Answered P l.input)
      (hcreate : create.Binds P id) (hn : create.resume answer = some n) : n.Binds P id := by
    refine docker_runtime.Create.resume_binds hcreate ?_ ?_ hn
    · rintro containers rfl rfl
      simpa [Task.Answered, hinput] using hanswered
    · rintro container (rfl | rfl) rfl <;> simpa [Task.Answered, hinput] using hanswered
  cases CreateSession.resumes hresume with
  | insert | commit_failed | commit_ready => cases hgoes
  | docker hinput hn | healthy hinput hn =>
    cases hgoes
    exact ⟨h.1, hnext hinput hanswered h.2 hn⟩
  | docker_raised =>
    cases hgoes
    exact h.1
  | refresh _ hget =>
    cases hgoes
    exact hdb _ _ hget
  | missing | failed =>
    cases hgoes
    trivial

private theorem check_ready_binds {request : CreateRunRequest} {run_id : RunId}
    (h : session.Binds P request.session_id) : (check_ready request session run_id).Binds P := by
  unfold check_ready
  split
  · trivial
  · exact h

private theorem create_run_binds {call : CreateRun} (hdb : db.Binds P) (h : call.Binds P)
    (hresume : call.resume db l = some action) (hgoes : action.goes = some next) : next.Binds P := by
  cases CreateRun.resumes hresume with
  | select _ hget =>
    cases hgoes
    have hsession := hdb.get_session hget
    simp only [Task.Binds, selected]
    split
    · exact hsession
    · exact check_ready_binds hsession
  | lookup =>
    cases hgoes
    exact check_ready_binds h
  | flush | sequence =>
    cases hgoes
    exact h
  | commit => cases hgoes
  | missing | replay | refused | gone | refresh | failed =>
    cases hgoes
    trivial

private theorem after_append_binds {run_id : RunId} {run : AgentRun} {site : Site}
    (h : site.Binds P run.session_id) :
    (Task.execute (after_append run_id run site)).Binds P := by
  cases site <;> first | exact h | trivial

private theorem append_raised_binds {run_id : RunId} {run : AgentRun} {error : String} {site : Site}
    (h : site.Binds P run.session_id) : (append_raised run_id run error site).Binds P := by
  cases site <;> first | exact h | trivial

private theorem execute_binds {call : Execute} (hdb : db.Binds P) (h : call.Binds P)
    (hresume : call.resume db l = some action) (hgoes : action.goes = some next) : next.Binds P := by
  cases Execute.resumes hresume with
  | start _ hget | refresh_session _ hget =>
    cases hgoes
    exact hdb _ _ hget
  | flush | refresh | emit | sequence =>
    cases hgoes
    exact h
  | commit => cases hgoes
  | call_agent | publish =>
    cases hgoes
    refine after_append_binds ?_
    exact h
  | reload_session =>
    cases hgoes
    exact fun _ hget => hdb _ _ hget
  | append_failed =>
    cases hgoes
    refine append_raised_binds ?_
    exact h
  | _ =>
    cases hgoes
    trivial

private theorem stop_session_binds {call : StopSession} (hdb : db.Binds P) (h : call.Binds P)
    (hresume : call.resume db l = some action) (hgoes : action.goes = some next) : next.Binds P := by
  cases StopSession.resumes hresume with
  | get _ hget =>
    cases hgoes
    have hsession := hdb.get_session hget
    simp only [Task.Binds, stop_checked]
    split
    · exact hsession
    · split
      · trivial
      · exact hsession
  | stop | stop_raised | cancel =>
    cases hgoes
    exact h
  | refresh _ hget =>
    cases hgoes
    exact hdb _ _ hget
  | commit_stopping | commit_failed | commit_stopped => cases hgoes
  | missing | gone | failed =>
    cases hgoes
    trivial

private theorem delete_session_binds {call : DeleteSession} (hdb : db.Binds P) (h : call.Binds P)
    (hresume : call.resume db l = some action) (hgoes : action.goes = some next) : next.Binds P := by
  cases DeleteSession.resumes hresume with
  | get _ hget =>
    cases hgoes
    have hsession := hdb.get_session hget
    simp only [Task.Binds, delete_runtime]
    split <;> exact hsession
  | delete | cancel =>
    cases hgoes
    exact h
  | commit => cases hgoes
  | missing | delete_raised | failed =>
    cases hgoes
    trivial

private theorem next_deletion_binds {pending : List RuntimeInfo} {pass : Pass}
    (hruntimes : Listed P pass.runtimes)
    (hsessions : ∀ session_id session, pass.sessions.get? session_id = some session →
      session.Binds P session_id) : (next_deletion pending pass).Binds P := by
  unfold next_deletion
  split <;> exact ⟨hruntimes, hsessions⟩

private theorem reconcile_binds {call : Reconcile} (hdb : db.Binds P) (h : call.Binds P)
    (hanswered : (Task.reconcile call).Answered P l.input)
    (hresume : call.resume db l = some action) (hgoes : action.goes = some next) : next.Binds P := by
  cases Reconcile.resumes hresume with
  | @listed runtimes hinput =>
    cases hgoes
    have hlisted : Listed P runtimes := by simpa [Task.Answered, hinput] using hanswered
    exact hlisted
  | select =>
    cases hgoes
    exact next_deletion_binds h hdb
  | delete =>
    cases hgoes
    exact next_deletion_binds h.1 h.2
  | commit => cases hgoes
  | unlisted | failed =>
    cases hgoes
    trivial

/-- A task that goes on without a commit works with runtimes it had, read from the
database or was answered with. -/
theorem Task.Binds.of_quiet (hdb : db.Binds P) (h : task.Binds P)
    (hanswered : task.Answered P l.input) (hresume : task.resume db l = some action)
    (hgoes : action.goes = some next) : next.Binds P := by
  cases task with
  | create_session => exact create_session_binds hdb h hanswered hresume hgoes
  | create_run => exact create_run_binds hdb h hresume hgoes
  | execute => exact execute_binds hdb h hresume hgoes
  | stop_session => exact stop_session_binds hdb h hresume hgoes
  | delete_session => exact delete_session_binds hdb h hresume hgoes
  | reconcile => exact reconcile_binds hdb h hanswered hresume hgoes
  | killed => cases hresume

/-- A commit leaves its task with the runtimes it had, whether the commit is refused or
not. -/
theorem Task.Binds.of_commit (h : task.Binds P) (hcommit : Commit l task tx next conflict) :
    next.Binds P ∧ conflict.Binds P := by
  cases hcommit with
  | insert_session => exact ⟨⟨h, trivial⟩, trivial⟩
  | stopping =>
    refine ⟨?_, trivial⟩
    simp only [Task.Binds, stop_runtime]
    split <;> exact h
  | append run_id run site =>
    have hsession : (site.run run).session_id = run.session_id := (site.run_same run).1
    refine ⟨?_, append_raised_binds h⟩
    simp only [Task.Binds, Execute.Binds, hsession]
    exact h
  | create_failed | create_ready | create_run | stop_failed | stopped | deleted | reconcile =>
    exact ⟨trivial, trivial⟩

private theorem reconcile_session_binds {now : Time} {candidates : List RuntimeInfo}
    (hsession : session.Binds P session_id)
    (hcandidates : ∀ runtime ∈ candidates, P runtime.runtime_id session_id) :
    (reconcile_session now candidates session).2.Binds P session_id := by
  intro runtime_id hbound
  rcases reconcile_session_runtime_id now candidates session with hsame | ⟨selected, hmem, hselected⟩
  · exact hsession runtime_id (hsame.symm.trans hbound)
  · obtain rfl := Option.some.inj (hselected.symm.trans hbound)
    exact hcandidates selected hmem

private theorem binds_of_ite {c : Prop} [Decidable c] {x y : Loaded AgentSession}
    (h : (if c then some x else none) = some y) : c ∧ x = y := by
  simpa using h

private theorem site_session_binds {site : Site} {x : Loaded AgentSession}
    (h : site.Binds P session_id) (hcopy : site.session = some x) : x.current.Binds P session_id := by
  cases site with
  | started | message =>
    cases hcopy
    exact h
  | emitted | completed => cases hcopy
  | failed session =>
    obtain ⟨session, hsession, rfl⟩ := Option.map_eq_some_iff.mp hcopy
    exact h session hsession

/-- What a commit writes into the row of a session belongs to the session: the runtime
comes from the task's own copy. -/
theorem Commit.copy_binds (h : task.Binds P) (hcommit : Commit l task tx next conflict)
    {x : Loaded AgentSession} (hcopy : task.session_copy session_id = some x) :
    x.current.Binds P session_id := by
  cases hcommit with
  | insert_session => cases hcopy
  | create_ready id session runtime_id =>
    obtain ⟨rfl, rfl⟩ := binds_of_ite hcopy
    intro runtime_id' hbound
    obtain rfl := Option.some.inj hbound
    exact h.2
  | append run_id run site =>
    simp only [Task.session_copy, Option.ite_none_right_eq_some] at hcopy
    obtain ⟨rfl, hcopy⟩ := hcopy
    exact site_session_binds h hcopy
  | reconcile pass =>
    obtain ⟨session, hget, rfl⟩ := Option.map_eq_some_iff.mp hcopy
    refine reconcile_session_binds (h.2 session_id session hget) fun runtime hmem => ?_
    obtain ⟨hlisted, hsession⟩ := List.mem_filter.mp hmem
    obtain rfl : runtime.session_id = session_id := of_decide_eq_true hsession
    exact h.1 runtime hlisted
  | create_failed | create_run | stopping | stop_failed | stopped | deleted =>
    obtain ⟨rfl, rfl⟩ := binds_of_ite hcopy
    exact h

/-- A commit keeps every row bound to runtimes of its own session: what it writes comes
from the task, and the task was handed a runtime of that session. -/
theorem Database.Binds.apply (hdb : db.Binds P) (h : task.Binds P)
    (hcommit : Commit l task tx next conflict) : (db.apply tx).Binds P := by
  intro session_id row' hget
  rcases Database.apply_session_cases hget with ⟨row, hold, rfl⟩ | ⟨-, hinsert⟩
  · rw [hcommit.update_session_eq]
    cases hcopy : task.session_copy session_id with
    | none => exact hdb session_id row hold
    | some x =>
      rw [Option.bind_some, Loaded.update_getD]
      intro runtime_id hbound
      rw [AgentSession.write_runtime_id] at hbound
      rcases column_eq_or x.loaded.runtime_id x.current.runtime_id row.runtime_id with hnew | hsame
      · exact hcommit.copy_binds h hcopy runtime_id (hnew.symm.trans hbound)
      · exact hdb session_id row hold runtime_id (hsame.symm.trans hbound)
  · cases hcommit with
    | insert_session =>
      cases hinsert
      exact h
    | _ => cases hinsert

end Step

end session_manager
