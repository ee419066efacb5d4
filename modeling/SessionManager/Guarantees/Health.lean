import SessionManager.Guarantees.Guards
import SessionManager.World.Calls
import SessionManager.World.Schedule

open transition

namespace session_manager

open sessions run_executor runtime_reconciler lifecycle schedule

/-- The task is a reconcile pass about to make the session READY because a
container of it is running. -/
def Task.promotes (session_id : SessionId) : Task → Bool
  | reconcile (.commit pass) => pass.outcome session_id = some (.CREATING, .READY)
  | _ => false

namespace World

/-- No reconcile pass makes the session READY while its container has not been
seen healthy. -/
def awaits_health (session_id : SessionId) (w : World) (l : Label) : Prop :=
  ∀ task ∈ w.committing l, task.promotes session_id = true → session_id ∈ w.healthy_seen

instance (session_id : SessionId) (w : World) (l : Label) :
    Decidable (w.awaits_health session_id l) :=
  inferInstanceAs (Decidable (∀ task ∈ w.committing l, _ → _))

/-- Task `p` is about to commit the session READY with the handle of its
container. -/
def has_handle (w : World) (p : Pid) (session_id : SessionId) : Prop :=
  ∃ session runtime_id,
    w.tasks.get? p = some (.create_session (.commit_ready session_id session runtime_id))

/-- A session that is READY, has a run or is about to be handed over had its
container seen healthy. -/
structure Vouched (session_id : SessionId) (w : World) : Prop where
  ready : ∀ deleted, (w.lifecycle session_id).session = some (.READY, deleted) →
    session_id ∈ w.healthy_seen
  worked : ∀ r st, (w.lifecycle session_id).runs r = some st → session_id ∈ w.healthy_seen
  handle : ∀ p, w.has_handle p session_id → session_id ∈ w.healthy_seen

/-- In an empty system there is nothing to vouch for. -/
theorem Vouched.empty {session_id : SessionId} : Vouched session_id World.empty where
  ready _ hsession := by cases hsession
  worked _ _ hrun := by cases hrun
  handle _ := by
    rintro ⟨_, _, htask⟩
    cases htask

section Step

variable {w w' : World} {l : Label} {session_id : SessionId}

/-- Nothing is forgotten of what was seen healthy; the set only grows. -/
theorem healthy_seen_step (hstep : w.step l = some w') (hseen : session_id ∈ w.healthy_seen) :
    session_id ∈ w'.healthy_seen := by
  cases stepped hstep with
  | called => exact hseen
  | killed | refused | committed => simpa using hseen
  | drained _ _ _ hdrained => exact hdrained.healthy_seen ▸ hseen
  | @quiet _ _ _ action _ _ hgoes hperform =>
    cases action with
    | commit => cases hgoes
    | lock_session | lock_run | lock_runs =>
      simp only [perform, Option.ite_none_right_eq_some, Option.some.injEq] at hperform
      obtain ⟨-, rfl⟩ := hperform
      simpa using hseen
    | proceed | take_event_id | call_agent | leave_drain =>
      cases hperform
      simpa using hseen
    | see_healthy =>
      cases hperform
      simp [hseen]

/-- `create_session` gets a handle only from a container it has seen healthy. -/
private theorem sees_healthy {task : Task} {action : Action} {session : AgentSession}
    {runtime_id : RuntimeId} (hresume : task.resume w.db l = some action)
    (hgoes : action.goes = some (.create_session (.commit_ready session_id session runtime_id))) :
    action = .see_healthy session_id
      (.create_session (.commit_ready session_id session runtime_id)) := by
  obtain ⟨call, rfl⟩ := Task.create_session_of_service (Task.service_of_resume hresume hgoes).symm
  cases CreateSession.resumes hresume <;> cases hgoes
  rfl

/-- A task gets the handle of a container only by seeing the container healthy;
otherwise it had the handle before the step. -/
theorem has_handle_step (hstep : w.step l = some w') {p : Pid} (h : w'.has_handle p session_id) :
    w.has_handle p session_id ∨ session_id ∈ w'.healthy_seen := by
  obtain ⟨session, runtime_id, htask⟩ := h
  by_cases hp : p = l.pid
  swap
  · exact .inl ⟨session, runtime_id, step_tasks_of_ne hstep hp ▸ htask⟩
  subst hp
  refine .inr ?_
  generalize hnext : Task.create_session (.commit_ready session_id session runtime_id) = next at htask
  cases step_next hstep htask with
  | @called operation => cases operation <;> cases hnext
  | killed | drained => cases hnext
  | quiet _ hresume hgoes hperform =>
    subst hnext
    cases sees_healthy hresume hgoes
    cases hperform
    simp
  | refused _ hcommit => cases hcommit <;> cases hnext
  | committed _ hcommit => cases hcommit <;> cases hnext

/-- The task of a step that makes the session READY holds its handle, or is a
reconcile pass. -/
private theorem handle_or_promotes {task : Task} (hcommits : w.Commits l task)
    (hmarks : task.marks session_id = true) :
    w.has_handle l.pid session_id ∨ task.promotes session_id = true := by
  unfold Task.marks at hmarks
  split at hmarks
  · rename_i session runtime_id
    obtain rfl : _ = session_id := by simpa using hmarks
    exact .inl ⟨session, runtime_id, hcommits.1⟩
  · exact .inr hmarks
  · cases hmarks

namespace Vouched

variable (h : Vouched session_id w)
include h

private theorem step_ready {kind : Kind RunId}
    (hmove : Move l.pid (w.lifecycle session_id) kind (w'.lifecycle session_id))
    (hmark : kind = .mark → session_id ∈ w.healthy_seen) {deleted : Bool}
    (hready : (w'.lifecycle session_id).session = some (.READY, deleted)) :
    session_id ∈ w.healthy_seen := by
  cases hmove.session_change with
  | same hsame => exact h.ready deleted (hsame.symm.trans hready)
  | inserted _ hnew => simp [hnew] at hready
  | marked hkind => exact hmark hkind
  | set hstatus hset =>
    rw [hset, State.set_eq_some_iff] at hready
    rcases hstatus with rfl | rfl <;> simp at hready
  | expired _ hset | started _ _ hset => simp [hset, State.set_eq_some_iff] at hready
  | closed _ hstatus hset =>
    rw [hset] at hready
    obtain ⟨x, hold, hx⟩ := Option.map_eq_some_iff.mp hready
    rcases hstatus with hstatus | ⟨-, hstatus⟩ <;> simp [hstatus] at hx
    exact h.ready x.2 (hold.trans (by rw [← hx.1]))
  | submitted hsubmits => simp [hsubmits.session] at hready
  | finished _ hold => exact h.worked _ _ hold

private theorem step_worked {kind : Kind RunId}
    (hmove : Move l.pid (w.lifecycle session_id) kind (w'.lifecycle session_id)) {r : RunId}
    {st : RunStatus} (hrun : (w'.lifecycle session_id).runs r = some st) :
    session_id ∈ w.healthy_seen := by
  cases hmove.run_change r with
  | same hsame => exact h.worked r st (hsame.symm.trans hrun)
  | submitted hsubmits => exact h.ready _ hsubmits.ready
  | cancelled _ _ hactive => exact h.worked r _ hactive.choose_spec.1
  | started _ hold | finished _ hold => exact h.worked r _ hold

/-- Every step that awaits the health check keeps the session vouched for. The session's
life cycle turns READY by a handle or by a pass, and both have seen the container. -/
theorem step (hconsistent : w.Consistent) (hguard : w.awaits_health session_id l)
    (hstep : w.step l = some w') : Vouched session_id w' := by
  obtain ⟨kind, hmove, hdoes⟩ := hconsistent.step_moves hstep session_id
  have hmark : kind = .mark → session_id ∈ w.healthy_seen := by
    rintro rfl
    obtain ⟨task, hcommits, hmarks⟩ := hdoes
    rcases handle_or_promotes hcommits hmarks with hhandle | hpromotes
    · exact h.handle _ hhandle
    · exact hguard task (mem_committing hcommits) hpromotes
  constructor
  case ready => exact fun deleted hready => healthy_seen_step hstep (h.step_ready hmove hmark hready)
  case worked => exact fun r st hrun => healthy_seen_step hstep (h.step_worked hmove hrun)
  case handle =>
    intro p hhandle
    rcases has_handle_step hstep hhandle with hold | hseen
    · exact healthy_seen_step hstep (h.handle p hold)
    · exact hseen

end Vouched

end Step

variable {w : World} {session_id : SessionId}

/-- A READY session had its container seen healthy, as long as no reconcile pass
makes it READY before. -/
theorem ready_seen_healthy (hrun : Run World.step (awaits_health session_id) empty w)
    {s : AgentSession} (hget : w.db.sessions.get? session_id = some s)
    (hready : s.status = .READY) : session_id ∈ w.healthy_seen := by
  have hvouched : w.Consistent ∧ Vouched session_id w := by
    refine hrun.invariant (I := fun w => w.Consistent ∧ Vouched session_id w) ?_ ⟨.empty, .empty⟩
    exact fun w _ _ h hguard hstep => ⟨h.1.step hstep, h.2.step h.1 hguard hstep⟩
  exact hvouched.2.ready _ (hready ▸ lifecycle_session hget)

/-- A session whose container passes its health check before the first reconcile
pass. -/
theorem ready_seen_healthy_created : ∃ w : World,
    w.db.sessions.keys = [10] ∧ 10 ∈ w.healthy_seen := by
  obtain ⟨w, hrun, hkeys, hready⟩ : ∃ w, Run World.step (awaits_health 10) empty w ∧
      w.db.sessions.keys = [10] ∧
      (w.db.sessions.get? 10).any (fun s => s.status = .READY) = true :=
    Run.exists_of_execIf (creates 1 10 "c" ++ becomes_ready 1 ++
      reconciles 2 [⟨"c", 10, "running", 1000⟩] 0 ++ through 2 [.returned]) _ (by decide +kernel)
  obtain ⟨s, hget, hstatus⟩ := Option.any_eq_true _ _ |>.mp hready
  exact ⟨w, hkeys, ready_seen_healthy hrun hget (by simpa using hstatus)⟩

/-- A reconcile pass makes the session READY because its container is running,
while `create_session` still waits for its health check. -/
theorem ready_unseen : ∃ w : World, Run World.step (fun _ _ => True) empty w ∧
    (w.db.sessions.get? 10).map AgentSession.status = some .READY ∧ w.healthy_seen = [] :=
  Run.exists_of_exec (fun _ _ => trivial) (creates 1 10 "c" ++
    reconciles 2 [⟨"c", 10, "running", 1000⟩] 0 ++ through 2 [.returned]) _ (by decide +kernel)

end World

end session_manager
