import SessionManager.Guarantees.Guards
import SessionManager.World.Schedule

open transition

namespace session_manager

open sessions run_executor lifecycle schedule

/-- The call of `agent_runner.run` is in progress: the agent works, or awaits an
event it has handed to its sink. -/
def run_executor.Execute.drives (session_id : SessionId) : Execute → Bool
  | agent _ run _ | append _ run (.emitted ..) _ => run.session_id = session_id
  | _ => false

def Task.drives (session_id : SessionId) : Task → Bool
  | execute task => task.drives session_id
  | _ => false

/-- A task that drives the desktop of a session shows in the session's life cycle as the
executor of a running run. -/
theorem Task.view_of_drives {session_id : SessionId} {task : Task}
    (h : task.drives session_id = true) : ∃ run_id, task.view session_id = .exec run_id .running := by
  unfold Task.drives at h
  split at h
  · unfold Execute.drives at h
    split at h
    · exact ⟨_, if_pos (by simpa using h)⟩
    · exact ⟨_, if_pos (by simpa using h)⟩
    · cases h
  · cases h

namespace World

variable {w : World} {session_id : SessionId}

/-- Task `p` drives the desktop of the session through an agent. -/
def drives (w : World) (p : Pid) (session_id : SessionId) : Bool :=
  (w.tasks.get? p).any (Task.drives session_id)

/-- At most one agent drives the desktop of a session, unless the session is made
READY on old evidence while a run of it is live. -/
theorem one_agent (hrun : Run World.step (undisturbed session_id) empty w) {p q : Pid}
    (hp : w.drives p session_id = true) (hq : w.drives q session_id = true) : p = q := by
  obtain ⟨-, hexclusive⟩ := exclusive_of_run hrun
  have hview {p : Pid} (hp : w.drives p session_id = true) :
      ∃ run_id, (w.lifecycle session_id).views p = .exec run_id .running := by
    obtain ⟨task, htask, hdrives⟩ := Option.any_eq_true _ _ |>.mp hp
    rw [lifecycle_views htask]
    exact Task.view_of_drives hdrives
  obtain ⟨r, hr⟩ := hview hp
  obtain ⟨r', hr'⟩ := hview hq
  obtain rfl : r = r' :=
    hexclusive.one r r' (State.live_of_exec hr rfl) (State.live_of_exec hr' rfl)
  exact hexclusive.alone p q r _ _ hr hr'

/-- The agent of the second run of a session works once that of the first is
done. -/
theorem one_agent_of_second_run : ∃ w : World, w.drives 6 10 = true ∧
    ∀ p, w.drives p 10 = true → p = 6 := by
  obtain ⟨w, hrun, hw⟩ : ∃ w, Run World.step (undisturbed 10) empty w ∧ w.drives 6 10 = true :=
    Run.exists_of_execIf (creates 1 10 "c" ++ becomes_ready 1 ++ submits 3 10 20 30 ++
      locks 4 20 ++ starts 4 ++ agent_returns 4 ++ completes 4 40 ++ reports 4 ++
      submits 5 10 21 31 ++ locks 6 21 ++ starts 6) _ (by decide +kernel)
  exact ⟨w, hw, fun _ hp => one_agent hrun hp hw⟩

/-- A reconcile pass makes the session READY while `create_session` still waits
for its container. A run is started and cancelled by `stop_session`, and
`create_session` makes the session READY again while the agent still works. -/
theorem two_agents : ∃ w : World, Run World.step (fun _ _ => True) empty w ∧
    w.drives 4 10 = true ∧ w.drives 7 10 = true :=
  Run.exists_of_exec (fun _ _ => trivial) (creates 1 10 "c" ++
    reconciles 2 [⟨"c", 10, "running", 1000⟩] 0 ++ through 2 [.returned] ++
    submits 3 10 20 30 ++ locks 4 20 ++ starts 4 ++
    through 1 [.docker (.state (some "running") (some "healthy"))] ++
    stops 5 10 ++ stopped 5 ++ through 1 [.returned] ++
    submits 6 10 21 31 ++ locks 7 21 ++ starts 7) _ (by decide +kernel)

end World

end session_manager
