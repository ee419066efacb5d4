import SessionManager.Guarantees.Guards
import SessionManager.Lifecycle.Sealing
import SessionManager.World.Schedule

open transition

namespace session_manager

open sessions run_executor lifecycle schedule

/-- The session was stopped, expired or deleted. -/
def Database.dead (db : Database) (session_id : SessionId) : Prop :=
  ∃ s ∈ db.sessions.get? session_id,
    s.status = .STOPPED ∨ s.status = .EXPIRED ∨ s.deleted_at.isSome = true

instance (db : Database) (session_id : SessionId) : Decidable (db.dead session_id) :=
  inferInstanceAs (Decidable (∃ s ∈ db.sessions.get? session_id, _))

/-- The task holds a CREATING copy of the session that it may make READY, or has
checked a run of it for the last time and is about to end it. -/
def Task.revives (session_id : SessionId) (task : Task) : Bool :=
  match task.view session_id with
  | .marker | .exec _ (.deciding _) => true
  | _ => false

/-- The runs that the task cancels when it stops, deletes or expires the
session. -/
def Task.ends (session_id : SessionId) (task : Task) : Option (List RunId) :=
  if task.expires session_id then some [] else task.closes session_id

/-- Closing a session also ends the runs it cancels, so a task that closes is one that
ends. -/
theorem Task.ends_of_closes {session_id : SessionId} {task : Task} {ids : List RunId}
    (h : task.closes session_id = some ids) : task.ends session_id = some ids := by
  suffices hexpires : task.expires session_id = false by simp [ends, hexpires, h]
  unfold closes at h
  split at h
  · rfl
  · rfl
  · split at h
    · rename_i hstopped
      simp [expires, hstopped]
    · cases h
  · cases h

namespace World

/-- Whoever stops, deletes or expires the session cancels all its active runs
with it, and does so while no other task is about to revive it. No executor of the
session fails in the database once its run is COMPLETED. -/
def sealing (session_id : SessionId) (w : World) (l : Label) : Prop :=
  (∀ task ∈ w.failing l, task.reports_on session_id = false) ∧
  ∀ task ∈ w.committing l, ∀ ids ∈ task.ends session_id,
    (∀ r ∈ w.db.active_runs session_id, r ∈ ids) ∧
    w.tasks.Forall fun _ other => other.revives session_id = false

instance (session_id : SessionId) (w : World) (l : Label) : Decidable (w.sealing session_id l) :=
  inferInstanceAs (Decidable (_ ∧ _))

variable {w w' : World} {l : Label} {session_id : SessionId}

/-- A session that is dead in the database is dead in its life cycle. -/
theorem dead_lifecycle (h : w.db.dead session_id) : (w.lifecycle session_id).dead := by
  obtain ⟨s, hget, hstatus⟩ := h
  have hsession := lifecycle_session hget
  rcases hstatus with hstopped | hexpired | hdeleted
  · exact .inl ⟨_, _, hsession, .inl hstopped⟩
  · exact .inr ⟨_, hexpired ▸ hsession⟩
  · exact .inl ⟨_, _, hsession, .inr hdeleted⟩

private theorem sealing.ends (h : w.sealing session_id l) {task : Task} (hcommits : w.Commits l task)
    {ids : List RunId} (hends : task.ends session_id = some ids) :
    Ends l.pid (w.lifecycle session_id) ids := by
  obtain ⟨hactive, hrevives⟩ := h.2 task (mem_committing hcommits) ids hends
  have hview {q : Pid} {v : View RunId} (hidle : v ≠ .idle)
      (hq : (w.lifecycle session_id).views q = v) :
      ∃ other : Task, other.revives session_id = false ∧ other.view session_id = v := by
    cases hother : w.tasks.get? q with
    | none => simp [lifecycle, hother, hidle.symm] at hq
    | some other =>
      rw [lifecycle_views hother] at hq
      exact ⟨other, hrevives q other hother, hq⟩
  constructor
  case active => exact fun r hr => hactive r (active_iff.mp hr)
  case unmarked =>
    intro q _ hq
    obtain ⟨other, hrevives, hmarker⟩ := hview (by simp) hq
    simp [Task.revives, hmarker] at hrevives
  case undecided =>
    intro q r loaded hq
    obtain ⟨other, hrevives, hdeciding⟩ := hview (by simp) hq
    simp [Task.revives, hdeciding] at hrevives

private theorem Final.step (hconsistent : w.Consistent) (h : Final (w.lifecycle session_id))
    (hguard : w.sealing session_id l) (hstep : w.step l = some w') :
    Final (w'.lifecycle session_id) ∧
      (Sealed (w.lifecycle session_id) → Sealed (w'.lifecycle session_id)) := by
  obtain ⟨kind, hmove, hdoes⟩ := hconsistent.step_moves hstep session_id
  refine ⟨h.move hmove ?_ ?_ ?_, fun hsealed => hsealed.move h.toExecutors hmove⟩
  · rintro rfl
    obtain ⟨r, hrelapse⟩ := hdoes
    exact not_relapses hguard.1 r hrelapse
  · rintro ids rfl
    obtain ⟨task, hcommits, hcloses⟩ := hdoes
    exact hguard.ends hcommits (Task.ends_of_closes hcloses)
  · rintro rfl
    obtain ⟨task, hcommits, hexpires⟩ := hdoes
    exact hguard.ends hcommits (if_pos hexpires)

/-- A session that is STOPPED, EXPIRED or deleted is never READY or RUNNING again,
as long as whoever ends a session leaves nobody behind who could revive it. -/
theorem dead_never_revived (hrun : Run World.step (sealing session_id) empty w)
    (hdead : w.db.dead session_id) (hlater : Run World.step (sealing session_id) w w')
    {s : AgentSession} (hget : w'.db.sessions.get? session_id = some s) :
    s.status ≠ .READY ∧ s.status ≠ .RUNNING := by
  have hkeep (w : World) (l : Label) (w' : World)
      (h : w.Consistent ∧ Final (w.lifecycle session_id)) (hguard : w.sealing session_id l)
      (hstep : w.step l = some w') : w'.Consistent ∧ Final (w'.lifecycle session_id) :=
    ⟨h.1.step hstep, (Final.step h.1 h.2 hguard hstep).1⟩
  have hfinal := hrun.invariant hkeep ⟨.empty, .initial⟩
  have hsealed : Sealed (w'.lifecycle session_id) := by
    refine (hlater.strengthen hkeep hfinal).invariant (I := fun w => Sealed (w.lifecycle session_id))
      ?_ (hfinal.2.dead (dead_lifecycle hdead))
    exact fun w _ _ h hguard hstep => (Final.step hguard.1.1 hguard.1.2 hguard.2 hstep).2 h
  have hsession := lifecycle_session hget
  constructor
  · intro hready
    exact hsealed.session_ne rfl _ (hready ▸ hsession)
  · intro hrunning
    exact hsealed.session_ne rfl _ (hrunning ▸ hsession)

/-- A session stopped while the agent works on its run, whose executor then finds
the run cancelled. -/
theorem dead_never_revived_stopped : ∃ w w' : World, ∃ s, w.db.dead 10 ∧
    w'.db.sessions.get? 10 = some s ∧ s.status ≠ .READY ∧ s.status ≠ .RUNNING := by
  obtain ⟨w, hrun, hdead, hlater⟩ : ∃ w, Run World.step (sealing 10) empty w ∧ w.db.dead 10 ∧
      (execIf (sealing 10) World.step (agent_returns 4) w).any (fun w' =>
        (w'.db.sessions.get? 10).isSome) = true :=
    Run.exists_of_execIf (creates 1 10 "c" ++ becomes_ready 1 ++ submits 3 10 20 30 ++
      locks 4 20 ++ starts 4 ++ stops 5 10 ++ stopped 5) _ (by decide +kernel)
  obtain ⟨w', hexec, hsome⟩ := Option.any_eq_true _ _ |>.mp hlater
  obtain ⟨s, hget⟩ := Option.isSome_iff_exists.mp hsome
  exact ⟨w, w', s, hdead, hget, dead_never_revived hrun hdead (.of_execIf hexec) hget⟩

/-- `delete_session` deletes a session whose container `create_session` still
waits for, and `create_session` makes it READY. -/
theorem deleted_session_ready : ∃ w w' : World,
    Run World.step (fun _ _ => True) empty w ∧ Run World.step (fun _ _ => True) w w' ∧
    w.db.dead 10 ∧ (w.db.sessions.get? 10).map AgentSession.status = some .STOPPED ∧
    (w'.db.sessions.get? 10).map AgentSession.status = some .READY := by
  obtain ⟨w, hrun, hdead, hstopped, hlater⟩ : ∃ w, Run World.step (fun _ _ => True) empty w ∧
      w.db.dead 10 ∧ (w.db.sessions.get? 10).map AgentSession.status = some .STOPPED ∧
      (exec World.step (becomes_ready 1) w).any (fun w' =>
        (w'.db.sessions.get? 10).map AgentSession.status = some .READY) = true :=
    Run.exists_of_exec (fun _ _ => trivial) (creates 1 10 "c" ++
      through 2 [.call (.delete_session 10), .returned, .returned, .returned]) _
      (by decide +kernel)
  obtain ⟨w', hexec, hready⟩ := Option.any_eq_true _ _ |>.mp hlater
  exact ⟨w, w', hrun, .of_exec (fun _ _ => trivial) hexec, hdead, hstopped, by simpa using hready⟩

end World

end session_manager
