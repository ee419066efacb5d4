import SessionManager.Guarantees.Guards
import SessionManager.Lifecycle.Terminal
import SessionManager.World.Schedule

open transition

namespace session_manager

open sessions run_executor lifecycle schedule

/-- The task has checked the run for the last time and is about to end it. -/
def Task.decides (session_id : SessionId) (run_id : RunId) (task : Task) : Bool :=
  match task.view session_id with
  | .exec run_id' (.deciding _) => run_id' = run_id
  | _ => false

namespace World

/-- Nobody cancels a run of the session between the last check of its executor
and the commit that ends it, and no executor of the session fails in the
database once its run is COMPLETED. -/
def firm (session_id : SessionId) (w : World) (l : Label) : Prop :=
  (∀ task ∈ w.failing l, task.reports_on session_id = false) ∧
  ∀ task ∈ w.committing l, ∀ ids ∈ task.closes session_id, ∀ run_id ∈ ids,
    w.tasks.Forall fun _ other => other.decides session_id run_id = false

instance (session_id : SessionId) (w : World) (l : Label) : Decidable (w.firm session_id l) :=
  inferInstanceAs (Decidable (_ ∧ _))

variable {w w' : World} {l : Label} {session_id : SessionId}

private theorem Firm.step (hconsistent : w.Consistent) (h : Firm (w.lifecycle session_id))
    (hguard : w.firm session_id l) (hstep : w.step l = some w') :
    Firm (w'.lifecycle session_id) ∧ ∀ r st, (w.lifecycle session_id).runs r = some st →
      terminal st = true → (w'.lifecycle session_id).runs r = some st := by
  obtain ⟨kind, hmove, hdoes⟩ := hconsistent.step_moves hstep session_id
  refine ⟨h.move hmove ?_ ?_, fun _ _ => h.terminal_move hmove⟩
  · rintro rfl
    obtain ⟨r, hrelapse⟩ := hdoes
    exact not_relapses hguard.1 r hrelapse
  · rintro ids rfl r hr q loaded hview
    obtain ⟨task, hcommits, hcloses⟩ := hdoes
    obtain ⟨other, run, hother, -⟩ := exec_of_lifecycle hview
    have hdecides := hguard.2 task (mem_committing hcommits) ids hcloses r hr q _ hother
    rw [lifecycle_views hother] at hview
    simp [Task.decides, hview] at hdecides

/-- A run that is COMPLETED, FAILED or CANCELLED keeps its status, as long as
nobody cancels a run whose executor is past its last check, and no executor fails
in the database once its run is COMPLETED. -/
theorem final_status_kept (hrun : Run World.step (firm session_id) empty w)
    {run_id : RunId} {run : AgentRun} (hget : w.db.runs.get? run_id = some run)
    (hsession : run.session_id = session_id) (hterminal : terminal run.status = true)
    (hlater : Run World.step (firm session_id) w w') :
    ∃ run', w'.db.runs.get? run_id = some run' ∧ run'.status = run.status := by
  have hkeep (w : World) (l : Label) (w' : World)
      (h : w.Consistent ∧ Firm (w.lifecycle session_id)) (hguard : w.firm session_id l)
      (hstep : w.step l = some w') : w'.Consistent ∧ Firm (w'.lifecycle session_id) :=
    ⟨h.1.step hstep, (Firm.step h.1 h.2 hguard hstep).1⟩
  have hfirm := hrun.invariant hkeep ⟨.empty, .initial⟩
  have hkept : (w'.lifecycle session_id).runs run_id = some run.status := by
    refine (hlater.strengthen hkeep hfirm).invariant
      (I := fun w => (w.lifecycle session_id).runs run_id = some run.status) ?_
      (lifecycle_runs_eq_some.mpr ⟨run, hget, hsession, rfl⟩)
    exact fun w _ _ h hguard hstep =>
      (Firm.step hguard.1.1 hguard.1.2 hguard.2 hstep).2 run_id _ h hterminal
  obtain ⟨run', hget', -, hstatus⟩ := lifecycle_runs_eq_some.mp hkept
  exact ⟨run', hget', hstatus⟩

/-- A run cancelled while its agent works stays CANCELLED when the agent
answers. -/
theorem final_status_kept_cancelled : ∃ w' : World, ∃ run',
    w'.db.runs.get? 20 = some run' ∧ run'.status = .CANCELLED := by
  obtain ⟨w, hrun, hcancelled, hlater⟩ : ∃ w, Run World.step (firm 10) empty w ∧
      (w.db.runs.get? 20).any (fun run => run.session_id = 10 ∧ run.status = .CANCELLED) = true ∧
      (execIf (firm 10) World.step (agent_returns 4) w).isSome = true :=
    Run.exists_of_execIf (creates 1 10 "c" ++ becomes_ready 1 ++ submits 3 10 20 30 ++
      locks 4 20 ++ starts 4 ++ stops 5 10 ++ stopped 5) _ (by decide +kernel)
  obtain ⟨run, hget, hrow⟩ := Option.any_eq_true _ _ |>.mp hcancelled
  obtain ⟨hsession, hstatus⟩ : run.session_id = 10 ∧ run.status = .CANCELLED := by simpa using hrow
  obtain ⟨w', hexec⟩ := Option.isSome_iff_exists.mp hlater
  obtain ⟨run', hget', hkept⟩ :=
    final_status_kept hrun hget hsession (hstatus ▸ rfl) (.of_execIf hexec)
  exact ⟨w', run', hget', hkept.trans hstatus⟩

/-- `stop_session` cancels a run whose executor has already checked it, and the
executor commits it COMPLETED. -/
theorem cancelled_run_completed : ∃ w w' : World,
    Run World.step (fun _ _ => True) empty w ∧ Run World.step (fun _ _ => True) w w' ∧
    (w.db.runs.get? 20).map AgentRun.status = some .CANCELLED ∧
    (w'.db.runs.get? 20).map AgentRun.status = some .COMPLETED := by
  obtain ⟨w, hrun, hcancelled, hlater⟩ : ∃ w, Run World.step (fun _ _ => True) empty w ∧
      (w.db.runs.get? 20).map AgentRun.status = some .CANCELLED ∧
      (exec World.step (completes 4 40) w).any (fun w' =>
        (w'.db.runs.get? 20).map AgentRun.status = some .COMPLETED) = true :=
    Run.exists_of_exec (fun _ _ => trivial) (creates 1 10 "c" ++ becomes_ready 1 ++
      submits 3 10 20 30 ++ locks 4 20 ++ starts 4 ++ agent_returns 4 ++ stops 5 10 ++ stopped 5) _
      (by decide +kernel)
  obtain ⟨w', hexec, hcompleted⟩ := Option.any_eq_true _ _ |>.mp hlater
  exact ⟨w, w', hrun, .of_exec (fun _ _ => trivial) hexec, hcancelled, by simpa using hcompleted⟩

end World

end session_manager
