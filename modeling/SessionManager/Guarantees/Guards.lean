import SessionManager.Library.Transition
import SessionManager.Lifecycle.Exclusion
import SessionManager.World.Refinement

open transition

namespace session_manager

open sessions run_executor runtime_reconciler lifecycle

/-- The task executes a run of the session whose end it has not committed. -/
def Task.works_on (session_id : SessionId) (task : Task) : Bool :=
  match task.view session_id with
  | .exec _ ph => ph.working
  | _ => false

/-- The task has committed a run of the session COMPLETED, but its report is not
over. -/
def Task.reports_on (session_id : SessionId) (task : Task) : Bool :=
  match task.view session_id with
  | .exec _ ph => !ph.working
  | _ => false

namespace World

/-- The task whose commit returns in this step. -/
def committing (w : World) (l : Label) : Option Task :=
  match l.input with
  | .returned => w.tasks.get? l.pid
  | _ => none

/-- The task whose database call raises in this step. -/
def failing (w : World) (l : Label) : Option Task :=
  match l.input with
  | .failed => w.tasks.get? l.pid
  | _ => none

/-- The session has no active run, and nobody still executes one of its runs. -/
def unworked (w : World) (session_id : SessionId) : Prop :=
  w.db.active_runs session_id = [] ∧ w.tasks.Forall fun _ task => task.works_on session_id = false

instance (w : World) (session_id : SessionId) : Decidable (w.unworked session_id) :=
  inferInstanceAs (Decidable (_ ∧ _))

/-- The step does not make the session READY on an old CREATING copy while one
of its runs is live, and no executor of the session fails in the database once
its run is COMPLETED. -/
def undisturbed (session_id : SessionId) (w : World) (l : Label) : Prop :=
  (∀ task ∈ w.committing l, task.marks session_id = true → w.unworked session_id) ∧
  ∀ task ∈ w.failing l, task.reports_on session_id = false

instance (session_id : SessionId) (w : World) (l : Label) :
    Decidable (w.undisturbed session_id l) :=
  inferInstanceAs (Decidable (_ ∧ _))

variable {w w' : World} {l : Label} {session_id : SessionId} {task : Task}

/-- The task of a step that commits is the committing task of the step. -/
theorem mem_committing (h : w.Commits l task) : task ∈ w.committing l := by
  unfold committing
  rw [h.2]
  exact h.1

/-- The life cycle sees the active runs of the database, and no others. -/
theorem active_iff {r : RunId} :
    (w.lifecycle session_id).active r ↔ r ∈ w.db.active_runs session_id := by
  rw [Database.mem_active_runs]
  constructor
  · rintro ⟨st, hrun, hactive⟩
    obtain ⟨row, hget, hsession, rfl⟩ := lifecycle_runs_eq_some.mp hrun
    exact ⟨row, hget, hsession, hactive⟩
  · rintro ⟨row, hget, hsession, hactive⟩
    exact ⟨row.status, lifecycle_runs_eq_some.mpr ⟨row, hget, hsession, rfl⟩, hactive⟩

/-- A session that nobody works on has no live run: none is active in the database and
none is still being executed. -/
theorem not_live_of_unworked (h : w.unworked session_id) (r : RunId) :
    ¬ (w.lifecycle session_id).live r := by
  rintro (hactive | ⟨p, ph, hexec, hworking⟩)
  · simp [active_iff, h.1] at hactive
  · obtain ⟨task, run, htask, hwork, hsession⟩ := exec_of_lifecycle hexec
    have hview := (lifecycle_views htask).symm.trans hexec
    have hidle := h.2 p _ htask
    simp [Task.works_on, hview, hworking] at hidle

/-- Without a database failure in the report of a completed run, no run relapses. -/
theorem not_relapses (h : ∀ task ∈ w.failing l, task.reports_on session_id = false) (r : RunId) :
    ¬ w.Relapses l session_id r := by
  rintro ⟨hfailed, hexec⟩
  obtain ⟨task, run, htask, -⟩ := exec_of_lifecycle hexec
  have hview := (lifecycle_views htask).symm.trans hexec
  have hidle := h (.execute task) (by simpa [failing, hfailed] using htask)
  simp [Task.reports_on, hview, Phase.working] at hidle

/-- The moves an undisturbed step can make in the life cycle: never a relapse, and a
mark only when no run is live. -/
theorem undisturbed.kind (h : w.undisturbed session_id l) {kind : Kind RunId}
    (hdoes : w.Does l session_id kind) :
    kind ≠ .relapse ∧ (kind = .mark → ∀ r, ¬ (w.lifecycle session_id).live r) := by
  constructor
  · rintro rfl
    obtain ⟨r, hrelapse⟩ := hdoes
    exact not_relapses h.2 r hrelapse
  · rintro rfl
    obtain ⟨task, hcommits, hmarks⟩ := hdoes
    exact not_live_of_unworked (h.1 task (mem_committing hcommits) hmarks)

/-- Runs of a session stay apart in every undisturbed run of the system. The invariant
of the life cycle is carried over by the refinement. -/
theorem exclusive_of_run (hrun : Run World.step (undisturbed session_id) empty w) :
    w.Consistent ∧ Exclusive (w.lifecycle session_id) := by
  refine hrun.invariant (I := fun w => w.Consistent ∧ Exclusive (w.lifecycle session_id)) ?_
    ⟨.empty, .initial⟩
  rintro s l t ⟨hconsistent, hexclusive⟩ hguard hstep
  obtain ⟨kind, hmove, hdoes⟩ := hconsistent.step_moves hstep session_id
  obtain ⟨hrelapse, hmark⟩ := hguard.kind hdoes
  exact ⟨hconsistent.step hstep, hexclusive.move hmove hrelapse hmark⟩

end World

end session_manager
