import SessionManager.World.Frame

open unit_of_work transition

namespace session_manager

open sessions run_executor runtime_reconciler

namespace World

/-- Task `q` holds the lock of some row. -/
def locking (w : World) (q : Pid) : Prop :=
  (∃ id, w.session_locks id = some q) ∨ ∃ id, w.run_locks id = some q

variable {w w' : World} {p q : Pid} {l : Label} {action : Action} {task : Task}

section Locks

variable {κ : Type} {locks : RowLocks κ Pid} {id : κ}

private theorem of_release (h : locks.release p id = some q) : locks id = some q ∧ q ≠ p := by
  unfold RowLocks.release at h
  split at h
  · cases h
  · rename_i hp
    exact ⟨h, fun hq => hp (hq ▸ h)⟩

private theorem of_acquireAll [DecidableEq κ] {ids : List κ} (hq : q ≠ p)
    (h : locks.acquireAll p ids id = some q) : locks id = some q := by
  unfold RowLocks.acquireAll at h
  split at h
  · cases h
    exact absurd rfl hq
  · exact h

private theorem of_acquire [DecidableEq κ] {k : κ} (hq : q ≠ p)
    (h : locks.acquire p k id = some q) : locks id = some q := by
  unfold RowLocks.acquire at h
  split at h
  · cases h
    exact absurd rfl hq
  · exact h

end Locks

private theorem locking_of_release (h : (w.release p).locking q) : w.locking q ∧ q ≠ p := by
  rcases h with ⟨id, h⟩ | ⟨id, h⟩
  · exact ⟨.inl ⟨id, (of_release h).1⟩, (of_release h).2⟩
  · exact ⟨.inr ⟨id, (of_release h).1⟩, (of_release h).2⟩

/-- A call that is over holds no lock. -/
private theorem locking_of_resume (h : (w.resume p task).locking q) :
    w.locking q ∧ (q = p → task.ended = false) := by
  unfold resume at h
  split at h
  · obtain ⟨hheld, hq⟩ := locking_of_release h
    exact ⟨hheld, fun hp => absurd hp hq⟩
  · rename_i hended
    exact ⟨h, fun _ => by simpa using hended⟩

/-- A task takes no lock for another one. -/
private theorem locking_of_perform (hq : q ≠ p) (hperform : w.perform p action = some w')
    (h : w'.locking q) : w.locking q := by
  cases action with
  | proceed | take_event_id | call_agent | leave_drain | see_healthy =>
    cases hperform
    exact (locking_of_resume h).1
  | lock_session =>
    simp only [perform, Option.ite_none_right_eq_some, Option.some.injEq] at hperform
    obtain ⟨-, rfl⟩ := hperform
    exact (locking_of_resume h).1.imp_left (.imp fun _ => of_acquire hq)
  | lock_run | lock_runs =>
    simp only [perform, Option.ite_none_right_eq_some, Option.some.injEq] at hperform
    obtain ⟨-, rfl⟩ := hperform
    exact (locking_of_resume h).1.imp_right (.imp fun _ => of_acquireAll hq)
  | commit =>
    rcases perform_commit hperform with ⟨-, rfl⟩ | ⟨-, -, rfl⟩ <;>
      exact (locking_of_release (locking_of_resume h).1).1

private theorem Drained.locking (h : Drained w w') (hheld : w'.locking q) : w.locking q := by
  unfold World.locking at hheld
  rwa [h.session_locks, h.run_locks] at hheld

/-- Locks are held by calls that are not over. -/
def Owned (w : World) : Prop :=
  ∀ q, w.locking q → ∃ task, w.tasks.get? q = some task ∧ task.ended = false

private theorem Owned.empty : Owned World.empty := by
  rintro q (⟨id, hheld⟩ | ⟨id, hheld⟩) <;> cases hheld

private theorem resume_owns (htask : w.tasks.get? p ≠ none) (h : (w.resume p task).locking p) :
    ∃ next, (w.resume p task).tasks.get? p = some next ∧ next.ended = false := by
  refine ⟨task, ?_, (locking_of_resume h).2 rfl⟩
  obtain ⟨old, hold⟩ := Option.ne_none_iff_exists'.mp htask
  simp [hold]

private theorem Owned.step (h : Owned w) (hstep : w.step l = some w') : Owned w' := by
  intro q hheld
  by_cases hq : q = l.pid
  · subst hq
    cases stepped hstep with
    | called _ hfresh =>
      obtain ⟨task, htask, -⟩ := h _ hheld
      simp [hfresh] at htask
    | killed htask => exact resume_owns (by simp [htask]) hheld
    | drained _ _ _ hdrained => exact hdrained.tasks ▸ h _ (hdrained.locking hheld)
    | quiet htask _ hgoes hperform =>
      obtain ⟨w₀, rfl, hquiet⟩ := perform_quiet hgoes hperform
      exact resume_owns (by simp [hquiet.tasks, htask]) hheld
    | refused htask => exact resume_owns (by simp [htask]) hheld
    | committed htask => exact resume_owns (by simp [htask]) hheld
  · rw [step_tasks_of_ne hstep hq]
    refine h q ?_
    rcases step_cases hstep with ⟨_, _, _, rfl⟩ | ⟨_, _, _, rfl⟩ | ⟨_, _, _, _, hdrain⟩ |
      ⟨_, action, _, _, hperform⟩
    · exact hheld
    · exact (locking_of_resume hheld).1
    · exact (Drained.of_drain hdrain).locking hheld
    · exact locking_of_perform hq hperform hheld

/-- Where every call is over, no row is locked. -/
private theorem not_locking {guard : World → Label → Prop} (hrun : Run World.step guard empty w)
    (hidle : ∀ p task, w.tasks.get? p = some task → task.ended = true) (q : Pid) :
    ¬ w.locking q := by
  intro hheld
  have howned : Owned w := hrun.invariant (fun _ _ _ h _ hstep => h.step hstep) .empty
  obtain ⟨task, htask, hended⟩ := howned q hheld
  simp [hidle q task htask] at hended

end World

/-- One call of `execute` while no other operation runs: the committed database
and the await the call is suspended in. -/
structure run_executor.Solo where
  db : Database
  task : Execute

namespace run_executor.Solo

/-- Carries an action out. Nobody else holds a lock that it would wait for. -/
def perform (s : Solo) : Action → Option Solo
  | .proceed (.execute next) | .lock_run _ (.execute next) | .call_agent _ (.execute next)
  | .leave_drain _ _ (.execute next) => some { s with task := next }
  | .take_event_id (.execute next) =>
    some ⟨{ s.db with next_event_id := s.db.next_event_id + 1 }, next⟩
  | .commit tx (.execute next) (.execute conflict) =>
    some (if s.db.conflict tx then ⟨s.db, conflict⟩ else ⟨s.db.apply tx, next⟩)
  | _ => none

def step (s : Solo) (l : Label) : Option Solo := (s.task.resume s.db l).bind s.perform

/-- Every action of an executor leads to another await of the executor. -/
private theorem perform_of_resume {s : Solo} {l : Label} {action : Action}
    (h : s.task.resume s.db l = some action) : ∃ s', s.perform action = some s' := by
  obtain ⟨db, task⟩ := s
  cases Execute.resumes h <;> exact ⟨_, rfl⟩

end run_executor.Solo

namespace World

variable {w w' : World} {p : Pid} {l : Label} {action : Action} {s s' : Solo}

private theorem step_of_task {task : Task} (htask : w.tasks.get? l.pid = some task) (hresumes : l.input.resumes = true) :
    w.step l = (task.resume w.db l).bind (w.perform l.pid) := by
  simp only [step, htask]
  split
  · rename_i hkilled
    simp [hkilled, Input.resumes] at hresumes
  · rename_i hdrain
    simp [hdrain, Input.resumes] at hresumes
  · rfl

/-- The world does with an action of the executor what the executor does alone. -/
private theorem perform_solo (htask : w.tasks.get? p = some (.execute s.task)) (hdb : w.db = s.db)
    (hsolo : s.perform action = some s') (hperform : w.perform p action = some w') :
    w'.db = s'.db ∧ w'.tasks.get? p = some (.execute s'.task) := by
  cases action with
  | proceed next | call_agent _ next | leave_drain _ _ next | take_event_id next =>
    cases next <;> cases hsolo
    cases hperform
    simp [hdb, htask]
  | lock_run run_id next =>
    cases next <;> cases hsolo
    simp only [perform, Option.ite_none_right_eq_some, Option.some.injEq] at hperform
    obtain ⟨-, rfl⟩ := hperform
    simp [hdb, htask]
  | commit tx next conflict =>
    obtain ⟨next, rfl⟩ : ∃ call, next = .execute call := by
      cases next <;> first | exact ⟨_, rfl⟩ | cases hsolo
    obtain ⟨conflict, rfl⟩ : ∃ call, conflict = .execute call := by
      cases conflict <;> first | exact ⟨_, rfl⟩ | cases hsolo
    simp only [Solo.perform, Option.some.injEq] at hsolo
    rcases perform_commit hperform with ⟨hconflict, rfl⟩ | ⟨-, hconflict, rfl⟩
    · rw [if_pos (hdb ▸ hconflict)] at hsolo
      cases hsolo
      simp [hdb, htask]
    · rw [if_neg (by simp [← hdb, hconflict])] at hsolo
      cases hsolo
      simp [hdb, htask]
  | lock_session | lock_runs | see_healthy => cases hsolo

/-- A step of an executor is a step of the executor alone: it reads nothing of the other
tasks but the locks they hold. -/
theorem solo_of_step {task : Execute} (htask : w.tasks.get? l.pid = some (.execute task))
    (hresumes : l.input.resumes = true) (hstep : w.step l = some w') :
    ∃ s, Solo.step ⟨w.db, task⟩ l = some s ∧ w'.db = s.db ∧
      w'.tasks.get? l.pid = some (.execute s.task) := by
  rw [step_of_task htask hresumes] at hstep
  obtain ⟨action, hresume, hperform⟩ := Option.bind_eq_some_iff.mp hstep
  obtain ⟨s, hsolo⟩ := Solo.perform_of_resume (s := ⟨w.db, task⟩) hresume
  exact ⟨s, Option.bind_eq_some_iff.mpr ⟨action, hresume, hsolo⟩,
    perform_solo (s := ⟨w.db, task⟩) htask rfl hsolo hperform⟩

/-- Task `p` is the executor `s`, and nobody else holds a lock. -/
structure Mirrors (p : Pid) (w : World) (s : Solo) : Prop where
  db : w.db = s.db
  task : w.tasks.get? p = some (.execute s.task)
  only : ∀ q, w.locking q → q = p

private theorem Mirrors.performs (h : w.Mirrors p s) (hsolo : s.perform action = some s') :
    ∃ w', w.perform p action = some w' := by
  have hsession (id : SessionId) : w.session_locks.free p id = true :=
    (RowLocks.free_iff ..).mpr fun q hheld => h.only q (.inl ⟨id, hheld⟩)
  have hrun (id : RunId) : w.run_locks.free p id = true :=
    (RowLocks.free_iff ..).mpr fun q hheld => h.only q (.inr ⟨id, hheld⟩)
  cases action with
  | lock_run => exact ⟨_, if_pos (hrun _)⟩
  | commit tx next conflict =>
    have hwritable : w.writable p tx = true := by simp [writable, hsession, hrun]
    simp only [perform, hwritable, if_true]
    split <;> exact ⟨_, rfl⟩
  | lock_session | lock_runs | see_healthy => cases hsolo
  | proceed | call_agent | leave_drain | take_event_id => exact ⟨_, rfl⟩

/-- While nobody else holds a lock, the world follows every step of the
executor. -/
private theorem Mirrors.step (h : w.Mirrors p s) (hpid : l.pid = p) (hresumes : l.input.resumes = true)
    (hstep : s.step l = some s') : ∃ w', w.step l = some w' ∧ w'.Mirrors p s' := by
  subst hpid
  obtain ⟨action, hresume, hsolo⟩ := Option.bind_eq_some_iff.mp hstep
  obtain ⟨w', hperform⟩ := h.performs hsolo
  obtain ⟨hdb, htask⟩ := perform_solo h.task h.db hsolo hperform
  refine ⟨w', ?_, hdb, htask, fun q hheld => ?_⟩
  · rw [step_of_task h.task hresumes, h.db]
    exact Option.bind_eq_some_iff.mpr ⟨action, hresume, hperform⟩
  · by_contra hq
    exact hq (h.only q (locking_of_perform hq hperform hheld))

/-- While nobody else holds a lock, the world follows the executor through a whole run
of it, step by step. -/
theorem Mirrors.exec (h : w.Mirrors p s) {ls : List Label}
    (hls : ∀ l ∈ ls, l.pid = p ∧ l.input.resumes = true) (hexec : exec Solo.step ls s = some s') :
    ∃ w', exec World.step ls w = some w' ∧ w'.Mirrors p s' := by
  refine exec_forward (R := Mirrors p) ?_ hls h hexec
  exact fun _ _ _ _ h hl hstep => h.step hl.1 hl.2 hstep

/-- Calling `execute` where every other call is over: nobody holds a lock then, so the
world mirrors the executor from its first await on. -/
theorem Mirrors.called {guard : World → Label → Prop} (hrun : Run World.step guard empty w)
    (hidle : ∀ p task, w.tasks.get? p = some task → task.ended = true)
    (hfresh : w.tasks.get? l.pid = none) {run_id : RunId} (hinput : l.input = .call (.execute run_id)) :
    ∃ w', w.step l = some w' ∧ w'.Mirrors l.pid ⟨w.db, .select run_id⟩ := by
  refine ⟨{ w with tasks := w.tasks.insert l.pid (.execute (.select run_id)) }, ?_, rfl, ?_, ?_⟩
  · simp [World.step, hfresh, hinput, spawn]
  · simp [Table.get?_insert _ _ hfresh]
  · exact fun q hheld => absurd hheld (not_locking hrun hidle q)

end World

end session_manager
