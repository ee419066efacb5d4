import SessionManager.World.Commits

open unit_of_work

namespace session_manager

open sessions run_executor runtime_reconciler

/-- A run never moves to another session and never loses its idempotency key. -/
def SameRun (row row' : AgentRun) : Prop :=
  row'.session_id = row.session_id ∧ row'.idempotency_key = row.idempotency_key

/-- A run that nobody has updated is the same run. -/
theorem SameRun.refl (row : AgentRun) : SameRun row row := ⟨rfl, rfl⟩

/-- Two updates in a row still leave the session and the key of a run alone, so a whole
history of updates does. -/
theorem SameRun.trans {a b c : AgentRun} (hab : SameRun a b) (hbc : SameRun b c) : SameRun a c :=
  ⟨hbc.1.trans hab.1, hbc.2.trans hab.2⟩

/-- The runs of `w` are still there, and what task `q` has locked is untouched
and still locked. -/
structure Kept (q : Pid) (w w' : World) : Prop where
  session : ∀ id row, w.session_locks id = some q → w.db.sessions.get? id = some row →
    w'.session_locks id = some q ∧ w'.db.sessions.get? id = some row
  run : ∀ id row, w.run_locks id = some q → w.db.runs.get? id = some row →
    w'.run_locks id = some q ∧ w'.db.runs.get? id = some row
  same : ∀ id row, w.db.runs.get? id = some row →
    ∃ row', w'.db.runs.get? id = some row' ∧ SameRun row row'

def Transaction.KeepsRuns (tx : Transaction) : Prop :=
  ∀ id f, tx.update_run id = some f → ∀ row, SameRun row (f row)

/-- What an executor writes to its run leaves the session and the key of the run alone.
No lemma about requests has to look at the sites one by one. -/
theorem run_executor.Site.run_same (site : Site) (run : AgentRun) : SameRun run (site.run run) := by
  cases site <;> exact ⟨rfl, rfl⟩

private theorem cancel_rows_keeps {cancelled : List RunId} {now : Time} {id : RunId}
    {f : AgentRun → AgentRun} (h : cancel_rows cancelled now id = some f) (row : AgentRun) :
    SameRun row (f row) := by
  unfold cancel_rows at h
  split at h
  · cases h
    exact ⟨rfl, rfl⟩
  · cases h

private theorem update_row_keeps {run_id id : RunId} {x : Loaded AgentRun}
    (hsame : SameRun x.loaded x.current) {f : AgentRun → AgentRun}
    (h : update_row run_id x id = some f) (row : AgentRun) : SameRun row (f row) := by
  unfold update_row Loaded.update at h
  split at h
  · split at h
    · cases h
      simp [SameRun, hsame.1, hsame.2]
    · cases h
  · cases h

/-- No commit of the program moves a run to another session or takes its key:
cancellations set a status and a time, executors a status. -/
theorem Commit.keepsRuns {l : Label} {task next conflict : Task} {tx : Transaction}
    (h : Commit l task tx next conflict) : tx.KeepsRuns := by
  intro id f hf
  cases h with
  | insert_session | create_failed | create_ready | create_run | reconcile => cases hf
  | stopping | stop_failed | stopped | deleted =>
    simp only [stop_transaction] at hf
    exact cancel_rows_keeps hf
  | append run_id run site => exact update_row_keeps (site.run_same run) hf

private theorem Kept.trans {q : Pid} {w₁ w₂ w₃ : World} (h₁₂ : Kept q w₁ w₂) (h₂₃ : Kept q w₂ w₃) :
    Kept q w₁ w₃ where
  session id row hlocked hget := by
    obtain ⟨hlocked, hget⟩ := h₁₂.session id row hlocked hget
    exact h₂₃.session id row hlocked hget
  run id row hlocked hget := by
    obtain ⟨hlocked, hget⟩ := h₁₂.run id row hlocked hget
    exact h₂₃.run id row hlocked hget
  same id row hget := by
    obtain ⟨row₂, hget₂, hsame₁₂⟩ := h₁₂.same id row hget
    obtain ⟨row₃, hget₃, hsame₂₃⟩ := h₂₃.same id row₂ hget₂
    exact ⟨row₃, hget₃, hsame₁₂.trans hsame₂₃⟩

private theorem Kept.of_tables_eq {q : Pid} {w w' : World} (hsessions : w'.db.sessions = w.db.sessions)
    (hruns : w'.db.runs = w.db.runs)
    (hsession_locks : ∀ id, w.session_locks id = some q → w'.session_locks id = some q)
    (hrun_locks : ∀ id, w.run_locks id = some q → w'.run_locks id = some q) : Kept q w w' where
  session _ _ hlocked hget := ⟨hsession_locks _ hlocked, hsessions ▸ hget⟩
  run _ _ hlocked hget := ⟨hrun_locks _ hlocked, hruns ▸ hget⟩
  same _ row hget := ⟨row, hruns ▸ hget, .refl row⟩

namespace World

variable {w w' : World} {p q : Pid}

private theorem session_update_none {tx : Transaction} (hq : q ≠ p)
    (hwritable : w.writable p tx = true) {id : SessionId} {row : AgentSession}
    (hlocked : w.session_locks id = some q) (hget : w.db.sessions.get? id = some row) :
    tx.update_session id = none := by
  simp only [writable, Bool.and_eq_true, List.all_eq_true] at hwritable
  have hid := hwritable.1 id ((w.db.sessions.mem_keys_iff).mpr ⟨row, hget⟩)
  rw [Bool.or_eq_true, Option.isNone_iff_eq_none] at hid
  exact hid.resolve_right fun hfree => hq (RowLocks.not_held_of_free hfree hlocked)

private theorem run_update_none {tx : Transaction} (hq : q ≠ p)
    (hwritable : w.writable p tx = true) {id : RunId} {row : AgentRun}
    (hlocked : w.run_locks id = some q) (hget : w.db.runs.get? id = some row) :
    tx.update_run id = none := by
  simp only [writable, Bool.and_eq_true, List.all_eq_true] at hwritable
  have hid := hwritable.2 id ((w.db.runs.mem_keys_iff).mpr ⟨row, hget⟩)
  rw [Bool.or_eq_true, Option.isNone_iff_eq_none] at hid
  exact hid.resolve_right fun hfree => hq (RowLocks.not_held_of_free hfree hlocked)

private theorem commit_kept {tx : Transaction} (hq : q ≠ p) (hkeeps : tx.KeepsRuns)
    (hwritable : w.writable p tx = true) :
    Kept q w ((w.with_db (w.db.apply tx)).release p) where
  session id row hlocked hget := by
    refine ⟨RowLocks.release_of_held hlocked hq, ?_⟩
    simp [Database.apply_session_of_some hget, session_update_none hq hwritable hlocked hget]
  run id row hlocked hget := by
    refine ⟨RowLocks.release_of_held hlocked hq, ?_⟩
    simp [Database.apply_run_of_some hget, run_update_none hq hwritable hlocked hget]
  same id row hget := by
    refine ⟨_, Database.apply_run_of_some hget, ?_⟩
    cases hupdate : tx.update_run id with
    | none => exact .refl row
    | some f => exact hkeeps id f hupdate row

private theorem release_kept (hq : q ≠ p) (w : World) : Kept q w (w.release p) :=
  .of_tables_eq rfl rfl (fun _ h => RowLocks.release_of_held h hq)
    fun _ h => RowLocks.release_of_held h hq

private theorem resume_kept (hq : q ≠ p) (w : World) (task : Task) : Kept q w (w.resume p task) := by
  unfold resume
  split
  · exact .of_tables_eq rfl rfl (fun _ h => RowLocks.release_of_held h hq)
      fun _ h => RowLocks.release_of_held h hq
  · exact .of_tables_eq rfl rfl (fun _ h => h) fun _ h => h

section Quiet

variable {action : Action} {next : Task}

/-- Up to its next await a task has taken an event id at most, and locks that nobody
held. -/
structure Quiet (w w' : World) : Prop where
  tasks : w'.tasks = w.tasks
  db : ∃ id, w.db.next_event_id ≤ id ∧ w'.db = { w.db with next_event_id := id }
  kept : ∀ q, Kept q w w'

private theorem Quiet.of_same (htasks : w'.tasks = w.tasks) (hdb : w'.db = w.db)
    (hsession_locks : ∀ q id, w.session_locks id = some q → w'.session_locks id = some q)
    (hrun_locks : ∀ q id, w.run_locks id = some q → w'.run_locks id = some q) : Quiet w w' where
  tasks := htasks
  db := ⟨w.db.next_event_id, Nat.le_refl _, hdb⟩
  kept q := .of_tables_eq (by rw [hdb]) (by rw [hdb]) (hsession_locks q) (hrun_locks q)

/-- An action other than a commit leads to its next task through a world that differs
only in locks, in an event id taken, or in what has been done outside. -/
theorem perform_quiet (hgoes : action.goes = some next) (hperform : w.perform p action = some w') :
    ∃ w₀, w' = w₀.resume p next ∧ Quiet w w₀ := by
  cases action with
  | commit => cases hgoes
  | lock_session id =>
    simp only [perform, Option.ite_none_right_eq_some, Option.some.injEq] at hperform
    obtain ⟨hfree, rfl⟩ := hperform
    cases hgoes
    exact ⟨_, rfl, .of_same rfl rfl (fun _ _ h => RowLocks.acquire_of_held hfree h) fun _ _ h => h⟩
  | lock_run | lock_runs =>
    simp only [perform, Option.ite_none_right_eq_some, Option.some.injEq] at hperform
    obtain ⟨hfree, rfl⟩ := hperform
    cases hgoes
    refine ⟨_, rfl, .of_same rfl rfl (fun _ _ h => h) fun _ _ h => ?_⟩
    exact RowLocks.acquireAll_of_held (by simpa using hfree) h
  | take_event_id =>
    cases hgoes
    cases hperform
    exact ⟨_, rfl, rfl, ⟨_, Nat.le_succ _, rfl⟩, fun q => .of_tables_eq rfl rfl (fun _ h => h) fun _ h => h⟩
  | proceed | call_agent | leave_drain | see_healthy =>
    cases hgoes
    cases hperform
    exact ⟨_, rfl, .of_same rfl rfl (fun _ _ h => h) fun _ _ h => h⟩

/-- An action other than a commit changes none of the tables that the life cycle reads.
Only the task's own view can move in such a step. -/
theorem perform_quiet_tables (hgoes : action.goes = some next)
    (hperform : w.perform p action = some w') :
    w'.db.sessions = w.db.sessions ∧ w'.db.runs = w.db.runs := by
  obtain ⟨w₀, rfl, hquiet⟩ := perform_quiet hgoes hperform
  obtain ⟨id, -, hdb⟩ := hquiet.db
  simp [hdb]

/-- Nor does it add a message: messages are only written by the commits of `create_run`
and of an executor. -/
theorem perform_quiet_messages (hgoes : action.goes = some next)
    (hperform : w.perform p action = some w') : w'.db.messages = w.db.messages := by
  obtain ⟨w₀, rfl, hquiet⟩ := perform_quiet hgoes hperform
  obtain ⟨id, -, hdb⟩ := hquiet.db
  simp [hdb]

/-- Nor does it write an event. At most it takes an id from the sequence, which a
rollback does not give back. -/
theorem perform_quiet_events (hgoes : action.goes = some next)
    (hperform : w.perform p action = some w') :
    w'.db.events = w.db.events ∧ w.db.next_event_id ≤ w'.db.next_event_id := by
  obtain ⟨w₀, rfl, hquiet⟩ := perform_quiet hgoes hperform
  obtain ⟨id, hle, hdb⟩ := hquiet.db
  simp [hdb, hle]

/-- It suspends its own task in its next await and leaves the others suspended where
they are. -/
theorem perform_quiet_tasks (hgoes : action.goes = some next)
    (hperform : w.perform p action = some w') :
    w'.tasks = w.tasks.modify p fun _ => next := by
  obtain ⟨w₀, rfl, hquiet⟩ := perform_quiet hgoes hperform
  rw [resume_tasks, hquiet.tasks]

/-- An action other than a commit changes the database only when it takes an event id,
which no rollback gives back. -/
theorem perform_quiet_db (hgoes : action.goes = some next) (hid : ∀ next, action ≠ .take_event_id next)
    (hperform : w.perform p action = some w') : w'.db = w.db := by
  cases action with
  | commit => cases hgoes
  | take_event_id => exact absurd rfl (hid _)
  | lock_session | lock_run | lock_runs =>
    simp only [perform, Option.ite_none_right_eq_some, Option.some.injEq] at hperform
    obtain ⟨-, rfl⟩ := hperform
    simp
  | proceed | call_agent | leave_drain | see_healthy =>
    cases hperform
    simp

/-- A call that is not over keeps its own locks until it commits, and so the rows it has
locked. -/
theorem perform_quiet_kept (hgoes : action.goes = some next) (hended : next.ended = false)
    (hperform : w.perform p action = some w') : Kept p w w' := by
  obtain ⟨w₀, rfl, hquiet⟩ := perform_quiet hgoes hperform
  rw [resume_of_not_ended _ _ _ hended]
  exact (hquiet.kept p).trans (.of_tables_eq rfl rfl (fun _ h => h) fun _ h => h)

/-- An action other than a commit leaves alone what another task has locked, the locks
themselves included. -/
theorem perform_quiet_kept_of_ne (hq : q ≠ p) (hgoes : action.goes = some next)
    (hperform : w.perform p action = some w') : Kept q w w' := by
  obtain ⟨w₀, rfl, hquiet⟩ := perform_quiet hgoes hperform
  exact (hquiet.kept q).trans (resume_kept hq _ _)

end Quiet

/-- A worker that is left behind leaves every row and every lock alone, whoever holds
them. -/
theorem Drained.kept (h : Drained w w') (q : Pid) : Kept q w w' :=
  .of_tables_eq h.sessions h.runs (fun _ hlocked => h.session_locks ▸ hlocked)
    fun _ hlocked => h.run_locks ▸ hlocked

/-- A step of another task leaves alone what `q` has locked: an update of a locked row
is not enabled, whatever the step is. -/
theorem step_kept {l : Label} (hstep : w.step l = some w') (hq : q ≠ l.pid) : Kept q w w' := by
  cases stepped hstep with
  | called => exact .of_tables_eq rfl rfl (fun _ h => h) fun _ h => h
  | killed => exact resume_kept hq w .killed
  | drained _ _ _ hdrained => exact hdrained.kept q
  | quiet _ _ hgoes hperform => exact perform_quiet_kept_of_ne hq hgoes hperform
  | refused => exact (release_kept hq w).trans (resume_kept hq _ _)
  | committed _ hcommit _ hwritable =>
    exact (commit_kept hq hcommit.keepsRuns hwritable).trans (resume_kept hq _ _)

/-- Runs stay where they are for good. No step deletes one, moves it to another session
or takes its idempotency key. -/
theorem step_same {l : Label} (hstep : w.step l = some w') {id : RunId} {row : AgentRun}
    (hget : w.db.runs.get? id = some row) :
    ∃ row', w'.db.runs.get? id = some row' ∧ SameRun row row' :=
  (step_kept hstep (Nat.succ_ne_self l.pid)).same id row hget

/-- The other tasks stay where they are: a step resumes one task, or suspends a new one
under a pid nobody has. -/
theorem step_tasks_of_ne {l : Label} (hstep : w.step l = some w') (hq : q ≠ l.pid) :
    w'.tasks.get? q = w.tasks.get? q := by
  cases stepped hstep with
  | called _ hfresh => simp [Table.get?_insert _ _ hfresh, hq]
  | drained _ _ _ hdrained => rw [hdrained.tasks]
  | quiet _ _ hgoes hperform =>
    rw [perform_quiet_tasks hgoes hperform, Table.get?_modify_of_ne _ _ hq]
  | killed | refused | committed => simp [Table.get?_modify_of_ne _ _ hq]

end World

end session_manager
