import SessionManager.Library.Table
import SessionManager.Database.Models
import Mathlib.Data.List.Nodup

open unit_of_work

namespace session_manager

/-- What one transaction writes: the UPDATE of each session and run row that has
one, and the rows it inserts. -/
structure Transaction where
  update_session : SessionId → Option (AgentSession → AgentSession) := fun _ => none
  update_run : RunId → Option (AgentRun → AgentRun) := fun _ => none
  insert_session : Option (SessionId × AgentSession) := none
  insert_run : Option (RunId × AgentRun) := none
  insert_message : Option (MessageId × ChatMessage) := none
  insert_event : Option SessionEvent := none

/-- The UPDATE of the row of one object, when its flush issues one. -/
def update_row {α : Type} [DecidableEq α] [Columns α] (id : Uuid) (x : Loaded α) :
    Uuid → Option (α → α) :=
  fun j => if j = id then x.update else none

/-- Writing a copy changes its own row, in the columns in which the copy was changed.
Every other row of the table stays. -/
theorem update_row_getD {α : Type} [DecidableEq α] [Columns α] (uuid j : Uuid) (x : Loaded α)
    (row : α) : (update_row uuid x j).getD id row = if j = uuid then x.write row else row := by
  unfold update_row
  split
  · exact x.update_getD row
  · rfl

/-- The row of a copy that is written becomes the copy, if it was the copy that was
loaded. Nobody else has written the row in between then. -/
theorem updateRows_update_row {α : Type} [DecidableEq α] [Columns α] {t : Table Uuid α}
    {uuid : Uuid} {x : Loaded α} (hget : t.get? uuid = some x.loaded) :
    t.updateRows (update_row uuid x) = t.modify uuid fun _ => x.current := by
  refine t.mapRows_congr fun k row hrow => ?_
  rw [update_row_getD]
  split
  · rename_i hk
    subst hk
    obtain rfl := Option.some.inj (hget.symm.trans hrow)
    exact Columns.update_loaded ..
  · rfl

/-- `UPDATE runs SET status = 'CANCELLED', finished_at = now` of the given rows. -/
def cancel_rows (cancelled : List RunId) (now : Time) : RunId → Option (AgentRun → AgentRun) :=
  fun id => if id ∈ cancelled then
    some fun r => { r with status := .CANCELLED, finished_at := some now }
  else none

/-- Cancelling no runs is an UPDATE that picks no row. -/
@[simp] theorem cancel_rows_nil (now : Time) : cancel_rows [] now = fun _ => none := by
  funext r
  simp [cancel_rows]

/-- The committed contents of the database. `next_event_id` is the sequence
behind `events.id`, which is not rolled back with a transaction. -/
structure Database where
  sessions : Table SessionId AgentSession
  runs : Table RunId AgentRun
  messages : Table MessageId ChatMessage
  events : List SessionEvent
  next_event_id : EventId

namespace Database

def empty : Database :=
  { sessions := .empty, runs := .empty, messages := .empty, events := [], next_event_id := 1 }

/-- `SessionRepository.get_session`; the row lock is taken by the caller. -/
def get_session (db : Database) (session_id : SessionId) : Option AgentSession :=
  (db.sessions.get? session_id).filter fun s => s.deleted_at = none

def get_run_by_idempotency_key (db : Database) (session_id : SessionId) (key : String) :
    Option (RunId × AgentRun) :=
  db.runs.find? fun _ r => r.session_id = session_id && r.idempotency_key = some key

def next_message_sequence (db : Database) (session_id : SessionId) : Nat :=
  ((db.messages.rows.filter fun m => m.2.session_id = session_id).map
    fun m => m.2.sequence).foldr max 0 + 1

/-- The rows an `UPDATE runs ... WHERE status IN ('PENDING', 'RUNNING')` of a
session matches. -/
def active_runs (db : Database) (session_id : SessionId) : List RunId :=
  (db.runs.rows.filter fun r => r.2.session_id = session_id && r.2.status.active).map Prod.fst

/-- Whether inserting the run violates the unique partial index of this name. -/
def uq_runs_one_active_per_session (db : Database) (run : AgentRun) : Bool :=
  run.status.active && db.runs.any fun _ r => r.session_id = run.session_id && r.status.active

/-- Whether inserting the run violates its primary key, the unique idempotency
key of its session or the one-active-run index. -/
def run_conflict (db : Database) (run_id : RunId) (run : AgentRun) : Bool :=
  (db.runs.get? run_id).isSome ||
  (run.idempotency_key.isSome && db.runs.any fun _ r =>
    r.session_id = run.session_id && r.idempotency_key = run.idempotency_key) ||
  db.uq_runs_one_active_per_session run

/-- Whether inserting the message violates its primary key or the unique
sequence number of its session. -/
def message_conflict (db : Database) (message_id : MessageId) (message : ChatMessage) : Bool :=
  (db.messages.get? message_id).isSome || db.messages.any fun _ m =>
    m.session_id = message.session_id && m.sequence = message.sequence

/-- The unique constraint on `sessions.runtime_id`, where NULLs are distinct. -/
def unique_runtime_ids (sessions : Table SessionId AgentSession) : Bool :=
  (sessions.rows.filterMap fun s => s.2.runtime_id).Nodup

/-- The database once the transaction is committed. -/
def apply (db : Database) (tx : Transaction) : Database where
  sessions := tx.insert_session.elim id (fun s t => t.insert s.1 s.2)
    (db.sessions.updateRows tx.update_session)
  runs := tx.insert_run.elim id (fun r t => t.insert r.1 r.2) (db.runs.updateRows tx.update_run)
  messages := tx.insert_message.elim id (fun m t => t.insert m.1 m.2) db.messages
  events := db.events ++ tx.insert_event.toList
  next_event_id := db.next_event_id

/-- Whether a unique constraint makes the transaction fail. -/
def conflict (db : Database) (tx : Transaction) : Bool :=
  tx.insert_session.any (fun s => (db.sessions.get? s.1).isSome) ||
  tx.insert_run.any (fun r => db.run_conflict r.1 r.2) ||
  tx.insert_message.any (fun m => db.message_conflict m.1 m.2) ||
  !unique_runtime_ids (db.apply tx).sessions

/-- `get_session` finds rows that are not deleted only; to every service a deleted
session does not exist. -/
theorem get_session_eq_some {db : Database} {session_id : SessionId} {s : AgentSession}
    (h : db.get_session session_id = some s) :
    db.sessions.get? session_id = some s ∧ s.deleted_at = none := by
  rw [get_session, Option.filter_eq_some_iff] at h
  simpa using h

/-- The active runs are the rows of the session with an active status, which is what the
partial unique index counts. -/
theorem mem_active_runs {db : Database} {session_id : SessionId} {run_id : RunId} :
    run_id ∈ db.active_runs session_id ↔
      ∃ r, db.runs.get? run_id = some r ∧ r.session_id = session_id ∧ r.status.active = true := by
  simp [active_runs, Table.get?_eq_some_iff_mem]

/-- A run that no constraint refuses: its id is new, its key is free in its session, and
no other run of the session is active. -/
theorem run_conflict_eq_false {db : Database} {run_id : RunId} {run : AgentRun}
    (h : db.run_conflict run_id run = false) :
    db.runs.get? run_id = none ∧
    (∀ key, run.idempotency_key = some key → ∀ id r, db.runs.get? id = some r →
      r.session_id = run.session_id → r.idempotency_key ≠ some key) ∧
    (run.status.active = true → ∀ id r, db.runs.get? id = some r →
      r.session_id = run.session_id → r.status.active = false) := by
  simp only [run_conflict, uq_runs_one_active_per_session, Bool.or_eq_false_iff,
    Bool.and_eq_false_iff, Table.any_eq_false_iff] at h
  obtain ⟨⟨hid, hkey⟩, hactive⟩ := h
  refine ⟨by simpa using hid, ?_, ?_⟩
  · intro key hsome id r hget hsession heq
    rcases hkey with hnone | hkey
    · simp [hsome] at hnone
    · simpa [hsession, heq, hsome] using hkey id r hget
  · intro hstatus id r hget hsession
    rcases hactive with hinactive | hactive
    · simp [hstatus] at hinactive
    · simpa [hsession] using hactive id r hget

/-- A session without active runs may have a new one. -/
theorem uq_runs_one_active_of_active_runs {db : Database} {run : AgentRun}
    (h : db.active_runs run.session_id = []) : db.uq_runs_one_active_per_session run = false := by
  rw [uq_runs_one_active_per_session, Bool.and_eq_false_iff, Table.any_eq_false_iff]
  refine .inr fun id r hget => ?_
  by_contra hactive
  have hmem : id ∈ db.active_runs run.session_id :=
    mem_active_runs.mpr ⟨r, hget, by simpa using hactive⟩
  simp [h] at hmem

section Apply

variable {db : Database} {tx : Transaction}

/-- A transaction that no constraint refuses inserts what is new, row by row, and leaves
no two sessions with one runtime. -/
theorem conflict_eq_false (h : db.conflict tx = false) :
    (∀ s, tx.insert_session = some s → db.sessions.get? s.1 = none) ∧
    (∀ r, tx.insert_run = some r → db.run_conflict r.1 r.2 = false) ∧
    (∀ m, tx.insert_message = some m → db.message_conflict m.1 m.2 = false) ∧
    unique_runtime_ids (db.apply tx).sessions = true := by
  simp only [conflict, Bool.or_eq_false_iff] at h
  obtain ⟨⟨⟨hsession, hrun⟩, hmessage⟩, hruntime⟩ := h
  refine ⟨?_, ?_, ?_, by simpa using hruntime⟩
  · intro s hs
    simpa [hs] using hsession
  · intro r hr
    simpa [hr] using hrun
  · intro m hm
    simpa [hm] using hmessage

/-- A row present before the commit is the updated one after it. No commit deletes a
session. -/
theorem apply_session_of_some {session_id : SessionId} {row : AgentSession}
    (hget : db.sessions.get? session_id = some row) :
    (db.apply tx).sessions.get? session_id = some ((tx.update_session session_id).getD id row) := by
  cases hinsert : tx.insert_session with
  | none => simp [apply, hinsert, hget]
  | some s => simp [apply, hinsert, Table.get?_insert_of_some, hget]

/-- A run present before the commit is the updated one after it. No commit deletes a
run. -/
theorem apply_run_of_some {run_id : RunId} {row : AgentRun}
    (hget : db.runs.get? run_id = some row) :
    (db.apply tx).runs.get? run_id = some ((tx.update_run run_id).getD id row) := by
  cases hinsert : tx.insert_run with
  | none => simp [apply, hinsert, hget]
  | some r => simp [apply, hinsert, Table.get?_insert_of_some, hget]

/-- The sessions after a commit that inserts none: those before it, with the updates of
the transaction. -/
theorem apply_sessions_get? (hinsert : tx.insert_session = none) (session_id : SessionId) :
    (db.apply tx).sessions.get? session_id =
      (db.sessions.get? session_id).map ((tx.update_session session_id).getD id) := by
  simp [apply, hinsert]

/-- The sessions after a commit that inserts one, whose primary key is new. -/
theorem apply_insert_session {session_id : SessionId} {row : AgentSession}
    (hinsert : tx.insert_session = some (session_id, row))
    (hfresh : db.sessions.get? session_id = none) (j : SessionId) :
    (db.apply tx).sessions.get? j =
      if j = session_id then some row
      else (db.sessions.get? j).map ((tx.update_session j).getD id) := by
  have hfresh' : (db.sessions.updateRows tx.update_session).get? session_id = none := by
    simp [hfresh]
  simp [apply, hinsert, Table.get?_insert _ _ hfresh']

/-- The runs after a commit that inserts one, whose primary key is new. -/
theorem apply_insert_run {run_id : RunId} {row : AgentRun}
    (hinsert : tx.insert_run = some (run_id, row)) (hfresh : db.runs.get? run_id = none)
    (j : RunId) :
    (db.apply tx).runs.get? j =
      if j = run_id then some row else (db.runs.get? j).map ((tx.update_run j).getD id) := by
  have hfresh' : (db.runs.updateRows tx.update_run).get? run_id = none := by
    simp [hfresh]
  simp [apply, hinsert, Table.get?_insert _ _ hfresh']

/-- The runs after a commit that inserts none: those before it, with the updates of the
transaction. -/
theorem apply_runs_get? (hinsert : tx.insert_run = none) (run_id : RunId) :
    (db.apply tx).runs.get? run_id =
      (db.runs.get? run_id).map ((tx.update_run run_id).getD id) := by
  simp [apply, hinsert]

/-- A session after the commit is an updated one or the inserted one. Proofs about every
row after a commit start with this case split. -/
theorem apply_session_cases {session_id : SessionId} {row' : AgentSession}
    (hget : (db.apply tx).sessions.get? session_id = some row') :
    (∃ row, db.sessions.get? session_id = some row ∧
      row' = (tx.update_session session_id).getD id row) ∨
    (db.sessions.get? session_id = none ∧ tx.insert_session = some (session_id, row')) := by
  cases hold : db.sessions.get? session_id with
  | some row =>
    rw [apply_session_of_some hold] at hget
    exact .inl ⟨row, rfl, (Option.some.inj hget).symm⟩
  | none =>
    cases hinsert : tx.insert_session with
    | none => simp [apply, hinsert, hold] at hget
    | some s =>
      simp only [apply, hinsert, Option.elim_some] at hget
      rcases Table.get?_insert_cases _ hget with hget | ⟨_, rfl, rfl⟩
      · simp [hold] at hget
      · exact .inr ⟨rfl, rfl⟩

/-- A run after the commit is an updated one or the inserted one, likewise. -/
theorem apply_run_cases {run_id : RunId} {row' : AgentRun}
    (hget : (db.apply tx).runs.get? run_id = some row') :
    (∃ row, db.runs.get? run_id = some row ∧ row' = (tx.update_run run_id).getD id row) ∨
    (db.runs.get? run_id = none ∧ tx.insert_run = some (run_id, row')) := by
  cases hold : db.runs.get? run_id with
  | some row =>
    rw [apply_run_of_some hold] at hget
    exact .inl ⟨row, rfl, (Option.some.inj hget).symm⟩
  | none =>
    cases hinsert : tx.insert_run with
    | none => simp [apply, hinsert, hold] at hget
    | some r =>
      simp only [apply, hinsert, Option.elim_some] at hget
      rcases Table.get?_insert_cases _ hget with hget | ⟨_, rfl, rfl⟩
      · simp [hold] at hget
      · exact .inr ⟨rfl, rfl⟩

end Apply

end Database

end session_manager
