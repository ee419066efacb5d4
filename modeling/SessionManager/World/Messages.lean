import SessionManager.Library.Numbering
import SessionManager.World.Calls

open numbering unit_of_work

namespace session_manager

open sessions run_executor

/-- The messages a transaction inserts. -/
def Transaction.messages (tx : Transaction) : List ChatMessage :=
  (tx.insert_message.map Prod.snd).toList

namespace Database

/-- All messages in the order of their insertion. -/
def said (db : Database) : List ChatMessage := db.messages.rows.map Prod.snd

/-- The sequence numbers of the messages of a session. -/
def sequences (db : Database) (session_id : SessionId) : List Nat :=
  (db.said.filter fun m => m.session_id = session_id).map ChatMessage.sequence

/-- The messages of a run with the given role. -/
def messages_of (db : Database) (run_id : RunId) (role : MessageRole) : List ChatMessage :=
  db.said.filter fun m => m.run_id = some run_id ∧ m.role = role

variable {db : Database} {tx : Transaction} {session_id : SessionId} {run_id : RunId}
  {role : MessageRole}

/-- `next_message_sequence` reads one more than the greatest number of the session,
which is the next number of the numbering library. -/
theorem next_message_sequence_eq : db.next_message_sequence session_id = next (db.sequences session_id) := by
  simp only [next_message_sequence, next, sequences, said, List.filter_map, List.map_map,
    Function.comp_def]

private theorem apply_said (hconflict : db.conflict tx = false) :
    (db.apply tx).said = db.said ++ tx.messages := by
  cases hinsert : tx.insert_message with
  | none => simp [said, apply, Transaction.messages, hinsert]
  | some m =>
    have hmessage := (conflict_eq_false hconflict).2.2.1 m hinsert
    have hfresh : m.1 ∉ db.messages.keys := by
      simp only [message_conflict, Bool.or_eq_false_iff, Option.isSome_eq_false_iff,
        Option.isNone_iff_eq_none] at hmessage
      exact (Table.get?_eq_none_iff _).mp hmessage.1
    simp [said, apply, Transaction.messages, hinsert, Table.insert, hfresh]

private theorem apply_sequences (hconflict : db.conflict tx = false) :
    (db.apply tx).sequences session_id = db.sequences session_id ++
      (tx.messages.filter fun m => m.session_id = session_id).map ChatMessage.sequence := by
  rw [sequences, apply_said hconflict, List.filter_append, List.map_append, sequences]

/-- The messages of a run after a commit are those before it, followed by the ones the
commit inserts. -/
theorem apply_messages_of (hconflict : db.conflict tx = false) :
    (db.apply tx).messages_of run_id role = db.messages_of run_id role ++
      tx.messages.filter fun m => m.run_id = some run_id ∧ m.role = role := by
  rw [messages_of, apply_said hconflict, List.filter_append, messages_of]

/-- The unique constraint on the sequence numbers of a session: a commit that it does
not refuse uses none of them again. -/
theorem sequence_unused (hconflict : db.conflict tx = false) {m : ChatMessage}
    (hm : m ∈ tx.messages) : m.sequence ∉ db.sequences m.session_id := by
  obtain ⟨⟨id, m'⟩, hinsert, rfl⟩ : ∃ x, tx.insert_message = some x ∧ x.2 = m := by
    simpa [Transaction.messages] using hm
  have hmessage := (conflict_eq_false hconflict).2.2.1 _ hinsert
  simp only [message_conflict, Bool.or_eq_false_iff, Table.any_eq_false_iff] at hmessage
  intro hmem
  obtain ⟨m, hsaid, hsequence⟩ := List.mem_map.mp hmem
  obtain ⟨hsaid, hsession⟩ := List.mem_filter.mp hsaid
  obtain ⟨⟨id', m⟩, hrow, rfl⟩ := List.mem_map.mp hsaid
  have hget := db.messages.get?_eq_some_iff_mem.mpr hrow
  have hother := hmessage.2 id' m hget
  simp_all

end Database

/-- The sequence number a task has read for a message it is about to insert. -/
def Task.numbers : Task → Option (SessionId × Nat)
  | create_run (.commit request _ _ _ sequence) => some (request.session_id, sequence)
  | execute (.append _ run (.message _ _ _ sequence _) stage) =>
    if stage.written then none else some (run.session_id, sequence)
  | _ => none

section Task

variable {db : Database} {l : Label} {task next conflict : Task} {action : Action} {tx : Transaction}
  {session_id : SessionId} {sequence : Nat}

/-- Every message is inserted under the number its task has read. -/
private theorem Commit.numbers_message (h : Commit l task tx next conflict) {m : ChatMessage}
    (hm : m ∈ tx.messages) : task.numbers = some (m.session_id, m.sequence) := by
  cases h with
  | create_run =>
    obtain rfl := List.mem_singleton.mp hm
    rfl
  | append run_id run site event_id =>
    cases site with
    | message =>
      obtain rfl := List.mem_singleton.mp hm
      rfl
    | started | emitted | completed | failed => cases hm
  | insert_session | create_failed | create_ready | stopping | stop_failed | stopped | deleted
  | reconcile => cases hm

private theorem numbers_append_raised (run_id : RunId) (run : AgentRun) (error : String) (site : Site) :
    (Task.execute (append_raised run_id run error site)).numbers = none := by
  cases site <;> rfl

private theorem numbers_after_append (run_id : RunId) (run : AgentRun) (site : Site) :
    (Task.execute (after_append run_id run site)).numbers = none := by
  cases site <;> rfl

private theorem Commit.numbers_none (h : Commit l task tx next conflict) :
    next.numbers = none ∧ conflict.numbers = none := by
  cases h with
  | append run_id run site =>
    refine ⟨?_, numbers_append_raised ..⟩
    cases site <;> rfl
  | stopping => exact ⟨by unfold stop_runtime; split <;> rfl, rfl⟩
  | _ => exact ⟨rfl, rfl⟩

/-- A task reads the number of its message under the database of its step. -/
private theorem numbers_create_run {call : CreateRun} (hresume : call.resume db l = some action)
    (hgoes : action.goes = some next) (hnext : next.numbers = some (session_id, sequence)) :
    sequence = db.next_message_sequence session_id := by
  cases CreateRun.resumes hresume with
  | select =>
    cases hgoes
    unfold selected check_ready at hnext
    split at hnext
    · cases hnext
    · split at hnext <;> cases hnext
  | lookup =>
    cases hgoes
    unfold check_ready at hnext
    split at hnext <;> cases hnext
  | sequence =>
    cases hgoes
    cases hnext
    rfl
  | commit => cases hgoes
  | missing | replay | refused | flush | gone | refresh | failed =>
    cases hgoes
    cases hnext

private theorem numbers_execute {call : Execute} (hresume : call.resume db l = some action)
    (hgoes : action.goes = some next) (hnext : next.numbers = some (session_id, sequence)) :
    (Task.execute call).numbers = some (session_id, sequence) ∨
      sequence = db.next_message_sequence session_id := by
  cases Execute.resumes hresume with
  | @flush _ _ site =>
    cases hgoes
    cases site <;> exact .inl hnext
  | @refresh _ _ site =>
    cases hgoes
    cases site <;> cases hnext
  | sequence =>
    cases hgoes
    cases hnext
    exact .inr rfl
  | commit => cases hgoes
  | call_agent | publish =>
    cases hgoes
    simp [numbers_after_append] at hnext
  | append_failed =>
    cases hgoes
    simp [numbers_append_raised] at hnext
  | _ =>
    cases hgoes
    cases hnext

private theorem Task.numbers_of_resume (hresume : task.resume db l = some action)
    (hgoes : action.goes = some next) (hnext : next.numbers = some (session_id, sequence)) :
    task.numbers = some (session_id, sequence) ∨
      sequence = db.next_message_sequence session_id := by
  have hservice := Task.service_of_resume hresume hgoes
  cases task with
  | create_run call => exact .inr (numbers_create_run hresume hgoes hnext)
  | execute call => exact numbers_execute hresume hgoes hnext
  | killed => cases hresume
  | create_session | stop_session | delete_session | reconcile =>
    cases next <;> cases hservice
    cases hnext

end Task

namespace World

variable {w w' : World} {l : Label} {p : Pid}

/-- What a step does to the tables of messages and runs. -/
inductive Said (w : World) (l : Label) (w' : World) : Prop
  | silent (hmessages : w'.db.messages = w.db.messages) (hruns : w'.db.runs = w.db.runs)
  | committed {task next conflict : Task} {tx : Transaction} (htask : w.tasks.get? l.pid = some task)
      (hcommit : Commit l task tx next conflict) (hconflict : w.db.conflict tx = false)
      (hnext : w'.tasks.get? l.pid = some next) (hdb : w'.db = w.db.apply tx)

/-- Every way in which a step adds to the messages: a commit of `create_run` or of an
executor does, and nothing else. -/
theorem step_said (hstep : w.step l = some w') : Said w l w' := by
  cases stepped hstep with
  | called => exact .silent rfl rfl
  | killed | refused => exact .silent (by simp) (by simp)
  | drained _ _ _ hdrained => exact .silent hdrained.messages hdrained.runs
  | quiet _ _ hgoes hperform =>
    exact .silent (perform_quiet_messages hgoes hperform) (perform_quiet_tables hgoes hperform).2
  | committed htask hcommit _ _ hconflict =>
    exact .committed htask hcommit hconflict (by simp [htask]) (by simp)

/-- The messages of every session are numbered 1 to n, and a number that was read
for a message is at most n + 1. -/
structure Numbered (w : World) : Prop where
  gapless : ∀ session_id, Gapless (w.db.sequences session_id)
  pending : ∀ p task session_id sequence, w.tasks.get? p = some task →
    task.numbers = some (session_id, sequence) →
    1 ≤ sequence ∧ sequence ≤ (w.db.sequences session_id).length + 1

/-- No session has a message before the first call, and the empty list has no gap. -/
theorem Numbered.empty : Numbered World.empty where
  gapless _ := rfl
  pending _ _ _ _ htask := by cases htask

namespace Numbered

variable (h : Numbered w) {session_id : SessionId}
include h

/-- A message that is inserted takes the next number of its session: a number read too
early is refused by the constraint. -/
theorem sequence_eq {task next conflict : Task} {tx : Transaction}
    (htask : w.tasks.get? l.pid = some task) (hcommit : Commit l task tx next conflict)
    (hconflict : w.db.conflict tx = false) {m : ChatMessage} (hm : m ∈ tx.messages) :
    m.sequence = (w.db.sequences m.session_id).length + 1 := by
  obtain ⟨hpos, hle⟩ := h.pending _ task _ _ htask (hcommit.numbers_message hm)
  exact (h.gapless m.session_id).eq_of_unused hpos hle (Database.sequence_unused hconflict hm)

private theorem step_gapless (hstep : w.step l = some w') : Gapless (w'.db.sequences session_id) := by
  cases step_said hstep with
  | silent hmessages =>
    have hsame : w'.db.sequences session_id = w.db.sequences session_id := by
      simp [Database.sequences, Database.said, hmessages]
    exact hsame ▸ h.gapless session_id
  | @committed _ _ _ tx htask hcommit hconflict _ hdb =>
    rw [hdb, Database.apply_sequences hconflict]
    cases hinsert : tx.insert_message with
    | none => simpa [Transaction.messages, hinsert] using h.gapless session_id
    | some m =>
      have hmessages : tx.messages = [m.2] := by simp [Transaction.messages, hinsert]
      have hsequence := h.sequence_eq htask hcommit hconflict (m := m.2) (by simp [hmessages])
      by_cases hsession : m.2.session_id = session_id
      · subst hsession
        simpa [hmessages] using (h.gapless m.2.session_id).append hsequence
      · simpa [hmessages, hsession] using h.gapless session_id

omit h in
private theorem length_sequences_le (hstep : w.step l = some w') (session_id : SessionId) :
    (w.db.sequences session_id).length ≤ (w'.db.sequences session_id).length := by
  cases step_said hstep with
  | silent hmessages => simp [Database.sequences, Database.said, hmessages]
  | committed _ _ hconflict _ hdb => simp [hdb, Database.apply_sequences hconflict]

private theorem step_pending (hstep : w.step l = some w') {p : Pid} {task : Task} {sequence : Nat}
    (htask : w'.tasks.get? p = some task) (hnumbers : task.numbers = some (session_id, sequence)) :
    1 ≤ sequence ∧ sequence ≤ (w.db.sequences session_id).length + 1 := by
  by_cases hp : p = l.pid
  swap
  · rw [step_tasks_of_ne hstep hp] at htask
    exact h.pending p task session_id sequence htask hnumbers
  subst hp
  cases step_next hstep htask with
  | @called operation => cases operation <;> cases hnumbers
  | killed => cases hnumbers
  | drained hold => exact h.pending _ _ session_id sequence hold hnumbers
  | quiet hold hresume hgoes =>
    rcases Task.numbers_of_resume hresume hgoes hnumbers with hbefore | hread
    · exact h.pending _ _ session_id sequence hold hbefore
    · rw [hread, Database.next_message_sequence_eq, (h.gapless session_id).next_eq]
      exact ⟨Nat.le_add_left .., Nat.le_refl _⟩
  | refused _ hcommit =>
    rw [hcommit.numbers_none.2] at hnumbers
    cases hnumbers
  | committed _ hcommit =>
    rw [hcommit.numbers_none.1] at hnumbers
    cases hnumbers

/-- The messages of every session stay numbered from 1 without a gap, whoever adds one.
A number that somebody else has used since it was read is refused by the unique
constraint. -/
theorem step (hstep : w.step l = some w') : Numbered w' where
  gapless _ := h.step_gapless hstep
  pending p task session_id sequence htask hnumbers := by
    obtain ⟨hpos, hle⟩ := h.step_pending hstep htask hnumbers
    have hgrow := length_sequences_le hstep session_id
    exact ⟨hpos, by omega⟩

end Numbered

end World

end session_manager
