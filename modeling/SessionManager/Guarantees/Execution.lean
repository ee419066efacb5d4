import SessionManager.World.Solo
import SessionManager.World.Messages
import SessionManager.World.Invariant
import SessionManager.World.Schedule

open transition unit_of_work numbering

namespace session_manager

open sessions run_executor schedule

/-- How the agent ends: it returns its final text, or raises an exception of
this type. -/
inductive AgentOutcome
  | returns (final_text : String)
  | raises (error : String)

namespace course

/-- One `append`, whose publish ends or raises. -/
def appends (ok : Bool) : List Input := [.returned, .returned, .returned, .published ok]

/-- The agent emits the events one after the other; `publishes` says which
publish of the call ends. -/
def emits (publishes : Nat → Bool) : Nat → List (AgentEventType × Payload) → List Input
  | _, [] => []
  | i, (event_type, payload) :: events =>
    .agent (.emit event_type payload) :: appends (publishes i) ++ emits publishes (i + 1) events

def ends (publishes : Nat → Bool) (i : Nat) : AgentOutcome → List Input
  | .returns final_text => [.agent (.returns final_text), .returned, .returned, .returned] ++
      appends (publishes i) ++ appends (publishes (i + 1))
  | .raises error => [.agent (.raises error), .returned, .returned, .returned] ++
      appends (publishes i)

/-- The inputs of a call of `execute` whose database calls all return. -/
def inputs (run_id : RunId) (events : List (AgentEventType × Payload)) (outcome : AgentOutcome)
    (publishes : Nat → Bool) : List Input :=
  [.call (.execute run_id), .returned, .returned] ++ appends (publishes 0) ++
    emits publishes 1 events ++ ends publishes (events.length + 1) outcome

/-- The steps of task `p` with these inputs, under any readings of the clock and
of `uuid.uuid4`. -/
def labels (p : Pid) (clock : Nat → Time) (uuids : Nat → Uuid) : Nat → List Input → List Label
  | _, [] => []
  | i, input :: inputs =>
    { pid := p, input := input, now := clock i, uuid := uuids i } :: labels p clock uuids (i + 1) inputs

variable {p : Pid} {clock : Nat → Time} {uuids : Nat → Uuid}

private theorem labels_append (i : Nat) (xs ys : List Input) :
    labels p clock uuids i (xs ++ ys) =
      labels p clock uuids i xs ++ labels p clock uuids (i + xs.length) ys := by
  induction xs generalizing i with
  | nil => rfl
  | cons x xs ih =>
    simp only [List.cons_append, labels, ih, List.length_cons, Nat.add_right_comm, Nat.add_assoc]

private theorem mem_labels {i : Nat} {xs : List Input} {l : Label} (hl : l ∈ labels p clock uuids i xs) :
    l.pid = p ∧ l.input ∈ xs := by
  induction xs generalizing i with
  | nil => cases hl
  | cons x xs ih =>
    rcases List.mem_cons.mp hl with rfl | hl
    · exact ⟨rfl, List.mem_cons_self⟩
    · exact (ih hl).imp_right (List.mem_cons_of_mem _)

private theorem length_emits (publishes : Nat → Bool) (i : Nat) (events : List (AgentEventType × Payload)) :
    (emits publishes i events).length = 5 * events.length := by
  induction events generalizing i with
  | nil => rfl
  | cons event events ih =>
    simp only [emits, List.length_append, List.length_cons, appends, ih, List.length_nil]
    omega

/-- Every step is one of the call itself, and no process dies. -/
theorem inputs_resume {run_id : RunId} {events : List (AgentEventType × Payload)}
    {outcome : AgentOutcome} {publishes : Nat → Bool} :
    (inputs run_id events outcome publishes).all Input.resumes = true := by
  have hemits (i : Nat) : (emits publishes i events).all Input.resumes = true := by
    induction events generalizing i with
    | nil => rfl
    | cons event events ih => simp [emits, appends, Input.resumes, ih]
  cases outcome <;> simp [inputs, appends, ends, Input.resumes, hemits]

end course

/-- The events of a run with these types and payloads, under consecutive ids. -/
def numbered (session_id : SessionId) (run_id : RunId) :
    EventId → List (EventType × Payload) → List SessionEvent
  | _, [] => []
  | event_id, (event_type, payload) :: entries =>
    { id := event_id, session_id := session_id, run_id := some run_id, event_type := event_type,
      payload := payload } :: numbered session_id run_id (event_id + 1) entries

private theorem numbered_append (session_id : SessionId) (run_id : RunId) (event_id : EventId)
    (xs ys : List (EventType × Payload)) :
    numbered session_id run_id event_id (xs ++ ys) =
      numbered session_id run_id event_id xs ++
        numbered session_id run_id (event_id + xs.length) ys := by
  induction xs generalizing event_id with
  | nil => rfl
  | cons x xs ih =>
    simp only [List.cons_append, numbered, ih, List.length_cons, Nat.add_right_comm, Nat.add_assoc]

namespace AgentOutcome

/-- The run as its executor leaves it. -/
def run (started finished : Time) (run : AgentRun) : AgentOutcome → AgentRun
  | returns _ =>
    { run with status := .COMPLETED, started_at := some started, finished_at := some finished }
  | raises error =>
    { run with
      status := .FAILED
      error := some error
      started_at := some started
      finished_at := some finished }

def messages (db : Database) (run_id : RunId) (run : AgentRun) (message_id : MessageId) :
    AgentOutcome → Table MessageId ChatMessage
  | returns final_text => db.messages.insert message_id
      { session_id := run.session_id
        run_id := some run_id
        role := .ASSISTANT
        content := [("text", final_text)]
        sequence := db.next_message_sequence run.session_id }
  | raises _ => db.messages

def log (run : AgentRun) (events : List (AgentEventType × Payload)) (message_id : MessageId)
    (outcome : AgentOutcome) : List (EventType × Payload) :=
  (.RUN_STARTED, [("input", run.input)]) :: events.map (fun event => (event.1.val, event.2)) ++
    match outcome with
    | returns final_text =>
      [(.ASSISTANT_MESSAGE, [("message_id", toString message_id), ("text", final_text)]),
        (.RUN_COMPLETED, [("status", "COMPLETED")])]
    | raises error => [(.RUN_FAILED, [("error", error)])]

end AgentOutcome

/-- What the call of `execute` for a PENDING run leaves in the database. -/
def settled (db : Database) (run_id : RunId) (run : AgentRun) (session : AgentSession)
    (events : List (AgentEventType × Payload)) (outcome : AgentOutcome) (started finished : Time)
    (message_id : MessageId) : Database where
  sessions := db.sessions.modify run.session_id fun _ =>
    { session with status := .READY, version := session.version + 1 }
  runs := db.runs.modify run_id fun _ => outcome.run started finished run
  messages := outcome.messages db run_id run message_id
  events := db.events ++
    numbered run.session_id run_id db.next_event_id (outcome.log run events message_id)
  next_event_id := db.next_event_id + (outcome.log run events message_id).length

/-- The database without the times of its runs. -/
def Database.untimed (db : Database) : Database :=
  { db with runs := db.runs.mapRows fun _ run => { run with started_at := none, finished_at := none } }

private theorem unique_updateRows {sessions : Table SessionId AgentSession}
    {u : SessionId → Option (AgentSession → AgentSession)}
    (h : ∀ session_id row, ((u session_id).getD id row).runtime_id = row.runtime_id) :
    Database.unique_runtime_ids (sessions.updateRows u) = Database.unique_runtime_ids sessions := by
  simp only [Database.unique_runtime_ids, Table.updateRows, Table.mapRows, List.filterMap_map,
    Function.comp_def, h]

namespace run_executor

/-- An append of `execute` whose database calls return. -/
def written (db : Database) (run_id : RunId) (run : AgentRun) (site : Site) : Database :=
  { db with next_event_id := db.next_event_id + 1 }.apply
    (append_transaction run_id run site db.next_event_id)

/-- The copies of the run and its session are their rows. -/
structure Held (db : Database) (run_id : RunId) (run : AgentRun) (session : AgentSession) : Prop where
  session : db.sessions.get? run.session_id = some session
  run : db.runs.get? run_id = some run
  runtimes : Database.unique_runtime_ids db.sessions = true

/-- The objects of the append are the copies. -/
def Site.Fits (db : Database) (run : AgentRun) (session : AgentSession) (site : Site) : Prop :=
  (∀ x, site.session = some x → x.loaded = session) ∧
  ∀ session message_id final_text sequence now, site = .message session message_id final_text sequence now →
    db.messages.get? message_id = none ∧ sequence = db.next_message_sequence run.session_id

variable {db : Database} {run_id : RunId} {run : AgentRun} {session : AgentSession} {site : Site}

private theorem completed_fits : Site.completed.Fits db run session :=
  ⟨by simp [Site.session], by simp⟩

private theorem emitted_fits {copy : AgentSession} {event_type : AgentEventType} {payload : Payload} :
    (Site.emitted copy event_type payload).Fits db run session :=
  ⟨by simp [Site.session], by simp⟩

private theorem started_fits (now : Time) : (Site.started session now).Fits db run session :=
  ⟨by rintro x ⟨⟩; rfl, by simp⟩

private theorem Site.session_runtime {x : Loaded AgentSession} (h : site.session = some x) :
    x.current.runtime_id = x.loaded.runtime_id := by
  cases site with
  | started | message => cases h; rfl
  | emitted | completed => cases h
  | failed session =>
    obtain ⟨session, -, rfl⟩ := Option.map_eq_some_iff.mp h
    rfl

private theorem sequence_free (db : Database) (session_id : SessionId) :
    db.messages.any (fun _ m => m.session_id = session_id &&
      m.sequence = db.next_message_sequence session_id) = false := by
  rw [Table.any_eq_false_iff]
  intro id m hget
  by_cases hsession : m.session_id = session_id
  · have hmem : m.sequence ∈ db.sequences session_id := by
      have hrow := (db.messages.get?_eq_some_iff_mem).mp hget
      exact List.mem_map_of_mem (List.mem_filter.mpr
        ⟨List.mem_map.mpr ⟨(id, m), hrow, rfl⟩, by simpa using hsession⟩)
    have hle := le_foldr_max hmem
    rw [Database.next_message_sequence_eq, next]
    simp only [Bool.and_eq_false_iff, decide_eq_false_iff_not]
    right
    omega
  · simp [hsession]

namespace Held

variable (h : Held db run_id run session)
include h

private theorem no_conflict (hfits : site.Fits db run session) (event_id : EventId) :
    db.conflict (append_transaction run_id run site event_id) = false := by
  have hsessions : Database.unique_runtime_ids
      (db.apply (append_transaction run_id run site event_id)).sessions = true := by
    refine Eq.trans (unique_updateRows fun session_id row => ?_) h.runtimes
    cases hsession : site.session with
    | none => simp [append_transaction, hsession]
    | some x =>
      simp only [append_transaction, hsession, Option.bind_some, update_row_getD]
      split
      · rw [AgentSession.write_runtime_id, Site.session_runtime hsession, column_self]
      · rfl
  simp only [Database.conflict, hsessions]
  cases site with
  | message session message_id final_text sequence now =>
    obtain ⟨hfresh, rfl⟩ := hfits.2 _ _ _ _ _ rfl
    simp [append_transaction, Site.chat_message, Database.message_conflict, hfresh,
      assistant_message, sequence_free]
  | started | emitted | completed | failed => rfl

/-- What the append of a copy that is its row leaves: the row of the copy, its message
and its event. -/
theorem written_eq (hfits : site.Fits db run session) :
    written db run_id run site =
      { sessions := site.session.elim db.sessions fun x =>
          db.sessions.modify run.session_id fun _ => x.current
        runs := db.runs.modify run_id fun _ => site.run run
        messages := (site.chat_message run_id run).elim db.messages fun m => db.messages.insert m.1 m.2
        events := db.events ++ [site.event run_id run db.next_event_id]
        next_event_id := db.next_event_id + 1 } := by
  have hsessions : db.sessions.updateRows
      (fun id => site.session.bind fun x => update_row run.session_id x id) =
      site.session.elim db.sessions fun x =>
        db.sessions.modify run.session_id fun _ => x.current := by
    cases hsession : site.session with
    | none => exact db.sessions.updateRows_none
    | some x => exact updateRows_update_row (hfits.1 x hsession ▸ h.session)
  have hruns : db.runs.updateRows (update_row run_id ⟨run, site.run run⟩) =
      db.runs.modify run_id fun _ => site.run run := updateRows_update_row h.run
  simp only [written, Database.apply, append_transaction, hsessions, hruns, Option.elim_none, id_eq,
    Option.toList_some]
  cases site.chat_message run_id run <;> rfl

/-- The copies are the rows after the append, too: nobody else writes, and each commit
writes what the copies hold. -/
theorem written (hfits : site.Fits db run session) :
    Held (written db run_id run site) run_id (site.run run)
      ((site.session.map Loaded.current).getD session) where
  session := by
    rw [h.written_eq hfits, (site.run_same run).1]
    cases hsession : site.session with
    | none => exact h.session
    | some x => simp [h.session]
  run := by simp [h.written_eq hfits, h.run]
  runtimes := (Database.conflict_eq_false (h.no_conflict hfits db.next_event_id)).2.2.2

end Held

section Phases

open course

variable {p : Pid} {clock : Nat → Time} {uuids : Nat → Uuid} {publishes : Nat → Bool} {i : Nat}

/-- An append ends in the same way whether or not its publish does, as the error of a
publish is caught. -/
theorem append_runs (h : Held db run_id run session) (hfits : site.Fits db run session) (ok : Bool) :
    exec Solo.step (labels p clock uuids i (appends ok)) ⟨db, .append run_id run site .flush⟩ =
      some ⟨run_executor.written db run_id run site, after_append run_id (site.run run) site⟩ := by
  have hconflict : Database.conflict { db with next_event_id := db.next_event_id + 1 }
      (append_transaction run_id run site db.next_event_id) = false := h.no_conflict hfits _
  simp only [appends, labels, exec, Solo.step, Execute.resume, Solo.perform, Option.bind_some,
    hconflict, Bool.false_eq_true, if_false]
  cases site <;> rfl

/-- The events the agent emits, in order. -/
def emitted (db : Database) (run_id : RunId) (run : AgentRun)
    (events : List (AgentEventType × Payload)) : Database :=
  { db with
    events := db.events ++ numbered run.session_id run_id db.next_event_id
      (events.map fun event => (event.1.val, event.2))
    next_event_id := db.next_event_id + events.length }

private theorem written_emitted (h : Held db run_id run session) (event : AgentEventType × Payload) :
    run_executor.written db run_id run (.emitted session event.1 event.2) =
      emitted db run_id run [event] := by
  rw [h.written_eq emitted_fits]
  simp only [Site.session, Option.elim_none, Site.run, h.run, Table.modify_eq_self, Site.chat_message]
  rfl

private theorem emitted_append (events events' : List (AgentEventType × Payload)) :
    emitted (emitted db run_id run events) run_id run events' =
      emitted db run_id run (events ++ events') := by
  simp [emitted, numbered_append, Nat.add_assoc]

/-- The agent's events are appended one after the other, each under the next id, and
change neither the run nor the session. -/
theorem emits_run (h : Held db run_id run session) (events : List (AgentEventType × Payload)) (j : Nat) :
    exec Solo.step (labels p clock uuids i (emits publishes j events)) ⟨db, .agent run_id run session⟩ =
      some ⟨emitted db run_id run events, .agent run_id run session⟩ := by
  induction events generalizing db i j with
  | nil => simp [emits, labels, exec, emitted, numbered]
  | cons event events ih =>
    have hheld : Held (emitted db run_id run [event]) run_id run session :=
      ⟨h.session, h.run, h.runtimes⟩
    have hcall : Solo.step ⟨db, .agent run_id run session⟩
        { pid := p, input := .agent (.emit event.1 event.2), now := clock i, uuid := uuids i } =
        some ⟨db, .append run_id run (.emitted session event.1 event.2) .flush⟩ := rfl
    rw [emits, List.cons_append, labels, exec, hcall, Option.bind_some, labels_append, exec_append,
      append_runs h emitted_fits, Option.bind_some, written_emitted h]
    exact (ih hheld ..).trans (by rw [emitted_append, List.singleton_append])

/-- The call gets to its agent: it locks the run, finds the session and appends
`run.started`. -/
theorem opening_runs (h : Held db run_id run session) (hpending : run.status = .PENDING)
    (hdeleted : session.deleted_at = none) (ok : Bool) :
    exec Solo.step (labels p clock uuids i ([.returned, .returned] ++ appends ok)) ⟨db, .select run_id⟩ =
      some ⟨run_executor.written db run_id run (.started session (clock (i + 1))),
        .agent run_id (start_run (clock (i + 1)) run) (start_session session)⟩ := by
  have hopen : exec Solo.step (labels p clock uuids i [.returned, .returned]) ⟨db, .select run_id⟩ =
      some ⟨db, .append run_id run (.started session (clock (i + 1))) .flush⟩ := by
    simp [labels, exec, Solo.step, Execute.resume, Solo.perform, h.run, h.session, hpending, hdeleted]
  rw [labels_append, exec_append, hopen, Option.bind_some, append_runs h (started_fits _)]
  rfl

/-- When the agent returns, the answer is committed first and the end of the run after
it. -/
theorem returns_run (h : Held db run_id run session) (hrunning : run.status = .RUNNING)
    (hunused : db.messages.get? (uuids (i + 3)) = none) (final_text : String) (j : Nat)
    (copy : AgentSession) :
    exec Solo.step (labels p clock uuids i (ends publishes j (.returns final_text)))
        ⟨db, .agent run_id run copy⟩ =
      some ⟨run_executor.written
        (run_executor.written db run_id run (.message session (uuids (i + 3)) final_text
          (db.next_message_sequence run.session_id) (clock (i + 3))))
        run_id (complete_run (clock (i + 3)) run) .completed, .returned⟩ := by
  generalize hsite : Site.message session (uuids (i + 3)) final_text
    (db.next_message_sequence run.session_id) (clock (i + 3)) = site
  have hfits : site.Fits db run session := by
    subst hsite
    refine ⟨by rintro x ⟨⟩; rfl, ?_⟩
    rintro _ _ _ _ _ ⟨⟩
    exact ⟨hunused, rfl⟩
  have hanswer : exec Solo.step
      (labels p clock uuids i [.agent (.returns final_text), .returned, .returned, .returned])
      ⟨db, .agent run_id run copy⟩ = some ⟨db, .append run_id run site .flush⟩ := by
    simp [labels, exec, Solo.step, Execute.resume, Solo.perform, h.run, h.session, hrunning, ← hsite]
  have hnext : after_append run_id (site.run run) site =
      .append run_id (site.run run) .completed .flush := by
    subst hsite
    rfl
  have hrun : site.run run = complete_run (clock (i + 3)) run := by
    subst hsite
    rfl
  rw [ends, List.append_assoc, labels_append, exec_append, hanswer, Option.bind_some, labels_append,
    exec_append, append_runs h hfits, Option.bind_some, hnext,
    append_runs (h.written hfits) completed_fits, hrun]
  rfl

/-- When the agent raises, the rollback drops nothing, and the failure is committed with
the error. -/
theorem raises_run (h : Held db run_id run session) (hrunning : run.status = .RUNNING)
    (error : String) (j : Nat) (copy : AgentSession) :
    exec Solo.step (labels p clock uuids i (ends publishes j (.raises error)))
        ⟨db, .agent run_id run copy⟩ =
      some ⟨run_executor.written db run_id run (.failed (some session) error (clock (i + 3))),
        .returned⟩ := by
  have hfits : (Site.failed (some session) error (clock (i + 3))).Fits db run session :=
    ⟨by rintro x ⟨⟩; rfl, by simp⟩
  have hreload : exec Solo.step
      (labels p clock uuids i [.agent (.raises error), .returned, .returned, .returned])
      ⟨db, .agent run_id run copy⟩ =
      some ⟨db, .append run_id run (.failed (some session) error (clock (i + 3))) .flush⟩ := by
    simp [labels, exec, Solo.step, Execute.resume, Solo.perform, h.run, h.session, hrunning]
  rw [ends, labels_append, exec_append, hreload, Option.bind_some, append_runs h hfits]
  rfl

end Phases

section Settled

variable (h : Held db run_id run session) (events : List (AgentEventType × Payload))
  (started finished : Time) (message_id : MessageId)
include h

/-- The rows while the agent works. -/
private theorem held_emitted :
    Held (emitted (run_executor.written db run_id run (.started session started)) run_id
        (start_run started run) events)
      run_id (start_run started run) (start_session session) := by
  have hheld := h.written (started_fits started)
  exact ⟨hheld.session, hheld.run, hheld.runtimes⟩

private theorem started_eq :
    emitted (run_executor.written db run_id run (.started session started)) run_id
        (start_run started run) events =
      { sessions := db.sessions.modify run.session_id fun _ => start_session session
        runs := db.runs.modify run_id fun _ => start_run started run
        messages := db.messages
        events := db.events ++ numbered run.session_id run_id db.next_event_id
          ((.RUN_STARTED, [("input", run.input)]) :: events.map fun event => (event.1.val, event.2))
        next_event_id := db.next_event_id + 1 + events.length } := by
  rw [h.written_eq (started_fits started)]
  simp [emitted, Site.session, Site.run, Site.chat_message, Site.event, Site.event_type,
    Site.payload, numbered, start_run]

private theorem returned_eq (hunused : db.messages.get? message_id = none) (final_text : String) :
    let db' := emitted (run_executor.written db run_id run (.started session started)) run_id
      (start_run started run) events
    run_executor.written
        (run_executor.written db' run_id (start_run started run)
          (.message (start_session session) message_id final_text
            (db'.next_message_sequence run.session_id) finished))
        run_id (complete_run finished (start_run started run)) .completed =
      settled db run_id run session events (.returns final_text) started finished message_id := by
  intro db'
  have hheld := held_emitted h events started
  have hmessages : db'.messages = db.messages := rfl
  have hsequence : db'.next_message_sequence run.session_id = db.next_message_sequence run.session_id := rfl
  have hfits : (Site.message (start_session session) message_id final_text
      (db'.next_message_sequence run.session_id) finished).Fits db' (start_run started run)
      (start_session session) := by
    refine ⟨by rintro x ⟨⟩; rfl, ?_⟩
    rintro _ _ _ _ _ ⟨⟩
    exact ⟨hmessages ▸ hunused, rfl⟩
  have hdone := hheld.written hfits
  refine (hdone.written_eq completed_fits).trans ?_
  rw [hheld.written_eq hfits, started_eq h events started]
  simp [settled, Site.session, Site.run, Site.chat_message, Site.event, Site.event_type,
    Site.payload, AgentOutcome.log, AgentOutcome.run, AgentOutcome.messages, Table.modify_modify,
    numbered_append, numbered, start_run, complete_run, start_session, ready_session,
    assistant_message, hsequence, RunStatus.value, Nat.add_assoc, Nat.add_comm, Nat.add_left_comm]
  omega

private theorem failed_eq (error : String) :
    run_executor.written
        (emitted (run_executor.written db run_id run (.started session started)) run_id
          (start_run started run) events)
        run_id (start_run started run) (.failed (some (start_session session)) error finished) =
      settled db run_id run session events (.raises error) started finished message_id := by
  have hfits : (Site.failed (some (start_session session)) error finished).Fits
      (emitted (run_executor.written db run_id run (.started session started)) run_id
        (start_run started run) events) (start_run started run) (start_session session) :=
    ⟨by rintro x ⟨⟩; rfl, by simp⟩
  rw [(held_emitted h events started).written_eq hfits, started_eq h events started]
  simp [settled, Site.session, Site.run, Site.chat_message, Site.event, Site.event_type,
    Site.payload, AgentOutcome.log, AgentOutcome.run, AgentOutcome.messages, Table.modify_modify,
    numbered_append, numbered, start_run, fail_run, start_session, ready_session, Nat.add_assoc,
    Nat.add_comm, Nat.add_left_comm]

end Settled

open course in
/-- The call from its first await to its end, with every publish ending or raising as it
likes. -/
theorem execute_runs {p : Pid} {clock : Nat → Time} {uuids : Nat → Uuid}
    (h : Held db run_id run session) (hpending : run.status = .PENDING)
    (hdeleted : session.deleted_at = none) (events : List (AgentEventType × Payload))
    (outcome : AgentOutcome) (publishes : Nat → Bool)
    (hunused : db.messages.get? (uuids (5 * events.length + 10)) = none) :
    exec Solo.step (labels p clock uuids 1 (inputs run_id events outcome publishes).tail)
        ⟨db, .select run_id⟩ =
      some ⟨settled db run_id run session events outcome (clock 2) (clock (5 * events.length + 10))
        (uuids (5 * events.length + 10)), .returned⟩ := by
  have hheld := held_emitted h events (clock 2)
  have hemits : exec Solo.step (labels p clock uuids 7 (emits publishes 1 events)) _ = _ :=
    emits_run (h.written (started_fits (clock 2))) events 1
  have hlength : 1 + ([Input.returned, .returned] ++ appends (publishes 0) ++
      emits publishes 1 events).length = 5 * events.length + 7 := by
    simp only [List.length_append, length_emits, appends, List.length_cons, List.length_nil]
    omega
  have hsplit : (inputs run_id events outcome publishes).tail =
      ([.returned, .returned] ++ appends (publishes 0)) ++ emits publishes 1 events ++
        ends publishes (events.length + 1) outcome := rfl
  rw [hsplit, labels_append, hlength, exec_append, labels_append, exec_append,
    opening_runs h hpending hdeleted, Option.bind_some]
  refine (congrArg (fun s => Option.bind s _) hemits).trans ?_
  rw [Option.bind_some]
  cases outcome with
  | returns final_text =>
    refine (returns_run hheld rfl hunused final_text _ _).trans ?_
    exact congrArg some (congrArg (Solo.mk · .returned)
      (returned_eq h events (clock 2) _ _ hunused final_text))
  | raises error =>
    refine (raises_run hheld rfl error _ _).trans ?_
    exact congrArg some (congrArg (Solo.mk · .returned) (failed_eq h events (clock 2) _ _ error))

end run_executor

private theorem untimed_settled (db : Database) (run_id : RunId) (run : AgentRun)
    (session : AgentSession) (events : List (AgentEventType × Payload)) (outcome : AgentOutcome)
    (started finished started' finished' : Time) (message_id : MessageId) :
    (settled db run_id run session events outcome started finished message_id).untimed =
      (settled db run_id run session events outcome started' finished' message_id).untimed := by
  have hruns : (db.runs.modify run_id fun _ => outcome.run started finished run).mapRows
        (fun _ run => { run with started_at := none, finished_at := none }) =
      (db.runs.modify run_id fun _ => outcome.run started' finished' run).mapRows
        (fun _ run => { run with started_at := none, finished_at := none }) := by
    simp only [Table.modify, Table.mapRows, Table.mk.injEq, List.map_map, List.map_inj_left]
    rintro ⟨id, row⟩ -
    by_cases hid : id = run_id
    · cases outcome <;> simp [hid, AgentOutcome.run]
    · simp [hid]
  simp only [Database.untimed, settled, hruns]

namespace World

open course

variable {w : World} {p : Pid} {run_id : RunId} {run : AgentRun} {session : AgentSession}

/-- A call of `execute` for a PENDING run of an undeleted session, with no other
operation running and every database call returning, leaves the run COMPLETED or
FAILED, the session READY, the answer if there is one, and the whole block of
the run in the log; and apart from the times the database does not depend on
which publishes end. -/
theorem execution_settles (hrun : Run World.step (fun _ _ => True) empty w)
    (hidle : ∀ p task, w.tasks.get? p = some task → task.ended = true)
    (hfresh : w.tasks.get? p = none) (hget : w.db.runs.get? run_id = some run)
    (hpending : run.status = .PENDING) (hsession : w.db.sessions.get? run.session_id = some session)
    (hdeleted : session.deleted_at = none) (events : List (AgentEventType × Payload))
    (outcome : AgentOutcome) (publishes : Nat → Bool) (clock : Nat → Time) (uuids : Nat → Uuid)
    (hunused : w.db.messages.get? (uuids (5 * events.length + 10)) = none) :
    ∃ w', exec World.step (labels p clock uuids 0 (inputs run_id events outcome publishes)) w = some w' ∧
      w'.tasks.get? p = some (.execute .returned) ∧
      w'.db = settled w.db run_id run session events outcome (clock 2)
        (clock (5 * events.length + 10)) (uuids (5 * events.length + 10)) ∧
      ∀ (publishes' : Nat → Bool) (clock' : Nat → Time) (w'' : World),
        exec World.step (labels p clock' uuids 0 (inputs run_id events outcome publishes')) w = some w'' →
        w''.db.untimed = w'.db.untimed := by
  have hheld : Held w.db run_id run session :=
    ⟨hsession, hget, (hrun.invariant (fun _ _ _ h _ hstep => h.step hstep) Consistent.empty).runtimes⟩
  have hruns (publishes : Nat → Bool) (clock : Nat → Time) : ∃ w',
      exec World.step (labels p clock uuids 0 (inputs run_id events outcome publishes)) w = some w' ∧
      w'.Mirrors p ⟨settled w.db run_id run session events outcome (clock 2)
        (clock (5 * events.length + 10)) (uuids (5 * events.length + 10)), .returned⟩ := by
    obtain ⟨w₁, hcall, hmirrors⟩ := Mirrors.called hrun hidle
      (l := ⟨p, .call (.execute run_id), clock 0, uuids 0⟩) hfresh rfl
    have hlabels : ∀ l ∈ labels p clock uuids 1 (inputs run_id events outcome publishes).tail,
        l.pid = p ∧ l.input.resumes = true := by
      intro l hl
      obtain ⟨hpid, hinput⟩ := mem_labels hl
      exact ⟨hpid, List.all_eq_true.mp inputs_resume _ (List.mem_of_mem_tail hinput)⟩
    obtain ⟨w', hexec, hend⟩ := hmirrors.exec hlabels
      (execute_runs hheld hpending hdeleted events outcome publishes hunused)
    exact ⟨w', (congrArg (fun w => Option.bind w _) hcall).trans hexec, hend⟩
  obtain ⟨w', hexec, hend⟩ := hruns publishes clock
  refine ⟨w', hexec, hend.task, hend.db, fun publishes' clock' w'' hexec' => ?_⟩
  obtain ⟨w₂, hexec₂, hend₂⟩ := hruns publishes' clock'
  obtain rfl : w'' = w₂ := Option.some.inj (hexec'.symm.trans hexec₂)
  rw [hend.db, hend₂.db, untimed_settled]

/-- An agent that reports one step and then fails, with every publish raising. -/
theorem execution_settles_failed : ∃ w w' : World,
    (w.db.runs.get? 20).map AgentRun.status = some .PENDING ∧
    (w'.db.runs.get? 20).map AgentRun.status = some .FAILED ∧
    (w'.db.sessions.get? 10).map AgentSession.status = some .READY ∧
    w'.db.events.map SessionEvent.event_type = [.RUN_STARTED, .TOOL_STARTED, .RUN_FAILED] := by
  obtain ⟨w, hrun, hidle, hfresh, ⟨run, hget, hpending, hid⟩, ⟨session, hsession, hdeleted⟩, hevents,
      hunused⟩ : ∃ w, Run World.step (fun _ _ => True) empty w ∧
      w.tasks.Forall (fun _ task => task.ended = true) ∧ w.tasks.get? 4 = none ∧
      (∃ run ∈ w.db.runs.get? 20, run.status = .PENDING ∧ run.session_id = 10) ∧
      (∃ session ∈ w.db.sessions.get? 10, session.deleted_at = none) ∧ w.db.events = [] ∧
      w.db.messages.get? 40 = none :=
    Run.exists_of_exec (fun _ _ => trivial) (creates 1 10 "c" ++ becomes_ready 1 ++
      through 1 [.returned] ++ submits 3 10 20 30 ++ through 3 [.returned]) _ (by decide +kernel)
  obtain ⟨w', -, -, hdb, -⟩ := execution_settles hrun hidle hfresh hget hpending (hid ▸ hsession)
    hdeleted [(⟨.TOOL_STARTED, rfl⟩, [])] (.raises "RuntimeError") (fun _ => false) (fun i => i)
    (fun _ => 40) hunused
  have hget' : w.db.runs.get? 20 = some run := hget
  have hsession' : w.db.sessions.get? 10 = some session := hsession
  refine ⟨w, w', by simp [hget', hpending], ?_, ?_, ?_⟩
  · simp [hdb, settled, hget', AgentOutcome.run]
  · simp [hdb, settled, hid, hsession']
  · simp [hdb, settled, hevents, AgentOutcome.log, numbered]

end World

end session_manager
