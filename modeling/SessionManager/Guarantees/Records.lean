import SessionManager.Guarantees.Conversation
import SessionManager.World.Solo

open transition unit_of_work

namespace session_manager

open sessions run_executor lifecycle schedule

/-- What the database says of a run: its status, whether it has an answer, and
its final events in the order of the log. -/
structure Record where
  status : Option RunStatus
  answered : Bool
  ends : List EventType
deriving DecidableEq

namespace Record

/-- The run is not RUNNING, and the other records say the same as its status. -/
structure Agrees (record : Record) : Prop where
  ended : record.status ≠ some .RUNNING
  failed : record.status = some .FAILED → record.answered = false ∧ .RUN_COMPLETED ∉ record.ends
  completed : record.status = some .COMPLETED → record.answered = true ∧ .RUN_FAILED ∉ record.ends

end Record

def Database.record (db : Database) (run_id : RunId) : Record where
  status := (db.runs.get? run_id).map AgentRun.status
  answered := !(db.messages_of run_id .ASSISTANT).isEmpty
  ends := (db.events.filter fun event =>
    event.run_id = some run_id && event.event_type.terminal).map SessionEvent.event_type

namespace run_executor

/-- The database calls of the executor that raise in a step. -/
def Execute.raises (db : Database) (l : Label) (task : Execute) : List Execute :=
  match l.input with
  | .failed => [task]
  | .returned =>
    match task with
    | .append run_id run site (.commit event_id) =>
      if db.conflict (append_transaction run_id run site event_id) then [task] else []
    | _ => []
  | _ => []

/-- The database calls whose exception leaves a run RUNNING or records that
disagree: the refresh after the commit of run.started, every call between the
commit of the answer and the end of the `try`, and the calls of the exception
handler up to the commit of run.failed. -/
def Execute.fatal : Execute → Bool
  | append _ _ (.started ..) .refresh | append _ _ (.message ..) .refresh
  | append _ _ .completed _ | append _ _ (.failed ..) .flush | append _ _ (.failed ..) (.commit _)
  | rollback .. | reload_run .. | reload_session .. => true
  | _ => false

/-- How far a call is. -/
inductive Standing
  | waiting
  | working
  | answered
  | reported
  | handling
  | failing
  | ended
deriving DecidableEq

def Site.standing (written : Bool) : Site → Standing
  | started .. => if written then .working else .waiting
  | emitted .. => .working
  | message .. => if written then .answered else .working
  | completed => if written then .reported else .answered
  | failed .. => if written then .failing else .handling

def Execute.standing : Execute → Standing
  | select _ | get_session .. => .waiting
  | append _ _ site stage => site.standing stage.written
  | agent .. | refresh_run .. | refresh_session .. | sequence .. => .working
  | rollback .. | reload_run .. | reload_session .. => .handling
  | returned | raised => .ended

/-- What a step of a call does: to how far the call is, and to the record of its
run. `raised` are the database calls that raise. -/
inductive Turn (raised : List Execute) : Standing → Record → Standing → Record → Prop
  | stay {st : Standing} {r : Record} (hraised : ∀ call ∈ raised, call.fatal = false) :
      Turn raised st r st r
  | decline {r : Record} (hraised : ∀ call ∈ raised, call.fatal = false) :
      Turn raised .waiting r .ended r
  | start {r : Record} (hraised : raised = []) :
      Turn raised .waiting r .working { r with status := some .RUNNING }
  | lose {r : Record} {call : Execute} (hraised : raised = [call]) (hfatal : call.fatal = true) :
      Turn raised .working r .ended r
  | except {r : Record} (hraised : ∀ call ∈ raised, call.fatal = false) :
      Turn raised .working r .handling r
  | answer {r : Record} (hraised : raised = []) :
      Turn raised .working r .answered { r with status := some .COMPLETED, answered := true }
  /-- The run is gone, or cancelled. -/
  | leave {st : Standing} {r : Record} (hst : st = .working ∨ st = .handling) (hraised : raised = [])
      (hgone : r.status = none ∨ r.status = some .CANCELLED) : Turn raised st r .ended r
  | slip {st : Standing} {r : Record} (hst : st = .answered ∨ st = .reported) {call : Execute}
      (hraised : raised = [call]) (hfatal : call.fatal = true) : Turn raised st r .handling r
  | report {r : Record} (hraised : raised = []) :
      Turn raised .answered r .reported { r with ends := r.ends ++ [.RUN_COMPLETED] }
  | finish {st : Standing} {r : Record} (hst : st = .reported ∨ st = .failing)
      (hraised : ∀ call ∈ raised, call.fatal = false) : Turn raised st r .ended r
  | give_up {r : Record} {call : Execute} (hraised : raised = [call]) (hfatal : call.fatal = true) :
      Turn raised .handling r .ended r
  | fail {r : Record} (hraised : raised = []) :
      Turn raised .handling r .failing
        { r with status := some .FAILED, ends := r.ends ++ [.RUN_FAILED] }

/-- The records as long as no fatal call has raised. -/
def Standing.Sound : Standing → Record → Prop
  | waiting, r => r = ⟨some .PENDING, false, []⟩
  | working, r | handling, r => r = ⟨some .RUNNING, false, []⟩
  | answered, r => r = ⟨some .COMPLETED, true, []⟩
  | reported, r => r = ⟨some .COMPLETED, true, [.RUN_COMPLETED]⟩
  | failing, r => r = ⟨some .FAILED, false, [.RUN_FAILED]⟩
  | ended, r => r.Agrees

/-- The records after a fatal call has raised. -/
def Standing.Torn : Standing → Record → Prop
  | handling, r => r.status = some .COMPLETED ∧ r.answered = true
  | failing, r => r.status = some .FAILED ∧ r.answered = true
  | ended, r => ¬ r.Agrees
  | waiting, _ | working, _ | answered, _ | reported, _ => False

/-- The records while at most one call has raised. -/
def Standing.Fits (raised : List Execute) (st : Standing) (r : Record) : Prop :=
  ((∀ call ∈ raised, call.fatal = false) → st.Sound r) ∧
  ((∃ call ∈ raised, call.fatal = true) → st.Torn r)

section Turns

variable {past raised : List Execute} {st st' : Standing} {r r' : Record} {call : Execute}

/-- A step in which no fatal call raises keeps what holds before and after such
a call. -/
private theorem Standing.Fits.of_harmless (h : st.Fits past r)
    (hraised : ∀ call ∈ raised, call.fatal = false) (hsound : st.Sound r → st'.Sound r')
    (htorn : st.Torn r → st'.Torn r') : st'.Fits (past ++ raised) r' where
  left hall := hsound (h.1 fun call hcall => hall call (List.mem_append_left _ hcall))
  right hfatal := by
    obtain ⟨call, hcall, hfatal⟩ := hfatal
    rcases List.mem_append.mp hcall with hcall | hcall
    · exact htorn (h.2 ⟨call, hcall, hfatal⟩)
    · simp [hraised call hcall] at hfatal

/-- The only call that raises is a fatal one. -/
private theorem Standing.Fits.of_fatal (h : st.Fits past r) (hraised : raised = [call])
    (hfatal : call.fatal = true) (hsingle : (past ++ raised).length ≤ 1)
    (htorn : st.Sound r → st'.Torn r') : st'.Fits (past ++ raised) r' := by
  subst hraised
  obtain rfl : past = [] := List.eq_nil_of_length_eq_zero (by simpa using hsingle)
  refine ⟨fun hall => ?_, fun _ => htorn (h.1 (by simp))⟩
  simpa [hfatal] using hall call (by simp)

/-- One turn of the executor keeps what the records say in step with where it stands, as
long as at most one database call has raised so far. -/
theorem Turn.fits (hturn : Turn raised st r st' r') (hsingle : (past ++ raised).length ≤ 1)
    (h : st.Fits past r) : st'.Fits (past ++ raised) r' := by
  cases hturn with
  | stay hraised => exact h.of_harmless hraised id id
  | decline hraised =>
    refine h.of_harmless hraised ?_ False.elim
    rintro rfl
    exact ⟨by simp, by simp, by simp⟩
  | start hraised =>
    refine h.of_harmless (by simp [hraised]) ?_ False.elim
    rintro rfl
    rfl
  | lose hraised hfatal =>
    refine h.of_fatal hraised hfatal hsingle ?_
    rintro rfl hagrees
    exact hagrees.ended rfl
  | except hraised => exact h.of_harmless hraised id False.elim
  | answer hraised =>
    refine h.of_harmless (by simp [hraised]) ?_ False.elim
    rintro rfl
    rfl
  | leave hst hraised hgone =>
    refine h.of_harmless (by simp [hraised]) ?_ ?_
    · rcases hst with rfl | rfl <;> rintro rfl <;> simp at hgone
    · rcases hst with rfl | rfl
      · exact False.elim
      · rintro ⟨hstatus, -⟩
        simp [hstatus] at hgone
  | slip hst hraised hfatal =>
    refine h.of_fatal hraised hfatal hsingle ?_
    rcases hst with rfl | rfl <;> rintro rfl <;> exact ⟨rfl, rfl⟩
  | report hraised =>
    refine h.of_harmless (by simp [hraised]) ?_ False.elim
    rintro rfl
    rfl
  | finish hst hraised =>
    refine h.of_harmless hraised ?_ ?_
    · rcases hst with rfl | rfl <;> rintro rfl <;> exact ⟨by simp, by simp, by simp⟩
    · rcases hst with rfl | rfl
      · exact False.elim
      · rintro ⟨hstatus, hanswered⟩ hagrees
        simpa [hanswered] using (hagrees.failed hstatus).1
  | give_up hraised hfatal =>
    refine h.of_fatal hraised hfatal hsingle ?_
    rintro rfl hagrees
    exact hagrees.ended rfl
  | fail hraised =>
    refine h.of_harmless (by simp [hraised]) ?_ ?_
    · rintro rfl
      rfl
    · rintro ⟨-, hanswered⟩
      exact ⟨rfl, hanswered⟩

end Turns

/-- The call works on the run, and its copy has the status of the row. -/
def Execute.Current (db : Database) (run_id : RunId) : Execute → Prop
  | select id => id = run_id
  | get_session id run | append id run _ _ | agent id run _ | refresh_run id run _
  | refresh_session id run _ | sequence id run _ _ | rollback id run _ | reload_run id run _
  | reload_session id run _ => id = run_id ∧ (db.record run_id).status = some run.status
  | returned | raised => True

/-- A step that changes no record of the run leaves the executor's copy of it current. -/
theorem Execute.Current.of_record {db db' : Database} {run_id : RunId} {task : Execute}
    (h : task.Current db run_id) (hrecord : db'.record run_id = db.record run_id) :
    task.Current db' run_id := by
  cases task with
  | select | returned | raised => exact h
  | _ => exact ⟨h.1, hrecord ▸ h.2⟩

section Append

variable {db : Database} {run_id : RunId} {run : AgentRun} {site : Site} {event_id : EventId}

/-- What the commit of an append adds to the record of its run. -/
def Site.mark (run : AgentRun) (r : Record) (site : Site) : Record where
  status := some (site.run run).status
  answered := r.answered || (site matches .message ..)
  ends := r.ends ++ if site.event_type.terminal then [site.event_type] else []

private theorem record_append (hstatus : (db.record run_id).status = some run.status)
    (hconflict : db.conflict (append_transaction run_id run site event_id) = false) :
    (db.apply (append_transaction run_id run site event_id)).record run_id =
      site.mark run (db.record run_id) := by
  obtain ⟨row, hget, hrow⟩ := Option.map_eq_some_iff.mp hstatus
  have hmessages : (db.apply (append_transaction run_id run site event_id)).messages_of run_id .ASSISTANT =
      db.messages_of run_id .ASSISTANT ++ _ := Database.apply_messages_of hconflict
  have hevents : (db.apply (append_transaction run_id run site event_id)).events =
      db.events ++ [site.event run_id run event_id] := rfl
  simp only [Database.record, Site.mark, Record.mk.injEq]
  refine ⟨?_, ?_, ?_⟩
  · rw [Database.apply_run_of_some hget]
    simp [append_transaction, update_row_getD, hrow]
  · rw [hmessages]
    cases site <;>
      simp [append_transaction, Transaction.messages, Site.chat_message, assistant_message]
  · rw [hevents, List.filter_append, List.map_append]
    congr 1
    simp only [Site.event, List.filter_cons, decide_true, Bool.true_and]
    split <;> rfl

/-- No agent emits the end of its run. -/
private theorem agent_not_terminal {event_type : EventType} (hagent : event_type.agent = true) :
    event_type.terminal = false := by
  cases event_type <;> first | rfl | exact absurd hagent (by decide)

private theorem mark_turn {r : Record} (hstatus : r.status = some run.status) (site : Site) :
    Turn [] (site.standing false) r (site.standing true) (site.mark run r) := by
  obtain ⟨status, answered, ends⟩ := r
  cases site with
  | started =>
    simp only [Site.mark, Site.event_type, EventType.terminal, Bool.or_false, Bool.false_eq_true,
      if_false, List.append_nil]
    exact .start rfl
  | emitted session event_type payload =>
    simp only [Site.mark, Site.event_type, agent_not_terminal event_type.property, Bool.or_false,
      Bool.false_eq_true, if_false, List.append_nil, Site.run, ← hstatus]
    exact .stay (by simp)
  | message =>
    simp only [Site.mark, Site.event_type, EventType.terminal, Bool.or_true, Bool.false_eq_true,
      if_false, List.append_nil]
    exact .answer rfl
  | completed =>
    simp only [Site.mark, Site.event_type, EventType.terminal, Bool.or_false, if_true, Site.run, ← hstatus]
    exact .report rfl
  | failed =>
    simp only [Site.mark, Site.event_type, EventType.terminal, Bool.or_false, if_true]
    exact .fail rfl

/-- How an append goes on when one of its database calls raises. -/
private theorem append_raised_turn (r : Record) (run_id : RunId) (run : AgentRun) (error : String)
    (site : Site) (stage : Stage) (hstage : stage ≠ .publish) :
    Turn [.append run_id run site stage] (site.standing stage.written) r
      (append_raised run_id run error site).standing r := by
  cases stage with
  | publish => exact absurd rfl hstage
  | flush | commit =>
    cases site with
    | started => exact .decline (by simp [Execute.fatal])
    | emitted => exact .stay (by simp [Execute.fatal])
    | message => exact .except (by simp [Execute.fatal])
    | completed => exact .slip (.inl rfl) rfl rfl
    | failed => exact .give_up rfl rfl
  -- the event and the assignments before it are committed by now
  | refresh =>
    cases site with
    | started => exact .lose rfl rfl
    | emitted => exact .stay (by simp [Execute.fatal])
    | message => exact .slip (.inl rfl) rfl rfl
    | completed => exact .slip (.inr rfl) rfl rfl
    | failed => exact .finish (.inr rfl) (by simp [Execute.fatal])

private theorem append_raised_current (hstatus : (db.record run_id).status = some run.status)
    (error : String) (site : Site) : (append_raised run_id run error site).Current db run_id := by
  cases site with
  | started | failed => trivial
  | emitted | message | completed => exact ⟨rfl, hstatus⟩

private theorem after_append_turn (r : Record) (run_id : RunId) (run : AgentRun) (site : Site) :
    Turn [] (site.standing true) r (after_append run_id run site).standing r := by
  cases site with
  | started | emitted | message => exact .stay (by simp)
  | completed => exact .finish (.inl rfl) (by simp)
  | failed => exact .finish (.inr rfl) (by simp)

private theorem after_append_current (hstatus : (db.record run_id).status = some run.status)
    (site : Site) : (after_append run_id run site).Current db run_id := by
  cases site with
  | started | emitted | message => exact ⟨rfl, hstatus⟩
  | completed | failed => trivial

end Append

/-- The commit of an append is refused, or leaves its mark. -/
private theorem commit_turn {db : Database} {run_id : RunId} {run : AgentRun} {site : Site}
    {event_id : EventId} (hstatus : (db.record run_id).status = some run.status) {s : Solo}
    (hs : s = if db.conflict (append_transaction run_id run site event_id) then
        ⟨db, append_raised run_id run "IntegrityError" site⟩
      else ⟨db.apply (append_transaction run_id run site event_id),
        .append run_id (site.run run) site .refresh⟩) {l : Label} (hinput : l.input = .returned) :
    s.task.Current s.db run_id ∧
      Turn (Execute.raises db l (.append run_id run site (.commit event_id))) (site.standing false)
        (db.record run_id) s.task.standing (s.db.record run_id) := by
  subst hs
  by_cases hconflict : db.conflict (append_transaction run_id run site event_id) = true
  · simp only [hconflict, if_true, Execute.raises, hinput]
    exact ⟨append_raised_current hstatus _ site,
      append_raised_turn _ run_id run _ site (.commit event_id) (by simp)⟩
  · rw [Bool.not_eq_true] at hconflict
    simp only [hconflict, Bool.false_eq_true, if_false, Execute.raises, hinput]
    rw [record_append hstatus hconflict]
    refine ⟨⟨rfl, ?_⟩, mark_turn hstatus site⟩
    rw [record_append hstatus hconflict]
    rfl

private theorem record_status {db : Database} {run_id : RunId} {run : AgentRun}
    (hget : db.runs.get? run_id = some run) : (db.record run_id).status = some run.status := by
  simp [Database.record, hget]

private theorem record_missing {db : Database} {run_id : RunId}
    (hget : db.runs.get? run_id = none) : (db.record run_id).status = none := by
  simp [Database.record, hget]

private theorem raises_returned (db : Database) {l : Label} (hinput : l.input = .returned)
    {task : Execute} (hcommit : ∀ id run site event_id, task ≠ .append id run site (.commit event_id)) :
    task.raises db l = [] := by
  simp only [Execute.raises, hinput]

private theorem raises_failed (db : Database) {l : Label} (hinput : l.input = .failed)
    (task : Execute) : task.raises db l = [task] := by
  simp only [Execute.raises, hinput]

private theorem raises_other (db : Database) {l : Label} {input : Input} (hinput : l.input = input)
    (hreturned : input ≠ .returned) (hfailed : input ≠ .failed) (task : Execute) :
    task.raises db l = [] := by
  unfold Execute.raises
  split
  · rename_i h
    exact absurd (hinput.symm.trans h) hfailed
  · rename_i h
    exact absurd (hinput.symm.trans h) hreturned
  · rfl

/-- The step is a turn of the run of the call, and keeps the copy current. -/
def Solo.Turns (run_id : RunId) (l : Label) (s s' : Solo) : Prop :=
  s'.task.Current s'.db run_id ∧
  Turn (s.task.raises s.db l) s.task.standing (s.db.record run_id) s'.task.standing (s'.db.record run_id)

section Awaits

variable {db : Database} {l : Label} {action : Action} {s : Solo} {run_id id : RunId} {run : AgentRun}
  {session : AgentSession} {final_text error : String}

private theorem select_turns (hcurrent : (Execute.select id).Current db run_id)
    (hresumes : Execute.Resumes db l (.select id) action)
    (hperform : Solo.perform ⟨db, .select id⟩ action = some s) : Solo.Turns run_id l ⟨db, .select id⟩ s := by
  obtain rfl : id = run_id := hcurrent
  unfold Solo.Turns
  cases hresumes with
  | missing hinput | taken hinput =>
    cases hperform
    rw [raises_returned db hinput (by simp)]
    exact ⟨trivial, .decline (by simp)⟩
  | lock hinput hget =>
    cases hperform
    rw [raises_returned db hinput (by simp)]
    exact ⟨⟨rfl, record_status hget⟩, .stay (by simp)⟩
  | select_failed hinput =>
    cases hperform
    rw [raises_failed db hinput]
    exact ⟨trivial, .decline (by simp [Execute.fatal])⟩

private theorem get_session_turns (hcurrent : (Execute.get_session id run).Current db run_id)
    (hresumes : Execute.Resumes db l (.get_session id run) action)
    (hperform : Solo.perform ⟨db, .get_session id run⟩ action = some s) :
    Solo.Turns run_id l ⟨db, .get_session id run⟩ s := by
  unfold Solo.Turns
  cases hresumes with
  | no_session hinput =>
    cases hperform
    rw [raises_returned db hinput (by simp)]
    exact ⟨trivial, .decline (by simp)⟩
  | start hinput =>
    cases hperform
    rw [raises_returned db hinput (by simp)]
    exact ⟨hcurrent, .stay (by simp)⟩
  | get_session_failed hinput =>
    cases hperform
    rw [raises_failed db hinput]
    exact ⟨trivial, .decline (by simp [Execute.fatal])⟩

private theorem append_turns {site : Site} {stage : Stage}
    (hcurrent : (Execute.append id run site stage).Current db run_id)
    (hresumes : Execute.Resumes db l (.append id run site stage) action)
    (hperform : Solo.perform ⟨db, .append id run site stage⟩ action = some s) :
    Solo.Turns run_id l ⟨db, .append id run site stage⟩ s := by
  obtain ⟨rfl, hstatus⟩ := hcurrent
  unfold Solo.Turns
  cases hresumes with
  | flush hinput | refresh hinput =>
    cases hperform
    rw [raises_returned db hinput (by simp)]
    exact ⟨⟨rfl, hstatus⟩, .stay (by simp)⟩
  | commit hinput => exact commit_turn hstatus (Option.some.inj hperform).symm hinput
  | @call_agent _ _ session now _ hinput =>
    cases hperform
    rw [raises_other db hinput (by simp) (by simp)]
    exact ⟨after_append_current hstatus (.started session now), after_append_turn _ id run (.started session now)⟩
  | publish hinput =>
    cases hperform
    rw [raises_other db hinput (by simp) (by simp)]
    exact ⟨after_append_current hstatus site, after_append_turn _ id run site⟩
  | append_failed hinput hstage =>
    cases hperform
    rw [raises_failed db hinput]
    exact ⟨append_raised_current hstatus _ site, append_raised_turn _ id run _ site stage hstage⟩

private theorem agent_turns (hcurrent : (Execute.agent id run session).Current db run_id)
    (hresumes : Execute.Resumes db l (.agent id run session) action)
    (hperform : Solo.perform ⟨db, .agent id run session⟩ action = some s) :
    Solo.Turns run_id l ⟨db, .agent id run session⟩ s := by
  unfold Solo.Turns
  cases hresumes with
  | emit hinput | answer hinput =>
    cases hperform
    rw [raises_other db hinput (by simp) (by simp)]
    exact ⟨hcurrent, .stay (by simp)⟩
  | raise hinput =>
    cases hperform
    rw [raises_other db hinput (by simp) (by simp)]
    exact ⟨hcurrent, .except (by simp)⟩

private theorem refresh_run_turns (hcurrent : (Execute.refresh_run id run final_text).Current db run_id)
    (hresumes : Execute.Resumes db l (.refresh_run id run final_text) action)
    (hperform : Solo.perform ⟨db, .refresh_run id run final_text⟩ action = some s) :
    Solo.Turns run_id l ⟨db, .refresh_run id run final_text⟩ s := by
  obtain ⟨rfl, hstatus⟩ := hcurrent
  unfold Solo.Turns
  cases hresumes with
  | run_lost hinput =>
    cases hperform
    rw [raises_returned db hinput (by simp)]
    exact ⟨⟨rfl, hstatus⟩, .except (by simp)⟩
  | refresh_run hinput hget =>
    cases hperform
    rw [raises_returned db hinput (by simp)]
    exact ⟨⟨rfl, record_status hget⟩, .stay (by simp)⟩
  | refresh_run_failed hinput =>
    cases hperform
    rw [raises_failed db hinput]
    exact ⟨⟨rfl, hstatus⟩, .except (by simp [Execute.fatal])⟩

private theorem refresh_session_turns
    (hcurrent : (Execute.refresh_session id run final_text).Current db run_id)
    (hresumes : Execute.Resumes db l (.refresh_session id run final_text) action)
    (hperform : Solo.perform ⟨db, .refresh_session id run final_text⟩ action = some s) :
    Solo.Turns run_id l ⟨db, .refresh_session id run final_text⟩ s := by
  obtain ⟨rfl, hstatus⟩ := hcurrent
  unfold Solo.Turns
  cases hresumes with
  | session_lost hinput =>
    cases hperform
    rw [raises_returned db hinput (by simp)]
    exact ⟨⟨rfl, hstatus⟩, .except (by simp)⟩
  | cancelled hinput hcancelled =>
    cases hperform
    rw [raises_returned db hinput (by simp)]
    exact ⟨trivial, .leave (.inl rfl) rfl (.inr (hcancelled ▸ hstatus))⟩
  | refresh_session hinput =>
    cases hperform
    rw [raises_returned db hinput (by simp)]
    exact ⟨⟨rfl, hstatus⟩, .stay (by simp)⟩
  | refresh_session_failed hinput =>
    cases hperform
    rw [raises_failed db hinput]
    exact ⟨⟨rfl, hstatus⟩, .except (by simp [Execute.fatal])⟩

private theorem sequence_turns (hcurrent : (Execute.sequence id run session final_text).Current db run_id)
    (hresumes : Execute.Resumes db l (.sequence id run session final_text) action)
    (hperform : Solo.perform ⟨db, .sequence id run session final_text⟩ action = some s) :
    Solo.Turns run_id l ⟨db, .sequence id run session final_text⟩ s := by
  unfold Solo.Turns
  cases hresumes with
  | sequence hinput =>
    cases hperform
    rw [raises_returned db hinput (by simp)]
    exact ⟨hcurrent, .stay (by simp)⟩
  | sequence_failed hinput =>
    cases hperform
    rw [raises_failed db hinput]
    exact ⟨hcurrent, .except (by simp [Execute.fatal])⟩

private theorem rollback_turns (hcurrent : (Execute.rollback id run error).Current db run_id)
    (hresumes : Execute.Resumes db l (.rollback id run error) action)
    (hperform : Solo.perform ⟨db, .rollback id run error⟩ action = some s) :
    Solo.Turns run_id l ⟨db, .rollback id run error⟩ s := by
  unfold Solo.Turns
  cases hresumes with
  | rollback hinput =>
    cases hperform
    rw [raises_returned db hinput (by simp)]
    exact ⟨hcurrent, .stay (by simp)⟩
  | rollback_failed hinput =>
    cases hperform
    rw [raises_failed db hinput]
    exact ⟨trivial, .give_up rfl rfl⟩

private theorem reload_run_turns (hcurrent : (Execute.reload_run id run error).Current db run_id)
    (hresumes : Execute.Resumes db l (.reload_run id run error) action)
    (hperform : Solo.perform ⟨db, .reload_run id run error⟩ action = some s) :
    Solo.Turns run_id l ⟨db, .reload_run id run error⟩ s := by
  obtain ⟨rfl, hstatus⟩ := hcurrent
  unfold Solo.Turns
  cases hresumes with
  | reload_missing hinput hget =>
    cases hperform
    rw [raises_returned db hinput (by simp)]
    exact ⟨trivial, .leave (.inr rfl) rfl (.inl (record_missing hget))⟩
  | reload_cancelled hinput hget hcancelled =>
    cases hperform
    rw [raises_returned db hinput (by simp)]
    exact ⟨trivial, .leave (.inr rfl) rfl (.inr (hcancelled ▸ record_status hget))⟩
  | reload_run hinput hget =>
    cases hperform
    rw [raises_returned db hinput (by simp)]
    exact ⟨⟨rfl, record_status hget⟩, .stay (by simp)⟩
  | reload_run_failed hinput =>
    cases hperform
    rw [raises_failed db hinput]
    exact ⟨trivial, .give_up rfl rfl⟩

private theorem reload_session_turns (hcurrent : (Execute.reload_session id run error).Current db run_id)
    (hresumes : Execute.Resumes db l (.reload_session id run error) action)
    (hperform : Solo.perform ⟨db, .reload_session id run error⟩ action = some s) :
    Solo.Turns run_id l ⟨db, .reload_session id run error⟩ s := by
  unfold Solo.Turns
  cases hresumes with
  | reload_session hinput =>
    cases hperform
    rw [raises_returned db hinput (by simp)]
    exact ⟨hcurrent, .stay (by simp)⟩
  | reload_session_failed hinput =>
    cases hperform
    rw [raises_failed db hinput]
    exact ⟨trivial, .give_up rfl rfl⟩

end Awaits

/-- Every step of a call is a turn of its run, whichever await it resumes from. The
cases follow the awaits of `execute`. -/
theorem Solo.step_turns {s s' : Solo} {l : Label} {run_id : RunId} (hcurrent : s.task.Current s.db run_id)
    (hstep : s.step l = some s') : Solo.Turns run_id l s s' := by
  obtain ⟨action, hresume, hperform⟩ := Option.bind_eq_some_iff.mp hstep
  obtain ⟨db, task⟩ := s
  have hresumes := Execute.resumes hresume
  cases task with
  | select => exact select_turns hcurrent hresumes hperform
  | get_session => exact get_session_turns hcurrent hresumes hperform
  | append => exact append_turns hcurrent hresumes hperform
  | agent => exact agent_turns hcurrent hresumes hperform
  | refresh_run => exact refresh_run_turns hcurrent hresumes hperform
  | refresh_session => exact refresh_session_turns hcurrent hresumes hperform
  | sequence => exact sequence_turns hcurrent hresumes hperform
  | rollback => exact rollback_turns hcurrent hresumes hperform
  | reload_run => exact reload_run_turns hcurrent hresumes hperform
  | reload_session => exact reload_session_turns hcurrent hresumes hperform
  | returned | raised => cases hresumes

end run_executor

namespace World

variable {w w' : World} {l : Label} {p : Pid} {run_id : RunId}

/-- Only runs that have begun have events, or a worker that emits some. -/
structure Reported (w : World) : Prop where
  events : ∀ event ∈ w.db.events, ∀ run_id, event.run_id = some run_id → w.begun run_id
  drains : ∀ p drain, w.drains.get? p = some drain → ∀ run_id, drain.run_id = some run_id → w.begun run_id

/-- Nothing has been reported of any run before the first call, and no run has ended. -/
theorem Reported.empty : Reported World.empty where
  events _ hevent := by cases hevent
  drains _ _ hdrain := by cases hdrain

/-- A worker is left behind by an executor inside its agent. -/
private theorem resume_leave_drain {db : Database} {task next : Task} {session_id : SessionId}
    (hresume : task.resume db l = some (.leave_drain session_id run_id next)) :
    ∃ run session, task = .execute (.agent run_id run session) := by
  obtain ⟨call, rfl⟩ := Task.execute_of_action hresume rfl
  cases Execute.resumes hresume with
  | raise => exact ⟨_, _, rfl⟩

private theorem Reported.step_drains (h : Reported w) (htalking : Talking w) (hstep : w.step l = some w')
    {q : Pid} {drain : Drain} (hdrain : w'.drains.get? q = some drain) (hr : drain.run_id = some run_id) :
    w.begun run_id := by
  cases stepped hstep with
  | called | killed | refused | committed => exact h.drains q drain (by simpa using hdrain) _ hr
  | drained _ _ _ hdrained =>
    obtain ⟨before, hbefore, hsame | hnone⟩ := hdrained.drains q drain hdrain
    · exact h.drains q before hbefore _ (hsame ▸ hr)
    · simp [hnone] at hr
  | @quiet _ task next action htask hresume hgoes hperform =>
    cases action with
    | commit => cases hgoes
    | lock_session | lock_run | lock_runs =>
      simp only [perform, Option.ite_none_right_eq_some, Option.some.injEq] at hperform
      obtain ⟨-, rfl⟩ := hperform
      exact h.drains q drain (by simpa using hdrain) _ hr
    | proceed | take_event_id | call_agent | see_healthy =>
      cases hperform
      exact h.drains q drain (by simpa using hdrain) _ hr
    | leave_drain id r next =>
      obtain ⟨run, session, rfl⟩ := resume_leave_drain hresume
      cases hperform
      rw [resume_drains, leave_drain_drains, Table.get?_assign] at hdrain
      split at hdrain
      · cases hdrain
        cases hr
        exact begun_of_work htalking.apart htask rfl (by simp)
      · exact h.drains q drain hdrain _ hr

private theorem Reported.step_events (h : Reported w) (htalking : Talking w) (hstep : w.step l = some w')
    {event : SessionEvent} (hevent : event ∈ w'.db.events) {r : RunId} (hr : event.run_id = some r) :
    w'.begun r := by
  have hkept (hold : event ∈ w.db.events) : w'.begun r :=
    begun_step htalking.consistent hstep (h.events event hold r hr)
  cases stepped hstep with
  | called | killed | refused => exact hkept (by simpa using hevent)
  | drained _ _ _ hdrained =>
    obtain hsame | ⟨last, hlast, -, q, drain, hdrain, hrun, -⟩ := hdrained.events
    · exact hkept (hsame ▸ hevent)
    · rw [hlast, List.mem_append, List.mem_singleton] at hevent
      rcases hevent with hold | rfl
      · exact hkept hold
      · exact begun_step htalking.consistent hstep (h.drains q drain hdrain r (hrun ▸ hr))
  | quiet _ _ hgoes hperform => exact hkept ((perform_quiet_events hgoes hperform).1 ▸ hevent)
  | committed htask hcommit =>
    simp only [commit_db, Database.apply, List.mem_append, Option.mem_toList] at hevent
    rcases hevent with hold | hnew
    · exact hkept hold
    · cases hcommit with
      | append run_id run site event_id =>
        cases hnew
        obtain rfl : run_id = r := Option.some.inj hr
        cases hphase : site.phase (site.run run).status true with
        | some ph =>
          have hwork : (Execute.append run_id (site.run run) site .refresh).work =
              some (run_id, site.run run, ph) := by
            simp [Execute.work, Stage.written, hphase]
          exact begun_of_work (htalking.step hstep).apart (p := l.pid) (by simp [htask]) hwork
            (Site.phase_of_written hphase)
        | none =>
          cases site with
          | failed =>
            exact begun_step htalking.consistent hstep (begun_of_work htalking.apart htask rfl (by simp))
          | started | emitted | message | completed => cases hphase
      | _ => cases hnew

/-- Whatever is reported of a run, by its executor or by a worker its agent has left
behind, was reported after the run had begun. -/
theorem Reported.step (h : Reported w) (htalking : Talking w) (hstep : w.step l = some w') :
    Reported w' where
  events _ hevent _ hr := h.step_events htalking hstep hevent hr
  drains _ _ hdrain _ hr :=
    begun_step htalking.consistent hstep (h.step_drains htalking hstep hdrain hr)

/-- What the database says of a PENDING run: it has neither an answer nor an event,
because nobody has begun it. -/
theorem record_of_pending {guard : World → Label → Prop} (hrun : Run World.step guard empty w)
    {run : AgentRun} (hget : w.db.runs.get? run_id = some run) (hpending : run.status = .PENDING) :
    w.db.record run_id = ⟨some .PENDING, false, []⟩ := by
  obtain ⟨htalking, hreported⟩ : Talking w ∧ Reported w := by
    refine hrun.invariant (I := fun w => Talking w ∧ Reported w) ?_ ⟨.empty, .empty⟩
    exact fun _ _ _ h _ hstep => ⟨h.1.step hstep, h.2.step h.1 hstep⟩
  have hnot : ¬ w.begun run_id := by
    rintro ⟨row, hrow, hne⟩
    obtain rfl := Option.some.inj (hget.symm.trans hrow)
    exact hne hpending
  have hanswer : w.db.messages_of run_id .ASSISTANT = [] := by
    by_contra hanswered
    exact hnot (htalking.replied.begun run_id hanswered)
  have hevents : w.db.events.filter (fun event =>
      event.run_id = some run_id && event.event_type.terminal) = [] := by
    refine List.filter_eq_nil_iff.mpr fun event hevent hmem => ?_
    simp only [Bool.and_eq_true, decide_eq_true_eq] at hmem
    exact hnot (hreported.events event hevent run_id hmem.1)
  simp [Database.record, hget, hpending, hanswer, hevents]

/-- The database calls of the executor that raise in a step. -/
def raises (w : World) (l : Label) : List Execute :=
  match w.tasks.get? l.pid with
  | some (.execute task) => task.raises w.db l
  | _ => []

/-- The database calls that raise while an executor takes these steps. -/
def raised : World → List Label → List Execute
  | _, [] => []
  | w, l :: ls => w.raises l ++ (w.step l).elim [] fun w' => w'.raised ls

/-- What an agent has left behind changes no record. -/
private theorem Drained.record (h : Drained w w') (run_id : RunId) :
    w'.db.record run_id = w.db.record run_id := by
  have hmessages : w'.db.messages_of run_id .ASSISTANT = w.db.messages_of run_id .ASSISTANT := by
    unfold Database.messages_of Database.said
    rw [h.messages]
  unfold Database.record
  rw [h.runs, hmessages]
  obtain hsame | ⟨event, hevents, hagent, -⟩ := h.events
  · rw [hsame]
  · simp [hevents, agent_not_terminal hagent]

private theorem drained_of_step {task : Task} (htask : w.tasks.get? l.pid = some task)
    (hkilled : l.input ≠ .killed) (hresumes : l.input.resumes = false) (hstep : w.step l = some w') :
    Drained w w' ∧ w.raises l = [] := by
  cases hinput : l.input with
  | killed => exact absurd hinput hkilled
  | drain move =>
    simp only [World.step, htask, hinput] at hstep
    split at hstep
    · exact ⟨.of_drain hstep, by simp [raises, htask, Execute.raises, hinput]⟩
    · cases hstep
  | _ => simp [hinput, Input.resumes] at hresumes

/-- The records of a run while at most one call of its executor raises. -/
private theorem fits_exec {ls : List Label} (hls : ∀ l ∈ ls, l.pid = p ∧ l.input ≠ .killed)
    (hexec : exec World.step ls w = some w') {task : Execute}
    (htask : w.tasks.get? p = some (.execute task)) (hcurrent : task.Current w.db run_id)
    {past : List Execute} (hsingle : (past ++ w.raised ls).length ≤ 1)
    (hfits : task.standing.Fits past (w.db.record run_id)) :
    ∃ task', w'.tasks.get? p = some (.execute task') ∧
      task'.standing.Fits (past ++ w.raised ls) (w'.db.record run_id) := by
  induction ls generalizing w task past with
  | nil =>
    cases hexec
    exact ⟨task, htask, by simpa [raised] using hfits⟩
  | cons l ls ih =>
    obtain ⟨next, hstep, hrest⟩ := Option.bind_eq_some_iff.mp hexec
    obtain ⟨rfl, hkilled⟩ := hls l List.mem_cons_self
    have hls' : ∀ m ∈ ls, m.pid = l.pid ∧ m.input ≠ .killed :=
      fun m hm => hls m (List.mem_cons_of_mem _ hm)
    have hraised : w.raised (l :: ls) = w.raises l ++ next.raised ls := by
      simp [raised, hstep]
    rw [hraised] at hsingle ⊢
    cases hresumes : l.input.resumes with
    | false =>
      -- the worker that the agent of this call has left behind goes on
      obtain ⟨hdrained, hnone⟩ := drained_of_step htask hkilled hresumes hstep
      rw [hnone, List.nil_append] at hsingle ⊢
      refine ih hls' hrest (hdrained.tasks ▸ htask) ?_ hsingle (hdrained.record run_id ▸ hfits)
      exact hcurrent.of_record (hdrained.record run_id)
    | true =>
      obtain ⟨s, hsolo, hdb, hnext⟩ := solo_of_step htask hresumes hstep
      obtain ⟨hcurrent', hturn⟩ := Solo.step_turns hcurrent hsolo
      have hcalls : w.raises l = task.raises w.db l := by
        simp [raises, htask]
      rw [hcalls, ← List.append_assoc] at hsingle ⊢
      have hpast : (past ++ task.raises w.db l).length ≤ 1 := by
        rw [List.length_append] at hsingle
        omega
      exact ih hls' hrest hnext (hdb ▸ hcurrent') hsingle (hdb ▸ hturn.fits hpast hfits)

/-- When a call of `execute` for a PENDING run is over and at most one of its database
calls has raised, the run is not RUNNING and its records agree, exactly if that call was
none of the fatal ones. -/
theorem records_agree_iff (hrun : Run World.step (fun _ _ => True) empty w) {run : AgentRun}
    (hget : w.db.runs.get? run_id = some run) (hpending : run.status = .PENDING) {call : Label}
    (hcall : call.input = .call (.execute run_id)) (hfresh : w.tasks.get? call.pid = none)
    {ls : List Label} (hls : ∀ l ∈ ls, l.pid = call.pid ∧ l.input ≠ .killed)
    (hexec : exec World.step (call :: ls) w = some w') {task : Task}
    (htask : w'.tasks.get? call.pid = some task) (hended : task.ended = true)
    (hsingle : (w.raised (call :: ls)).length ≤ 1) :
    (w'.db.record run_id).Agrees ↔ ∀ await ∈ w.raised (call :: ls), await.fatal = false := by
  obtain ⟨next, hstep, hrest⟩ := Option.bind_eq_some_iff.mp hexec
  have hspawned : next = { w with tasks := w.tasks.insert call.pid (.execute (.select run_id)) } := by
    simpa [World.step, hfresh, hcall, spawn, eq_comm] using hstep
  have hraised : w.raised (call :: ls) = next.raised ls := by
    simp [raised, raises, hfresh, hstep]
  have hdb : next.db = w.db := by rw [hspawned]
  have hrecord : next.db.record run_id = ⟨some .PENDING, false, []⟩ :=
    hdb ▸ record_of_pending hrun hget hpending
  have hselect : next.tasks.get? call.pid = some (.execute (.select run_id)) := by
    simp [hspawned, Table.get?_insert _ _ hfresh]
  have hfits : Standing.waiting.Fits [] (next.db.record run_id) :=
    ⟨fun _ => hrecord, by simp⟩
  rw [hraised] at hsingle ⊢
  obtain ⟨task', htask', hend⟩ := fits_exec hls hrest hselect rfl (by simpa using hsingle) hfits
  obtain rfl : Task.execute task' = task := Option.some.inj (htask'.symm.trans htask)
  have hover : task'.standing = .ended := by
    cases task' <;> first | rfl | cases hended
  rw [hover, List.nil_append] at hend
  constructor
  · intro hagrees
    by_contra hfatal
    refine hend.2 ?_ hagrees
    simpa using hfatal
  · exact hend.1

/-- The refresh of the run after the agent's answer raises: the run is FAILED, without
an answer, and its records agree on that. -/
theorem records_agree_failed : ∃ w w' : World,
    (w.db.runs.get? 20).map AgentRun.status = some .PENDING ∧
    (w'.db.runs.get? 20).map AgentRun.status = some .FAILED ∧ (w'.db.record 20).Agrees := by
  generalize hcall : Label.mk 4 (.call (.execute 20)) 0 0 = call
  generalize hls : through 4 [.returned] ++ starts 4 ++ through 4 [.agent (.returns "done"), .failed] ++
    handles 4 = ls
  obtain ⟨w, hrun, ⟨run, hget, hpending⟩, hfresh, hexec⟩ : ∃ w, Run World.step (fun _ _ => True) empty w ∧
      (∃ run ∈ w.db.runs.get? 20, run.status = .PENDING) ∧ w.tasks.get? 4 = none ∧
      (exec World.step (call :: ls) w).any (fun w' =>
        (w'.db.runs.get? 20).map AgentRun.status = some .FAILED ∧
        (w'.tasks.get? 4).any Task.ended = true ∧ (w.raised (call :: ls)).length ≤ 1 ∧
        ∀ await ∈ w.raised (call :: ls), await.fatal = false) = true := by
    subst hcall hls
    exact Run.exists_of_exec (fun _ _ => trivial) (creates 1 10 "c" ++ becomes_ready 1 ++
      submits 3 10 20 30) _ (by decide +kernel)
  obtain ⟨w', hexec, htest⟩ := Option.any_eq_true _ _ |>.mp hexec
  obtain ⟨hfailed, hended, hsingle, hharmless⟩ := of_decide_eq_true htest
  obtain ⟨task, htask, hended⟩ := Option.any_eq_true _ _ |>.mp hended
  have hget' : w.db.runs.get? 20 = some run := hget
  refine ⟨w, w', by simp [hget', hpending], hfailed, ?_⟩
  subst hcall
  refine (records_agree_iff hrun hget hpending rfl hfresh ?_ hexec htask hended hsingle).mpr hharmless
  subst hls
  simp [through, starts, handles]

/-- The refresh after the commit of run.completed raises: the run is FAILED, but with
its answer and its run.completed. -/
theorem records_disagree : ∃ w w' : World, ∃ ls : List Label,
    Run World.step (fun _ _ => True) empty w ∧
    (w.db.runs.get? 20).map AgentRun.status = some .PENDING ∧ w.tasks.get? 4 = none ∧
    exec World.step (through 4 [.call (.execute 20)] ++ ls) w = some w' ∧
    (∀ l ∈ ls, l.pid = 4 ∧ l.input ≠ .killed) ∧ (w'.tasks.get? 4).any Task.ended = true ∧
    (w.raised (through 4 [.call (.execute 20)] ++ ls)).length = 1 ∧
    w'.db.record 20 = ⟨some .FAILED, true, [.RUN_COMPLETED, .RUN_FAILED]⟩ ∧
    ¬ (w'.db.record 20).Agrees := by
  generalize hls : through 4 [.returned] ++ starts 4 ++ agent_returns 4 ++ completes 4 40 ++
    through 4 [.returned, .published true, .returned, .returned, .failed] ++ handles 4 = ls
  obtain ⟨w, hrun, hpending, hfresh, hexec⟩ : ∃ w, Run World.step (fun _ _ => True) empty w ∧
      (w.db.runs.get? 20).map AgentRun.status = some .PENDING ∧ w.tasks.get? 4 = none ∧
      (exec World.step (through 4 [.call (.execute 20)] ++ ls) w).any (fun w' =>
        (w'.tasks.get? 4).any Task.ended = true ∧
        (w.raised (through 4 [.call (.execute 20)] ++ ls)).length = 1 ∧
        w'.db.record 20 = ⟨some .FAILED, true, [.RUN_COMPLETED, .RUN_FAILED]⟩) = true := by
    subst hls
    exact Run.exists_of_exec (fun _ _ => trivial) (creates 1 10 "c" ++ becomes_ready 1 ++
      submits 3 10 20 30) _ (by decide +kernel)
  obtain ⟨w', hexec, htest⟩ := Option.any_eq_true _ _ |>.mp hexec
  obtain ⟨hended, hsingle, hrecord⟩ := of_decide_eq_true htest
  refine ⟨w, w', ls, hrun, hpending, hfresh, hexec, ?_, hended, hsingle, hrecord, fun hagrees => ?_⟩
  · subst hls
    simp [through, starts, agent_returns, completes, handles]
  · have hunanswered := (hagrees.failed (by rw [hrecord])).1
    rw [hrecord] at hunanswered
    cases hunanswered

end World

end session_manager
