import SessionManager.Guarantees.AgentCalls
import SessionManager.Lifecycle.Apart
import SessionManager.World.Messages
import SessionManager.World.Schedule

open transition unit_of_work

namespace session_manager

open sessions run_executor lifecycle schedule

/-- The run the call may still answer. -/
def run_executor.Execute.answers : Execute → Option RunId
  | get_session run_id _ | agent run_id .. | refresh_run run_id .. | refresh_session run_id ..
  | sequence run_id .. => some run_id
  | append run_id _ site stage =>
    match site with
    | .started .. | .emitted .. => some run_id
    | .message .. => if stage.written then none else some run_id
    | .completed | .failed .. => none
  | _ => none

def Task.answers : Task → Option RunId
  | execute task => task.answers
  | _ => none

private theorem run_executor.Execute.work_of_answers {call : Execute} {run_id : RunId}
    (h : call.answers = some run_id) : ∃ run ph, call.work = some (run_id, run, ph) := by
  cases call with
  | append id run site stage =>
    cases site with
    | started | emitted =>
      cases h
      exact ⟨_, _, rfl⟩
    | message =>
      cases stage with
      | flush | commit =>
        cases h
        exact ⟨_, _, rfl⟩
      | refresh | publish => cases h
    | completed | failed => cases h
  | get_session | agent | refresh_run | refresh_session | sequence =>
    cases h
    exact ⟨_, _, rfl⟩
  | select | rollback | reload_run | reload_session | returned | raised => cases h

section Resume

variable {db : Database} {l : Label} {task next conflict : Task} {action : Action} {tx : Transaction}
  {run_id : RunId}

private theorem answers_after_append {run : AgentRun} {site : Site} {r : RunId}
    (h : (after_append r run site).answers = some run_id) :
    (Execute.append r run site .publish).answers = some run_id := by
  cases site <;> exact h

private theorem answers_append_raised {run : AgentRun} {error : String} {site : Site} {stage : Stage}
    {r : RunId} (h : (append_raised r run error site).answers = some run_id) :
    (Execute.append r run site stage).answers = some run_id := by
  cases site <;> first | exact h | cases h

/-- An executor may answer a run because it could before, or because it has just
locked it PENDING. -/
private theorem answers_of_execute {call : Execute} (hresume : call.resume db l = some action)
    (hgoes : action.goes = some next) (hnext : next.answers = some run_id) :
    call.answers = some run_id ∨
      ∃ run, db.runs.get? run_id = some run ∧ run.status = .PENDING := by
  cases Execute.resumes hresume with
  | @lock _ run _ hget hpending =>
    cases hgoes
    cases hnext
    exact .inr ⟨run, hget, hpending⟩
  | @flush _ _ site | @refresh _ _ site =>
    cases hgoes
    cases site <;> exact .inl hnext
  | call_agent | publish =>
    cases hgoes
    exact .inl (answers_after_append hnext)
  | append_failed =>
    cases hgoes
    exact .inl (answers_append_raised hnext)
  | start | emit | answer | refresh_run | refresh_session | sequence =>
    cases hgoes
    exact .inl hnext
  | commit => cases hgoes
  | _ =>
    cases hgoes
    cases hnext

private theorem Task.answers_of_resume (hresume : task.resume db l = some action)
    (hgoes : action.goes = some next) (hnext : next.answers = some run_id) :
    task.answers = some run_id ∨
      ∃ run, db.runs.get? run_id = some run ∧ run.status = .PENDING := by
  have hservice := Task.service_of_resume hresume hgoes
  cases task with
  | execute call => exact answers_of_execute hresume hgoes hnext
  | killed => cases hresume
  | create_session | create_run | stop_session | delete_session | reconcile =>
    cases next <;> cases hservice
    cases hnext

/-- A commit leaves an executor that may answer its run where it was. -/
private theorem Commit.answers_before (h : Commit l task tx next conflict) :
    (next.answers = some run_id → task.answers = some run_id) ∧
      (conflict.answers = some run_id → task.answers = some run_id) := by
  cases h with
  | append run_id run site =>
    refine ⟨fun hnext => ?_, answers_append_raised⟩
    cases site <;> first | exact hnext | cases hnext
  | _ =>
    refine ⟨fun hnext => ?_, fun hnext => ?_⟩
    · cases hnext
    · cases hnext

/-- A commit never changes the input of a run, and only the commit of an answer makes a
run COMPLETED. -/
theorem Commit.run_update (h : Commit l task tx next conflict) (r : RunId) (row : AgentRun) :
    ((tx.update_run r).getD id row).input = row.input ∧
    (((tx.update_run r).getD id row).status = .COMPLETED →
      row.status = .COMPLETED ∨ ∃ run session message_id final_text sequence now event_id,
        task = .execute (.append r run (.message session message_id final_text sequence now)
          (.commit event_id))) := by
  cases h with
  | insert_session | create_failed | create_ready | create_run | reconcile =>
    exact ⟨rfl, .inl⟩
  | stopping | stop_failed | stopped | deleted =>
    simp only [stop_transaction, cancel_rows]
    split
    · exact ⟨rfl, fun hstatus => by cases hstatus⟩
    · exact ⟨rfl, .inl⟩
  | append run_id run site event_id =>
    simp only [append_transaction, update_row_getD]
    split
    · rename_i hr
      subst hr
      constructor
      · have hinput : (site.run run).input = run.input := by cases site <;> rfl
        have hwrite : (Loaded.write ⟨run, site.run run⟩ row).input =
            column run.input (site.run run).input row.input := rfl
        rw [hwrite, hinput, column_self]
      · intro hstatus
        rw [AgentRun.write_status] at hstatus
        cases site with
        | message => exact .inr ⟨_, _, _, _, _, _, _, rfl⟩
        | emitted | completed =>
          simp only [Site.run, column_self] at hstatus
          exact .inl hstatus
        | started | failed =>
          rcases column_eq_or run.status _ row.status with hcolumn | hcolumn
          · rw [hcolumn] at hstatus
            cases hstatus
          · exact .inl (hcolumn.symm.trans hstatus)
    · exact ⟨rfl, .inl⟩

/-- The messages of a run are inserted with the run, as its USER message, or by its
executor, as its ASSISTANT message. -/
theorem Commit.message_cases (h : Commit l task tx next conflict) {m : ChatMessage}
    (hm : m ∈ tx.messages) :
    (∃ request run_id sequence, m = user_message request run_id sequence ∧
      tx.insert_run = some (run_id, new_run request)) ∨
    ∃ run_id run session message_id final_text sequence now event_id,
      m = assistant_message run_id run final_text sequence ∧
      task = .execute (.append run_id run (.message session message_id final_text sequence now)
        (.commit event_id)) ∧ tx.insert_run = none := by
  cases h with
  | create_run request session run_id message_id sequence =>
    obtain rfl := List.mem_singleton.mp hm
    exact .inl ⟨request, run_id, sequence, rfl, rfl⟩
  | append run_id run site event_id =>
    cases site with
    | message =>
      obtain rfl := List.mem_singleton.mp hm
      exact .inr ⟨_, _, _, _, _, _, _, _, rfl, rfl, rfl⟩
    | started | emitted | completed | failed => cases hm
  | insert_session | create_failed | create_ready | stopping | stop_failed | stopped | deleted
  | reconcile => cases hm

/-- A run is inserted together with its first message, in one transaction, which holds
the input of the request. -/
theorem Commit.insert_run_cases (h : Commit l task tx next conflict) {r : RunId} {run : AgentRun}
    (hinsert : tx.insert_run = some (r, run)) :
    ∃ request sequence, run = new_run request ∧ tx.messages = [user_message request r sequence] := by
  cases h with
  | create_run request session run_id message_id sequence =>
    cases hinsert
    exact ⟨request, sequence, rfl, rfl⟩
  | _ => cases hinsert

end Resume

namespace World

variable {w w' : World} {l : Label} {p q : Pid} {run_id : RunId}

/-- Every run has one message of the user, which holds its input, and every
message of a run belongs to a run that exists. -/
structure Asked (w : World) : Prop where
  question : ∀ run_id run, w.db.runs.get? run_id = some run →
    ∃ question, w.db.messages_of run_id .USER = [question] ∧
      question.content = [("text", run.input)] ∧ question.session_id = run.session_id
  known : ∀ run_id role, w.db.runs.get? run_id = none → w.db.messages_of run_id role = []

/-- There are no runs to be asked before the first call, and no messages either. -/
theorem Asked.empty : Asked World.empty where
  question _ _ hget := by cases hget
  known _ _ _ := rfl

/-- The row of a run after a commit was there before, or is the new one. -/
private theorem committed_run {task next conflict : Task} {tx : Transaction}
    (hcommit : Commit l task tx next conflict) {row' : AgentRun}
    (hget : (w.db.apply tx).runs.get? run_id = some row') :
    (∃ row, w.db.runs.get? run_id = some row ∧ row' = (tx.update_run run_id).getD id row ∧
      SameRun row row' ∧ row'.input = row.input) ∨
    (w.db.runs.get? run_id = none ∧ tx.insert_run = some (run_id, row')) := by
  rcases Database.apply_run_cases hget with ⟨row, hold, rfl⟩ | hnew
  · exact .inl ⟨row, hold, rfl, hcommit.keepsRuns.getD run_id row,
      (hcommit.run_update run_id row).1⟩
  · exact .inr hnew

/-- The executor that is about to answer a run works on it. -/
private theorem row_of_answer (hconsistent : w.Consistent) {run : AgentRun} {session : AgentSession}
    {message_id : MessageId} {final_text : String} {sequence : Nat} {now : Time} {stage : Stage}
    (hstage : stage.written = false)
    (htask : w.tasks.get? p = some (.execute (.append run_id run
      (.message session message_id final_text sequence now) stage))) :
    ∃ row, w.db.runs.get? run_id = some row ∧ row.session_id = run.session_id := by
  obtain ⟨⟨row, hget, hsame⟩, -⟩ := hconsistent.tasks p _ htask run_id run (.deciding run.status)
    (by simp [Execute.work, Site.phase, hstage])
  exact ⟨row, hget, hsame.1⟩

namespace Asked

/-- A run that is there is asked nothing more. -/
private theorem no_question {task next conflict : Task} {tx : Transaction}
    (hcommit : Commit l task tx next conflict) (hconflict : w.db.conflict tx = false)
    {row : AgentRun} (hget : w.db.runs.get? run_id = some row) :
    (tx.messages.filter fun m => m.run_id = some run_id ∧ m.role = .USER) = [] := by
  refine List.filter_eq_nil_iff.mpr fun m hm => ?_
  rw [decide_eq_true_eq]
  rintro ⟨hrun, hrole⟩
  rcases hcommit.message_cases hm with ⟨request, r, sequence, rfl, hinsert⟩ |
    ⟨r, run, _, _, final_text, sequence, _, _, rfl, -⟩
  · obtain rfl : r = run_id := Option.some.inj hrun
    have hfresh := (Database.conflict_eq_false hconflict).2.1 _ hinsert
    have hnone := (Database.run_conflict_eq_false hfresh).1
    simp [hget] at hnone
  · cases hrole

private theorem questions_step (hstep : w.step l = some w') {row : AgentRun}
    (hget : w.db.runs.get? run_id = some row) :
    w'.db.messages_of run_id .USER = w.db.messages_of run_id .USER := by
  cases step_said hstep with
  | silent hmessages => simp [Database.messages_of, Database.said, hmessages]
  | committed _ hcommit hconflict _ hdb =>
    rw [hdb, Database.apply_messages_of hconflict, no_question hcommit hconflict hget,
      List.append_nil]

variable (h : Asked w)
include h

private theorem step_question (hstep : w.step l = some w') {row' : AgentRun}
    (hget : w'.db.runs.get? run_id = some row') :
    ∃ question, w'.db.messages_of run_id .USER = [question] ∧
      question.content = [("text", row'.input)] ∧ question.session_id = row'.session_id := by
  cases step_said hstep with
  | silent hmessages hruns =>
    rw [hruns] at hget
    rw [questions_step hstep hget]
    exact h.question run_id row' hget
  | @committed _ _ _ tx _ hcommit hconflict _ hdb =>
    rw [hdb] at hget
    rcases committed_run hcommit hget with ⟨row, hold, -, hsame, hinput⟩ | ⟨hnone, hinsert⟩
    · obtain ⟨question, hquestion, hcontent, hsession⟩ := h.question run_id row hold
      rw [questions_step hstep hold]
      exact ⟨question, hquestion, hinput.symm ▸ hcontent, hsession.trans hsame.1.symm⟩
    · rw [hdb, Database.apply_messages_of hconflict]
      obtain ⟨request, sequence, rfl, hmessages⟩ := hcommit.insert_run_cases hinsert
      refine ⟨user_message request run_id sequence, ?_, rfl, rfl⟩
      rw [h.known run_id .USER hnone, hmessages]
      simp [user_message]

private theorem step_known (hconsistent : w.Consistent) (hstep : w.step l = some w')
    (hnone : w'.db.runs.get? run_id = none) (role : MessageRole) :
    w'.db.messages_of run_id role = [] := by
  have hold : w.db.runs.get? run_id = none := by
    cases hget : w.db.runs.get? run_id with
    | none => rfl
    | some row =>
      obtain ⟨row', hget', -⟩ := step_same hstep hget
      simp [hnone] at hget'
  cases step_said hstep with
  | silent hmessages =>
    simpa [Database.messages_of, Database.said, hmessages] using h.known run_id role hold
  | @committed _ _ _ tx htask hcommit hconflict _ hdb =>
    rw [hdb, Database.apply_messages_of hconflict, h.known run_id role hold, List.nil_append]
    refine List.filter_eq_nil_iff.mpr fun m hm => ?_
    rw [decide_eq_true_eq]
    rintro ⟨hrun, -⟩
    rcases hcommit.message_cases hm with ⟨request, r, sequence, rfl, hinsert⟩ |
      ⟨r, run, _, _, final_text, sequence, _, _, rfl, rfl, -⟩
    · obtain rfl : r = run_id := Option.some.inj hrun
      rw [hdb, Database.apply_insert_run hinsert hold, if_pos rfl] at hnone
      cases hnone
    · obtain rfl : r = run_id := Option.some.inj hrun
      obtain ⟨row, hget, -⟩ := row_of_answer hconsistent rfl htask
      simp [hold] at hget

/-- Every step keeps the question of each run: a run is inserted with it, and nobody
adds a second one. -/
theorem step (hconsistent : w.Consistent) (hstep : w.step l = some w') : Asked w' where
  question _ _ := h.step_question hstep
  known _ role hnone := h.step_known hconsistent hstep hnone role

/-- The messages of a run are messages of its session, so their numbers are among those
of the session. -/
theorem sequence_mem {row : AgentRun} (hget : w.db.runs.get? run_id = some row)
    {question : ChatMessage} (hquestion : question ∈ w.db.messages_of run_id .USER) :
    question.sequence ∈ w.db.sequences row.session_id := by
  obtain ⟨question', hall, -, hsession⟩ := h.question run_id row hget
  obtain rfl : question = question' := by simpa [hall] using hquestion
  have hsaid : question ∈ w.db.said := (List.mem_filter.mp hquestion).1
  exact List.mem_map_of_mem (List.mem_filter.mpr ⟨hsaid, by simpa using hsession⟩)

end Asked

/-- An executor that may still answer its run finds it unanswered; a run has one
answer at most, below its question, and has one when it is COMPLETED. -/
structure Replied (w : World) : Prop where
  open_run : ∀ p task run_id, w.tasks.get? p = some task → task.answers = some run_id →
    w.db.messages_of run_id .ASSISTANT = []
  begun : ∀ run_id, w.db.messages_of run_id .ASSISTANT ≠ [] → w.begun run_id
  single : ∀ run_id, (w.db.messages_of run_id .ASSISTANT).length ≤ 1
  later : ∀ run_id, ∀ question ∈ w.db.messages_of run_id .USER,
    ∀ answer ∈ w.db.messages_of run_id .ASSISTANT, question.sequence < answer.sequence
  completed : ∀ run_id run, w.db.runs.get? run_id = some run → run.status = .COMPLETED →
    w.db.messages_of run_id .ASSISTANT ≠ []

/-- There are no runs to be answered before the first call. -/
theorem Replied.empty : Replied World.empty where
  open_run _ _ _ htask := by cases htask
  begun _ hanswered := absurd rfl hanswered
  single _ := Nat.zero_le _
  later _ _ hquestion := by cases hquestion
  completed _ _ hget := by cases hget

/-- The invariants under which a step is looked at. -/
structure Talking (w : World) : Prop where
  consistent : w.Consistent
  apart : ∀ session_id, Apart (w.lifecycle session_id)
  numbered : Numbered w
  asked : Asked w
  replied : Replied w

/-- What a step adds to the answers of a run: nothing, or the answer of its
executor, under the next number of the session. -/
inductive Replies (w : World) (l : Label) (w' : World) (run_id : RunId) : Prop
  | same (hsame : w'.db.messages_of run_id .ASSISTANT = w.db.messages_of run_id .ASSISTANT)
  | answered {run : AgentRun} {session : AgentSession} {message_id : MessageId} {final_text : String}
      {sequence : Nat} {now : Time} {event_id : EventId} {next : Task}
      (htask : w.tasks.get? l.pid = some (.execute (.append run_id run
        (.message session message_id final_text sequence now) (.commit event_id))))
      (hsequence : sequence = (w.db.sequences run.session_id).length + 1)
      (hanswers : w'.db.messages_of run_id .ASSISTANT = w.db.messages_of run_id .ASSISTANT ++
        [assistant_message run_id run final_text sequence])
      (hnext : w'.tasks.get? l.pid = some next) (hdone : next.answers = none)

/-- What a step does to the answers of a run, as `Replies` lists it: the only writer is
the executor that is about to complete the run. -/
theorem step_replies (hnumbered : Numbered w) (hstep : w.step l = some w') (run_id : RunId) :
    Replies w l w' run_id := by
  cases step_said hstep with
  | silent hmessages => exact .same (by simp [Database.messages_of, Database.said, hmessages])
  | @committed task next _ tx htask hcommit hconflict hnext hdb =>
    have happly : w'.db.messages_of run_id .ASSISTANT = _ := hdb ▸ Database.apply_messages_of hconflict
    cases hcommit with
    | append r run site event_id =>
      cases site with
      | message session message_id final_text sequence now =>
        have hsequence : sequence = (w.db.sequences run.session_id).length + 1 :=
          hnumbered.sequence_eq htask (.append ..) hconflict
            (m := assistant_message r run final_text sequence) (List.mem_singleton_self _)
        by_cases hr : r = run_id
        · subst hr
          refine .answered htask hsequence ?_ hnext rfl
          rw [happly]
          simp [Transaction.messages, append_transaction, Site.chat_message, assistant_message]
        · refine .same ?_
          rw [happly]
          simp [Transaction.messages, append_transaction, Site.chat_message, assistant_message, hr]
      | started | emitted | completed | failed =>
        exact .same (happly.trans (List.append_nil _))
    | create_run =>
      refine .same ?_
      rw [happly]
      simp [Transaction.messages, run_transaction, user_message]
    | insert_session | create_failed | create_ready | stopping | stop_failed | stopped | deleted
    | reconcile => exact .same (happly.trans (List.append_nil _))

private theorem works_of_answers {task : Task} (htask : w.tasks.get? p = some task)
    (h : task.answers = some run_id) : ∃ call run ph, task = .execute call ∧
      call.work = some (run_id, run, ph) ∧
      (w.lifecycle run.session_id).views p = .exec run_id ph := by
  cases task with
  | execute call =>
    obtain ⟨run, ph, hwork⟩ := Execute.work_of_answers h
    exact ⟨call, run, ph, rfl, hwork, views_of_work htask hwork⟩
  | _ => cases h

/-- A run has begun once its executor is past the start: the executors of a session are
kept apart, relapses included. -/
theorem begun_of_work (hapart : ∀ session_id, Apart (w.lifecycle session_id)) {call : Execute}
    {run : AgentRun} {ph : Phase} (htask : w.tasks.get? p = some (.execute call))
    (hwork : call.work = some (run_id, run, ph)) (hph : ph ≠ .starting) : w.begun run_id := by
  obtain ⟨st, hst, hne⟩ := (hapart _).begun _ _ _ (views_of_work htask hwork) hph
  obtain ⟨row, hget, -, rfl⟩ := lifecycle_runs_eq_some.mp hst
  exact ⟨row, hget, hne⟩

/-- Only one executor may answer a run, because only one can have locked it PENDING and
executors stay apart. -/
theorem answers_alone (hconsistent : w.Consistent) (hapart : ∀ session_id, Apart (w.lifecycle session_id))
    {task task' : Task} (hp : w.tasks.get? p = some task) (hq : w.tasks.get? q = some task')
    (h : task.answers = some run_id) (h' : task'.answers = some run_id) : p = q := by
  obtain ⟨call, run, ph, rfl, hwork, hview⟩ := works_of_answers hp h
  obtain ⟨call', run', ph', rfl, hwork', hview'⟩ := works_of_answers hq h'
  obtain ⟨⟨row, hget, hsame⟩, -⟩ := hconsistent.tasks p _ hp run_id run ph hwork
  obtain ⟨⟨row', hget', hsame'⟩, -⟩ := hconsistent.tasks q _ hq run_id run' ph' hwork'
  obtain rfl : row = row' := Option.some.inj (hget.symm.trans hget')
  have hsession : run'.session_id = run.session_id := hsame'.1.symm.trans hsame.1
  rw [hsession] at hview'
  exact (hapart run.session_id).alone p q run_id ph ph' hview hview'

namespace Talking

variable (h : Talking w) (hstep : w.step l = some w')
include h hstep

/-- A task that may answer a run could before, or has locked it PENDING. -/
private theorem answers_before {task : Task} (htask : w'.tasks.get? p = some task)
    (hanswers : task.answers = some run_id) :
    (∃ before, w.tasks.get? p = some before ∧ before.answers = some run_id) ∨
      w.db.messages_of run_id .ASSISTANT = [] ∧ p = l.pid := by
  by_cases hp : p = l.pid
  swap
  · exact .inl ⟨task, (step_tasks_of_ne hstep hp).symm.trans htask, hanswers⟩
  subst hp
  cases step_next hstep htask with
  | @called operation => cases operation <;> cases hanswers
  | killed => cases hanswers
  | drained hold => exact .inl ⟨_, hold, hanswers⟩
  | quiet hold hresume hgoes =>
    rcases Task.answers_of_resume hresume hgoes hanswers with hbefore | ⟨run, hget, hpending⟩
    · exact .inl ⟨_, hold, hbefore⟩
    · refine .inr ⟨?_, rfl⟩
      by_contra hanswered
      obtain ⟨row, hget', hbegun⟩ := h.replied.begun run_id hanswered
      cases hget.symm.trans hget'
      exact hbegun hpending
  | refused hold hcommit => exact .inl ⟨_, hold, hcommit.answers_before.2 hanswers⟩
  | committed hold hcommit => exact .inl ⟨_, hold, hcommit.answers_before.1 hanswers⟩

private theorem step_open_run {task : Task} (htask : w'.tasks.get? p = some task)
    (hanswers : task.answers = some run_id) : w'.db.messages_of run_id .ASSISTANT = [] := by
  cases step_replies h.numbered hstep run_id with
  | same hsame =>
    rw [hsame]
    rcases h.answers_before hstep htask hanswers with ⟨before, hbefore, hanswers⟩ | ⟨hnone, -⟩
    · exact h.replied.open_run p before run_id hbefore hanswers
    · exact hnone
  | answered hanswering _ _ hnext hdone =>
    exfalso
    have hpid : p = l.pid := by
      rcases h.answers_before hstep htask hanswers with ⟨before, hbefore, hanswers⟩ | ⟨-, hpid⟩
      · exact answers_alone h.consistent h.apart hbefore hanswering hanswers rfl
      · exact hpid
    subst hpid
    rw [htask] at hnext
    obtain rfl := Option.some.inj hnext
    simp [hdone] at hanswers

private theorem step_begun (hanswered : w'.db.messages_of run_id .ASSISTANT ≠ []) :
    w'.begun run_id := by
  cases step_replies h.numbered hstep run_id with
  | same hsame => exact begun_step h.consistent hstep (h.replied.begun run_id (hsame ▸ hanswered))
  | answered htask =>
    exact begun_step h.consistent hstep (begun_of_work h.apart htask rfl (by simp [Stage.written]))

private theorem step_single : (w'.db.messages_of run_id .ASSISTANT).length ≤ 1 := by
  cases step_replies h.numbered hstep run_id with
  | same hsame => exact hsame ▸ h.replied.single run_id
  | answered htask _ hanswers =>
    rw [hanswers, h.replied.open_run _ _ run_id htask rfl]
    simp

private theorem step_later {question answer : ChatMessage}
    (hquestion : question ∈ w'.db.messages_of run_id .USER)
    (hanswer : answer ∈ w'.db.messages_of run_id .ASSISTANT) :
    question.sequence < answer.sequence := by
  cases step_replies h.numbered hstep run_id with
  | same hsame =>
    rw [hsame] at hanswer
    obtain ⟨row, hget, -⟩ := h.replied.begun run_id (List.ne_nil_of_mem hanswer)
    rw [Asked.questions_step hstep hget] at hquestion
    exact h.replied.later run_id question hquestion answer hanswer
  | answered htask hsequence hanswers =>
    obtain ⟨row, hget, hsession⟩ := row_of_answer h.consistent rfl htask
    rw [Asked.questions_step hstep hget] at hquestion
    rw [hanswers, h.replied.open_run _ _ run_id htask rfl, List.nil_append, List.mem_singleton] at hanswer
    have hmem := h.asked.sequence_mem hget hquestion
    rw [hsession] at hmem
    have hle := ((h.numbered.gapless _).mem_iff.mp hmem).2
    rw [hanswer]
    exact hsequence ▸ Nat.lt_succ_of_le hle

private theorem step_completed {run : AgentRun} (hget : w'.db.runs.get? run_id = some run)
    (hstatus : run.status = .COMPLETED) : w'.db.messages_of run_id .ASSISTANT ≠ [] := by
  have hgrow : w.db.messages_of run_id .ASSISTANT ≠ [] →
      w'.db.messages_of run_id .ASSISTANT ≠ [] := by
    intro hanswered
    cases step_replies h.numbered hstep run_id with
    | same hsame => exact hsame ▸ hanswered
    | answered _ _ hanswers => simp [hanswers]
  cases step_said hstep with
  | silent _ hruns => exact hgrow (h.replied.completed run_id run (hruns ▸ hget) hstatus)
  | @committed _ _ _ tx htask hcommit hconflict _ hdb =>
    rw [hdb] at hget
    rcases committed_run hcommit hget with ⟨row, hold, rfl, -⟩ | ⟨-, hinsert⟩
    · rcases (hcommit.run_update run_id row).2 hstatus with hcompleted | ⟨_, _, _, _, _, _, _, rfl⟩
      · exact hgrow (h.replied.completed run_id row hold hcompleted)
      · cases hcommit
        rw [hdb, Database.apply_messages_of hconflict]
        simp [Transaction.messages, append_transaction, Site.chat_message, assistant_message]
    · obtain ⟨request, sequence, rfl, -⟩ := hcommit.insert_run_cases hinsert
      cases hstatus

/-- Every step keeps the whole of it: consistency, the executors apart, the numbers, the
questions and the answers. -/
theorem step : Talking w' where
  consistent := h.consistent.step hstep
  apart session_id := by
    obtain ⟨kind, hmove, -⟩ := h.consistent.step_moves hstep session_id
    exact (h.apart session_id).move hmove
  numbered := h.numbered.step hstep
  asked := h.asked.step h.consistent hstep
  replied :=
    { open_run := fun _ _ _ => h.step_open_run hstep
      begun := fun _ => h.step_begun hstep
      single := fun _ => h.step_single hstep
      later := fun _ _ hquestion _ => h.step_later hstep hquestion
      completed := fun _ _ => h.step_completed hstep }

end Talking

/-- Everything the conversation rests on holds before the first call. -/
theorem Talking.empty : Talking World.empty :=
  ⟨.empty, fun session_id => empty_lifecycle session_id ▸ .initial, .empty, .empty, .empty⟩

/-- In every state reached: the messages of a session are numbered 1 to n, every run has
one message of the user, which holds its input, at most one answer, which comes later,
and an answer when it is COMPLETED. -/
theorem conversation (hrun : Run World.step (fun _ _ => True) empty w) :
    (∀ session_id, w.db.sequences session_id =
      List.range' 1 (w.db.sequences session_id).length) ∧
    ∀ run_id run, w.db.runs.get? run_id = some run →
      (∃ question, w.db.messages_of run_id .USER = [question] ∧
        question.content = [("text", run.input)] ∧ question.session_id = run.session_id ∧
        ∀ answer ∈ w.db.messages_of run_id .ASSISTANT, question.sequence < answer.sequence) ∧
      (w.db.messages_of run_id .ASSISTANT).length ≤ 1 ∧
      (run.status = .COMPLETED → w.db.messages_of run_id .ASSISTANT ≠ []) := by
  have htalking : Talking w := hrun.invariant (fun _ _ _ h _ hstep => h.step hstep) .empty
  refine ⟨htalking.numbered.gapless, fun run_id run hget => ⟨?_, htalking.replied.single run_id,
    htalking.replied.completed run_id run hget⟩⟩
  obtain ⟨question, hquestion, hcontent, hsession⟩ := htalking.asked.question run_id run hget
  refine ⟨question, hquestion, hcontent, hsession, fun answer hanswer => ?_⟩
  exact htalking.replied.later run_id question (by simp [hquestion]) answer hanswer

/-- A completed run with its two messages. -/
theorem conversation_completed : ∃ (w : World) (run : AgentRun),
    w.db.runs.get? 20 = some run ∧ run.status = .COMPLETED ∧ w.db.sequences 10 = [1, 2] ∧
    w.db.messages_of 20 .ASSISTANT ≠ [] := by
  obtain ⟨w, hrun, hcompleted⟩ : ∃ w, Run World.step (fun _ _ => True) empty w ∧
      (∃ run ∈ w.db.runs.get? 20, run.status = .COMPLETED) ∧ (w.db.sequences 10).length = 2 :=
    Run.exists_of_exec (fun _ _ => trivial) (creates 1 10 "c" ++ becomes_ready 1 ++
      submits 3 10 20 30 ++ locks 4 20 ++ starts 4 ++ agent_returns 4 ++ completes 4 40) _
      (by decide +kernel)
  obtain ⟨⟨run, hget, hstatus⟩, hlength⟩ := hcompleted
  obtain ⟨hgapless, htalk⟩ := conversation hrun
  have hsequences := hgapless 10
  rw [hlength] at hsequences
  exact ⟨w, run, hget, hstatus, hsequences, (htalk 20 run hget).2.2 hstatus⟩

end World

end session_manager
