import SessionManager.Library.Transition
import SessionManager.World.Calls
import SessionManager.World.Invariant

open transition

namespace session_manager

open sessions

/-- The awaited call of this step succeeds as far as it is one to the database,
and the process lives on. -/
def Label.succeeds (l : Label) : Prop :=
  match l.input with
  | .failed | .killed => False
  | _ => True

instance (l : Label) : Decidable l.succeeds := by
  unfold Label.succeeds
  split <;> infer_instance

/-- The run a `create_run` answers its request with, and whether as a replay. A
call that has committed a new run is sure to answer with it. -/
def sessions.CreateRun.answer : CreateRun → Option (CreateRunRequest × RunId × Bool)
  | refresh request run_id => some (request, run_id, false)
  | returned request run_id _ replayed => some (request, run_id, replayed)
  | _ => none

/-- The call has rejected its request, or answered it with an earlier run. -/
def sessions.CreateRun.refused : CreateRun → Bool
  | returned _ _ _ replayed => replayed
  | raised .. => true
  | _ => false

namespace World

def answers (w : World) (p : Pid) (request : CreateRunRequest) (run_id : RunId)
    (replayed : Bool) : Prop :=
  ∃ call, w.tasks.get? p = some (.create_run call) ∧ call.answer = some (request, run_id, replayed)

/-- The run belongs to the session of the request and has its idempotency key. -/
def fulfils (w : World) (request : CreateRunRequest) (run_id : RunId) : Prop :=
  ∃ row, w.db.runs.get? run_id = some row ∧ SameRun (new_run request) row

/-- The step in which a `create_run` commits a new run. -/
structure Creates (w : World) (l : Label) (w' : World) (request : CreateRunRequest)
    (run_id : RunId) : Prop where
  fresh : w.db.run_conflict run_id (new_run request) = false
  row : w'.db.runs.get? run_id = some (new_run request)
  answers : w'.answers l.pid request run_id false

variable {w w' : World} {l : Label} {p : Pid} {request : CreateRunRequest} {run_id : RunId}
  {replayed : Bool}

/-- A request that a run fulfils is fulfilled for good: no step changes the session or
the key of a run. -/
theorem fulfils_step (hstep : w.step l = some w') (h : w.fulfils request run_id) :
    w'.fulfils request run_id := by
  obtain ⟨row, hget, hsame⟩ := h
  obtain ⟨row', hget', hsame'⟩ := step_same hstep hget
  exact ⟨row', hget', hsame.trans hsame'⟩

private theorem creates_of_commit {session : AgentSession} {message_id : MessageId} {seq : Nat}
    (htask : w.tasks.get? l.pid = some (.create_run (.commit request session run_id message_id seq)))
    (hconflict : w.db.conflict (run_transaction request session run_id message_id seq) = false) :
    Creates w l (w.commit l.pid (run_transaction request session run_id message_id seq)
      (.create_run (.refresh request run_id))) request run_id where
  fresh := (Database.conflict_eq_false hconflict).2.1 (run_id, new_run request) rfl
  row := by
    have hfresh := (Database.conflict_eq_false hconflict).2.1 (run_id, new_run request) rfl
    have hinsert : (run_transaction request session run_id message_id seq).insert_run =
        some (run_id, new_run request) := rfl
    rw [commit_db, Database.apply_insert_run hinsert (Database.run_conflict_eq_false hfresh).1,
      if_pos rfl]
  answers := ⟨.refresh request run_id, by simp [htask], rfl⟩

/-- Where the answer of a `create_run` comes from. -/
inductive Answered (w : World) (l : Label) (w' : World) (p : Pid) (request : CreateRunRequest)
    (run_id : RunId) : Bool → Prop
  | before {replayed : Bool} (h : w.answers p request run_id replayed) :
      Answered w l w' p request run_id replayed
  | created (hp : p = l.pid) (h : Creates w l w' request run_id) :
      Answered w l w' p request run_id false
  | found (h : w.fulfils request run_id) : Answered w l w' p request run_id true

private theorem check_ready_answer (request : CreateRunRequest) (session : AgentSession)
    (run_id : RunId) : (check_ready request session run_id).answer = none := by
  unfold check_ready
  split <;> rfl

private theorem selected_answer (request : CreateRunRequest) (session : AgentSession)
    (run_id : RunId) : (selected request session run_id).answer = none := by
  unfold selected
  split
  · rfl
  · exact check_ready_answer ..

/-- The lookup of a key only finds a run that was made with it. -/
private theorem fulfils_of_lookup {row : AgentRun}
    (hkey : truthy request.idempotency_key = true)
    (hfound : w.db.get_run_by_idempotency_key request.session_id (request.idempotency_key.getD "") =
      some (run_id, row)) : w.fulfils request run_id := by
  obtain ⟨hget, hrow⟩ := Table.get?_of_find? _ hfound
  simp only [Bool.and_eq_true, decide_eq_true_eq] at hrow
  refine ⟨row, hget, hrow.1, hrow.2.trans ?_⟩
  cases hsome : request.idempotency_key with
  | none => simp [hsome, truthy] at hkey
  | some key => simp [new_run, hsome]

private theorem answer_of_resume {call call' : CreateRun} {action : Action}
    (h : call.Consistent w p) (hresume : call.resume w.db l = some action)
    (hgoes : action.goes = some (.create_run call'))
    (hcall : call'.answer = some (request, run_id, replayed)) :
    call.answer = some (request, run_id, replayed) ∨
    replayed = true ∧ w.fulfils request run_id := by
  cases CreateRun.resumes hresume with
  | select =>
    cases hgoes
    simp [selected_answer] at hcall
  | replay _ hfound =>
    cases hgoes
    cases hcall
    exact .inr ⟨rfl, fulfils_of_lookup h.2.2 hfound⟩
  | lookup =>
    cases hgoes
    simp [check_ready_answer] at hcall
  | refresh =>
    cases hgoes
    exact .inl hcall
  | commit => cases hgoes
  | missing | refused | flush | sequence | gone | failed =>
    cases hgoes
    cases hcall

private theorem Consistent.answered (h : w.Consistent) (hstep : w.step l = some w')
    (hanswers : w'.answers p request run_id replayed) :
    Answered w l w' p request run_id replayed := by
  obtain ⟨call, htask, hcall⟩ := hanswers
  by_cases hp : p = l.pid
  swap
  · exact .before ⟨call, step_tasks_of_ne hstep hp ▸ htask, hcall⟩
  subst hp
  generalize hnext : Task.create_run call = next at htask
  cases step_next hstep htask with
  | @called operation =>
    cases operation <;> cases hnext
    cases hcall
  | killed | drained => cases hnext
  | quiet hold hresume hgoes =>
    subst hnext
    obtain ⟨call', rfl⟩ := Task.create_run_of_service (Task.service_of_resume hresume hgoes).symm
    rcases answer_of_resume (h.tasks _ _ hold) hresume hgoes hcall with hcall' | ⟨rfl, hfulfils⟩
    · exact .before ⟨call', hold, hcall'⟩
    · exact .found hfulfils
  | refused _ hcommit =>
    cases hcommit <;> cases hnext
    cases hcall
  | committed hold hcommit hconflict hw' =>
    cases hcommit <;> cases hnext
    cases hcall
    subst hw'
    exact .created rfl (creates_of_commit hold hconflict)

/-- Every run of the next state was there before, or is the one that this step's
`create_run` has just committed. -/
theorem run_created_cases (hstep : w.step l = some w') {row' : AgentRun}
    (hget : w'.db.runs.get? run_id = some row') :
    (∃ row, w.db.runs.get? run_id = some row ∧ SameRun row row') ∨
    ∃ request, Creates w l w' request run_id := by
  cases hold : w.db.runs.get? run_id with
  | some row =>
    obtain ⟨row'', hget'', hsame⟩ := step_same hstep hold
    cases hget.symm.trans hget''
    exact .inl ⟨row, rfl, hsame⟩
  | none =>
    refine .inr ?_
    cases stepped hstep with
    | called => simp [hold] at hget
    | killed | refused => simp [hold] at hget
    | drained _ _ _ hdrained => simp [hdrained.runs, hold] at hget
    | quiet _ _ hgoes hperform => simp [(perform_quiet_tables hgoes hperform).2, hold] at hget
    | committed htask hcommit _ _ hconflict =>
      rw [commit_db] at hget
      rcases Database.apply_run_cases hget with ⟨row, hrow, -⟩ | ⟨-, hinsert⟩
      · simp [hold] at hrow
      · cases hcommit <;> cases hinsert
        exact ⟨_, creates_of_commit htask hconflict⟩

private theorem resume_answered {call : CreateRun} {action : Action} {next : Task}
    (hcall : call.answer = some (request, run_id, replayed)) (hfulfils : w.fulfils request run_id)
    (hsucceeds : l.succeeds) (hresume : call.resume w.db l = some action)
    (hgoes : action.goes = some next) :
    ∃ run, next = .create_run (.returned request run_id run replayed) := by
  obtain ⟨row, hget, -⟩ := hfulfils
  cases call with
  | refresh =>
    cases hcall
    cases hinput : l.input with
    | returned =>
      simp only [CreateRun.resume, hinput, hget, Option.some.injEq] at hresume
      subst hresume
      cases hgoes
      exact ⟨row, rfl⟩
    | failed => simp [Label.succeeds, hinput] at hsucceeds
    | _ => simp [CreateRun.resume, hinput] at hresume
  | returned => simp [CreateRun.resume] at hresume
  | _ => cases hcall

/-- A call that has its answer keeps it, with the run and the mark of a replay. -/
theorem answers_step (hstep : w.step l = some w') (hsucceeds : l.succeeds)
    (hfulfils : w.fulfils request run_id) (h : w.answers p request run_id replayed) :
    w'.answers p request run_id replayed := by
  obtain ⟨call, htask, hcall⟩ := h
  by_cases hp : p = l.pid
  swap
  · exact ⟨call, (step_tasks_of_ne hstep hp).trans htask, hcall⟩
  subst hp
  obtain ⟨next, hnext⟩ := step_task_exists hstep
  cases step_next hstep hnext with
  | called hfresh => simp [hfresh] at htask
  | killed hinput => simp [Label.succeeds, hinput] at hsucceeds
  | drained hold => cases htask.symm.trans hold
  | refused hold hcommit | committed hold hcommit =>
    cases htask.symm.trans hold
    cases hcommit
    cases hcall
  | quiet hold hresume hgoes =>
    cases htask.symm.trans hold
    obtain ⟨run, rfl⟩ := resume_answered hcall hfulfils hsucceeds hresume hgoes
    exact ⟨_, hnext, rfl⟩

/-- Every answered request has its run, no two runs of a session share a key,
and every run is the answer of the one call that made it. -/
structure Requests (w : World) : Prop where
  known : ∀ p request run_id replayed, w.answers p request run_id replayed →
    w.fulfils request run_id
  keys : ∀ r r' request, (∃ key, request.idempotency_key = some key) →
    w.fulfils request r → w.fulfils request r' → r = r'
  one : ∀ p p' request request' run_id, w.answers p request run_id false →
    w.answers p' request' run_id false → p = p' ∧ request = request'
  made : ∀ run_id row, w.db.runs.get? run_id = some row →
    ∃ p request, w.answers p request run_id false

/-- There are no requests before the first call. -/
theorem Requests.empty : Requests World.empty where
  known := by
    rintro _ _ _ _ ⟨_, htask, -⟩
    cases htask
  keys := by
    rintro _ _ _ _ ⟨_, hget, -⟩
    cases hget
  one := by
    rintro _ _ _ _ _ ⟨_, htask, -⟩
    cases htask
  made := by
    rintro _ _ hget
    cases hget

private theorem answers_unique {request' : CreateRunRequest} {run_id' : RunId} {replayed' : Bool}
    (h : w.answers p request run_id replayed) (h' : w.answers p request' run_id' replayed') :
    request = request' ∧ run_id = run_id' ∧ replayed = replayed' := by
  obtain ⟨call, htask, hcall⟩ := h
  obtain ⟨call', htask', hcall'⟩ := h'
  cases htask.symm.trans htask'
  cases hcall.symm.trans hcall'
  exact ⟨rfl, rfl, rfl⟩

/-- A run that is there is not the one committed in this step. -/
private theorem Creates.not_fulfils {request' : CreateRunRequest} (h : Creates w l w' request run_id)
    (hold : w.fulfils request' run_id) : False := by
  obtain ⟨row, hget, -⟩ := hold
  simp [(Database.run_conflict_eq_false h.fresh).1] at hget

private theorem fulfils_cases (hstep : w.step l = some w') (h : w'.fulfils request run_id) :
    w.fulfils request run_id ∨ ∃ request', Creates w l w' request' run_id := by
  obtain ⟨row', hget, hsame⟩ := h
  refine (run_created_cases hstep hget).imp_left ?_
  rintro ⟨row, hold, hrow⟩
  exact ⟨row, hold, hrow.1.symm.trans hsame.1, hrow.2.symm.trans hsame.2⟩

/-- The run committed in this step shares no key with an older one. -/
private theorem Creates.keys {request' : CreateRunRequest} {r : RunId}
    (h : Creates w l w' request run_id) (hkey : ∃ key, request'.idempotency_key = some key)
    (hnew : w'.fulfils request' run_id) (hold : w.fulfils request' r) : False := by
  obtain ⟨key, hkey⟩ := hkey
  obtain ⟨row, hget, hsame⟩ := hold
  obtain ⟨row', hget', hsame'⟩ := hnew
  cases hget'.symm.trans h.row
  have hfresh := (Database.run_conflict_eq_false h.fresh).2.1 key (hsame'.2.trans hkey) r row hget
  exact hfresh (hsame.1.trans hsame'.1.symm) (hsame.2.trans hkey)

namespace Requests

variable (h : Requests w) (hstep : w.step l = some w')
include h hstep

private theorem step_known (hconsistent : w.Consistent)
    (hanswers : w'.answers p request run_id replayed) : w'.fulfils request run_id := by
  cases hconsistent.answered hstep hanswers with
  | before hold => exact fulfils_step hstep (h.known _ _ _ _ hold)
  | created _ hnew => exact ⟨_, hnew.row, .refl _⟩
  | found hfound => exact fulfils_step hstep hfound

private theorem step_keys {r r' : RunId} (hkey : ∃ key, request.idempotency_key = some key)
    (hr : w'.fulfils request r) (hr' : w'.fulfils request r') : r = r' := by
  rcases fulfils_cases hstep hr with hold | ⟨_, hnew⟩ <;>
    rcases fulfils_cases hstep hr' with hold' | ⟨_, hnew'⟩
  · exact h.keys r r' request hkey hold hold'
  · exact (hnew'.keys hkey hr' hold).elim
  · exact (hnew.keys hkey hr hold').elim
  · exact (answers_unique hnew.answers hnew'.answers).2.1

private theorem step_one (hconsistent : w.Consistent) {p' : Pid} {request' : CreateRunRequest}
    (hp : w'.answers p request run_id false) (hp' : w'.answers p' request' run_id false) :
    p = p' ∧ request = request' := by
  cases hconsistent.answered hstep hp with
  | before hold =>
    cases hconsistent.answered hstep hp' with
    | before hold' => exact h.one _ _ _ _ _ hold hold'
    | created _ hnew' => exact (hnew'.not_fulfils (h.known _ _ _ _ hold)).elim
  | created hpid hnew =>
    cases hconsistent.answered hstep hp' with
    | before hold' => exact (hnew.not_fulfils (h.known _ _ _ _ hold')).elim
    | created hpid' hnew' =>
      exact ⟨hpid.trans hpid'.symm, (answers_unique hnew.answers hnew'.answers).1⟩

private theorem step_made (hsucceeds : l.succeeds) {row : AgentRun}
    (hget : w'.db.runs.get? run_id = some row) :
    ∃ p request, w'.answers p request run_id false := by
  rcases run_created_cases hstep hget with ⟨row₀, hold, -⟩ | ⟨request, hnew⟩
  · obtain ⟨p, request, hanswers⟩ := h.made run_id row₀ hold
    exact ⟨p, request, answers_step hstep hsucceeds (h.known _ _ _ _ hanswers) hanswers⟩
  · exact ⟨l.pid, request, hnew.answers⟩

/-- Every step keeps requests and runs in agreement, as long as its database calls
succeed. -/
theorem step (hconsistent : w.Consistent) (hsucceeds : l.succeeds) : Requests w' where
  known _ _ _ _ := h.step_known hstep hconsistent
  keys _ _ _ := h.step_keys hstep
  one _ _ _ _ _ := h.step_one hstep hconsistent
  made _ _ := h.step_made hstep hsucceeds

end Requests

/-- Such a step keeps consistency as well, which is what the runs of the guarantees
need. -/
theorem requests_step (w : World) (l : Label) (w' : World) (h : w.Consistent ∧ Requests w)
    (hsucceeds : l.succeeds) (hstep : w.step l = some w') : w'.Consistent ∧ Requests w' :=
  ⟨h.1.step hstep, h.2.step hstep h.1 hsucceeds⟩

/-- An answer is final, however the system goes on. -/
theorem answers_of_run (hrun : Run World.step (fun _ l => l.succeeds) w w')
    (h : w.Consistent ∧ Requests w) (hanswers : w.answers p request run_id replayed) :
    w'.answers p request run_id replayed := by
  refine (hrun.strengthen requests_step h).invariant
    (I := fun w => w.answers p request run_id replayed) ?_ hanswers
  exact fun w _ _ hanswers hguard hstep =>
    answers_step hstep hguard.2 (hguard.1.2.known _ _ _ _ hanswers) hanswers

/-- Task `p` has rejected its request, or has answered it with an earlier run. -/
def refused (w : World) (p : Pid) : Prop :=
  ∃ call, w.tasks.get? p = some (.create_run call) ∧ call.refused = true

private theorem resume_create_run {call : CreateRun} {action : Action} {db : Database}
    (hresume : call.resume db l = some action) (next : Task) : action ≠ .take_event_id next := by
  rintro rfl
  cases CreateRun.resumes hresume

/-- A `create_run` writes nothing until it commits a new run, and then it has its
answer. -/
theorem create_run_step (hstep : w.step l = some w') {call : CreateRun}
    (htask : w'.tasks.get? l.pid = some (.create_run call)) :
    w'.db = w.db ∨ ∃ request run_id, w'.answers l.pid request run_id false := by
  generalize hnext : Task.create_run call = next at htask
  cases stepped hstep with
  | called | killed | refused => simp
  | drained hold _ _ hdrained =>
    rw [hdrained.tasks, hold] at htask
    cases htask
    cases hnext
  | quiet hold hresume hgoes hperform =>
    rw [perform_quiet_tasks hgoes hperform, Table.get?_modify_self, hold] at htask
    cases htask
    subst hnext
    obtain ⟨call', rfl⟩ := Task.create_run_of_service (Task.service_of_resume hresume hgoes).symm
    exact .inl (perform_quiet_db hgoes (resume_create_run hresume) hperform)
  | committed hold hcommit _ _ hconflict =>
    rw [commit_tasks, Table.get?_modify_self, hold] at htask
    cases htask
    subst hnext
    cases hcommit
    exact .inr ⟨_, _, (creates_of_commit hold hconflict).answers⟩

private theorem service_of_run (hrun : Run World.step (fun _ l => l.succeeds) w w') {task : Task}
    (htask : w.tasks.get? p = some task) :
    ∃ task', w'.tasks.get? p = some task' ∧ task'.service = task.service := by
  refine hrun.invariant (I := fun w => ∃ task', w.tasks.get? p = some task' ∧
    task'.service = task.service) ?_ ⟨task, htask, rfl⟩
  rintro w l w' ⟨task', htask', hservice⟩ hsucceeds hstep
  have hkilled : l.input ≠ .killed := fun h => by simp [Label.succeeds, h] at hsucceeds
  obtain ⟨task'', htask'', hservice'⟩ := service_step hstep hkilled htask'
  exact ⟨task'', htask'', hservice'.trans hservice⟩

/-- A call that is rejected or replayed in the end has written nothing in any of its
steps. -/
theorem refused_unchanged {w₁ w₂ : World} (h : w₁.Consistent ∧ Requests w₁)
    (hsucceeds : l.succeeds) (hstep : w₁.step l = some w₂)
    (hlater : Run World.step (fun _ l => l.succeeds) w₂ w) (hrefused : w.refused l.pid) :
    w₂.db = w₁.db := by
  obtain ⟨call, htask, hcall⟩ := hrefused
  obtain ⟨task, hnext⟩ := step_task_exists hstep
  obtain ⟨task', htask', hservice⟩ := service_of_run hlater hnext
  cases htask.symm.trans htask'
  obtain ⟨call₂, rfl⟩ := Task.create_run_of_service hservice.symm
  rcases create_run_step hstep hnext with hsame | ⟨request, run_id, hanswers⟩
  · exact hsame
  obtain ⟨call', htask', hcall'⟩ :=
    answers_of_run hlater (requests_step w₁ l w₂ h hsucceeds hstep) hanswers
  cases htask.symm.trans htask'
  cases call <;> cases hcall' <;> cases hcall

end World

end session_manager
