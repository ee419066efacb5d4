import SessionManager.Guarantees.AgentCalls
import SessionManager.Guarantees.Requests
import SessionManager.World.Schedule

open transition

namespace session_manager

open sessions run_executor schedule

/-- The response of a `create_run`: session, idempotency key, run, and whether it
is marked as replayed. -/
def Task.response : Task → Option (SessionId × Option String × RunId × Bool)
  | create_run (.returned request run_id _ replayed) =>
    some (request.session_id, request.idempotency_key, run_id, replayed)
  | _ => none

/-- Session and idempotency key of a `create_run` that has committed a new run and
not responded yet. -/
def Task.responding : Task → Option (SessionId × Option String)
  | create_run (.refresh request _) => some (request.session_id, request.idempotency_key)
  | _ => none

namespace World

/-- Task `p` has accepted a request with the given key. -/
def accepted (w : World) (p : Pid) (session_id : SessionId) (key : String) (run_id : RunId)
    (replayed : Bool) : Prop :=
  (w.tasks.get? p).bind Task.response = some (session_id, some key, run_id, replayed)

/-- Nobody still has to respond to a request with the given key. -/
def responded (w : World) (session_id : SessionId) (key : String) : Prop :=
  w.tasks.Forall fun _ task => task.responding ≠ some (session_id, some key)

instance (w : World) (p : Pid) (session_id : SessionId) (key : String) (run_id : RunId)
    (replayed : Bool) : Decidable (w.accepted p session_id key run_id replayed) :=
  inferInstanceAs (Decidable (_ = _))

instance (w : World) (session_id : SessionId) (key : String) :
    Decidable (w.responded session_id key) :=
  inferInstanceAs (Decidable (w.tasks.Forall fun _ task => task.responding ≠ _))

variable {w : World} {p q : Pid} {session_id : SessionId} {key : String} {run_id run_id' : RunId}
  {replayed replayed' : Bool}

/-- A submission is accepted when its task has returned the run, for the session and
under the key it was called with. -/
theorem accepted_iff : w.accepted p session_id key run_id replayed ↔
    ∃ request run, w.tasks.get? p = some (.create_run (.returned request run_id run replayed)) ∧
      request.session_id = session_id ∧ request.idempotency_key = some key := by
  constructor
  · intro h
    obtain ⟨task, htask, hresponse⟩ := Option.bind_eq_some_iff.mp h
    unfold Task.response at hresponse
    split at hresponse
    · rename_i request run_id run replayed
      simp only [Option.some.injEq, Prod.mk.injEq] at hresponse
      obtain ⟨hsession, hkey, rfl, rfl⟩ := hresponse
      exact ⟨request, run, htask, hsession, hkey⟩
    · cases hresponse
  · rintro ⟨request, run, htask, rfl, hkey⟩
    simp [accepted, htask, Task.response, hkey]

private theorem answers_of_accepted (h : w.accepted p session_id key run_id replayed) :
    ∃ request, w.answers p request run_id replayed ∧ request.session_id = session_id ∧
      request.idempotency_key = some key := by
  obtain ⟨request, run, htask, hrequest⟩ := accepted_iff.mp h
  exact ⟨request, ⟨_, htask, rfl⟩, hrequest⟩

/-- Requests with one key get one run. -/
private theorem accepted_run_eq (hrequests : Requests w)
    (hp : w.accepted p session_id key run_id replayed)
    (hq : w.accepted q session_id key run_id' replayed') : run_id = run_id' := by
  obtain ⟨request, hanswers, rfl, hkey⟩ := answers_of_accepted hp
  obtain ⟨request', hanswers', hsession, hkey'⟩ := answers_of_accepted hq
  obtain ⟨row, hget, hsame⟩ := hrequests.known _ _ _ _ hanswers'
  refine hrequests.keys run_id run_id' request ⟨key, hkey⟩ (hrequests.known _ _ _ _ hanswers) ?_
  exact ⟨row, hget, hsame.1.trans hsession, hsame.2.trans (hkey'.trans hkey.symm)⟩

private theorem accepted_new_eq (hrequests : Requests w)
    (hp : w.accepted p session_id key run_id false)
    (hq : w.accepted q session_id key run_id' false) : p = q := by
  obtain rfl := accepted_run_eq hrequests hp hq
  obtain ⟨request, hanswers, -⟩ := answers_of_accepted hp
  obtain ⟨request', hanswers', -⟩ := answers_of_accepted hq
  exact (hrequests.one _ _ _ _ _ hanswers hanswers').1

/-- Whoever has made the run of an accepted request responds with it. -/
private theorem accepted_new_exists (hrequests : Requests w)
    (hp : w.accepted p session_id key run_id replayed) (hresponded : w.responded session_id key) :
    ∃ q, w.accepted q session_id key run_id false := by
  obtain ⟨request, hanswers, rfl, hkey⟩ := answers_of_accepted hp
  obtain ⟨row, hget, hsame⟩ := hrequests.known _ _ _ _ hanswers
  obtain ⟨q, request', call, htask, hcall⟩ := hrequests.made run_id row hget
  obtain ⟨row', hget', hsame'⟩ := hrequests.known _ _ _ _ ⟨call, htask, hcall⟩
  cases hget.symm.trans hget'
  have hsession : request'.session_id = request.session_id := hsame'.1.symm.trans hsame.1
  have hkey' : request'.idempotency_key = some key := (hsame'.2.symm.trans hsame.2).trans hkey
  cases call with
  | refresh =>
    cases hcall
    exact absurd (by simp [Task.responding, hsession, hkey']) (hresponded q _ htask)
  | returned =>
    cases hcall
    exact ⟨q, accepted_iff.mpr ⟨_, _, htask, hsession, hkey'⟩⟩
  | _ => cases hcall

/-- Two lock-then-check protocols: requests with one idempotency key get one run,
exactly one of them without a replay, and a refused request writes nothing; the
agent is called at most once for a run, and never for one that was cancelled
before its executor locked it. -/
theorem run_submission (hrun : Run World.step (fun _ l => l.succeeds) empty w) :
    (∀ p q session_id key run_id run_id' replayed replayed',
      w.accepted p session_id key run_id replayed →
      w.accepted q session_id key run_id' replayed' → run_id = run_id') ∧
    (∀ p q session_id key run_id run_id', w.accepted p session_id key run_id false →
      w.accepted q session_id key run_id' false → p = q) ∧
    (∀ p session_id key run_id replayed, w.accepted p session_id key run_id replayed →
      w.responded session_id key → ∃ q, w.accepted q session_id key run_id false) ∧
    (∀ w₁ l w₂, Run World.step (fun _ l => l.succeeds) empty w₁ → l.succeeds →
      w₁.step l = some w₂ → Run World.step (fun _ l => l.succeeds) w₂ w → w.refused l.pid →
      w₂.db = w₁.db) ∧
    (w.agent_calls.map Prod.snd).Nodup ∧
    ∀ w₁ p run_id run, Run World.step (fun _ l => l.succeeds) empty w₁ →
      Run World.step (fun _ l => l.succeeds) w₁ w → w₁.db.runs.get? run_id = some run →
      run.status = .CANCELLED →
      w₁.tasks.get? p = none ∨ w₁.tasks.get? p = some (.execute (.select run_id)) →
      (p, run_id) ∉ w.agent_calls := by
  have hinitial : empty.Consistent ∧ Requests empty := ⟨.empty, .empty⟩
  obtain ⟨-, hrequests⟩ := hrun.invariant (I := fun w => w.Consistent ∧ Requests w) requests_step
    hinitial
  refine ⟨?same_run, ?one_new, ?some_new, ?refused, ?once, ?cancelled⟩
  case same_run => exact fun _ _ _ _ _ _ _ _ => accepted_run_eq hrequests
  case one_new => exact fun _ _ _ _ _ _ => accepted_new_eq hrequests
  case some_new => exact fun _ _ _ _ _ => accepted_new_exists hrequests
  case refused =>
    intro w₁ l w₂ hearlier hsucceeds hstep hlater hrefused
    have h := hearlier.invariant (I := fun w => w.Consistent ∧ Requests w) requests_step hinitial
    exact refused_unchanged h hsucceeds hstep hlater hrefused
  case once => exact (launched_of_run hrun).2.once
  case cancelled =>
    intro w₁ p run_id run hearlier hlater hget hcancelled hunlocked
    exact not_called (launched_of_run hearlier) ⟨run, hget, by simp [hcancelled]⟩ hunlocked hlater

/-- Two requests with one key: the second waits for the lock of the first and is
answered with its run, while a second executor of the run finds it started. -/
theorem run_submission_replayed : ∃ w : World, w.accepted 4 10 "key" 20 true ∧
    ∃ q, w.accepted q 10 "key" 20 false := by
  obtain ⟨w, hrun, haccepted, hresponded⟩ : ∃ w, Run World.step (fun _ l => l.succeeds) empty w ∧
      w.accepted 4 10 "key" 20 true ∧ w.responded 10 "key" :=
    Run.exists_of_execIf (creates 1 10 "c" ++ becomes_ready 1 ++
      [{ pid := 3, input := .call (.create_run ⟨10, "task", some "key"⟩) },
        { pid := 4, input := .call (.create_run ⟨10, "task", some "key"⟩) },
        { pid := 3, input := .returned }, { pid := 3, input := .returned, uuid := 20 },
        { pid := 3, input := .returned }, { pid := 3, input := .returned, uuid := 30 }] ++
      through 3 [.returned, .returned] ++ through 4 [.returned, .returned] ++
      locks 5 20 ++ starts 5 ++ locks 6 20) _ (by decide +kernel)
  exact ⟨w, haccepted, (run_submission hrun).2.2.1 4 10 "key" 20 true haccepted hresponded⟩

end World

end session_manager
