import SessionManager.Guarantees.AgentLoop
import SessionManager.Guarantees.Execution

/-! A run from the agent's requests to the database. -/

open transition

namespace session_manager

open anthropic anthropic_callbacks AnthropicAgentRunner World course schedule

/-- The type under which the adapter puts an event. -/
def anthropic_callbacks.Event.event_type : anthropic_callbacks.Event → AgentEventType
  | .ASSISTANT_MESSAGE _ => ⟨.ASSISTANT_MESSAGE, rfl⟩
  | .TOOL_STARTED .. => ⟨.TOOL_STARTED, rfl⟩
  | .TOOL_RESULT .. => ⟨.TOOL_RESULT, rfl⟩
  | .SCREENSHOT_AVAILABLE _ => ⟨.SCREENSHOT_AVAILABLE, rfl⟩

def anthropic.DecodeException.type_name : DecodeException → String
  | JSONDecodeError => "JSONDecodeError"
  | ValueError => "ValueError"
  | RecursionError => "RecursionError"

/-- `type(exc).__name__`; what a tool and the sink raise is named by the caller. -/
def anthropic.AgentError.type_name (name : String) : AgentError → String
  | .RuntimeError _ => "RuntimeError"
  | .CallbackBufferFullError => "CallbackBufferFullError"
  | .parse exc => exc.type_name
  | .tool | .sink => name

/-- What the executor sees of the end of the runner. -/
def AgentOutcome.of (name : String) : Except AgentError String → AgentOutcome
  | .ok text => .returns text
  | .error error => .raises (error.type_name name)

/-- The events as the executor appends them. -/
def entries (payload : anthropic_callbacks.Event → Payload) (events : List anthropic_callbacks.Event) :
    List (AgentEventType × Payload) :=
  events.map fun event => (event.event_type, payload event)

/-- A run that ends after `n` responses has been answered exactly if one of those
that it may take makes no call. -/
theorem anthropic.AnthropicAgentRunner.Ends.answered_iff {runner : AnthropicAgentRunner} {env : Environment} {n : Nat}
    {outcome : Except AgentError String} (h : Ends runner env n outcome) :
    (∃ text, outcome = .ok text) ↔ ∃ i < runner.max_iterations, ¬ runner.decoder.calling (env.response i) := by
  cases outcome with
  | ok text =>
    obtain ⟨last, -, hlast, -, hquiet, -⟩ := h
    exact ⟨fun _ => ⟨last, hlast, hquiet⟩, fun _ => ⟨text, rfl⟩⟩
  | error error =>
    obtain ⟨-, rfl, hcalling⟩ := h
    constructor
    · rintro ⟨text, hok⟩
      cases hok
    · rintro ⟨i, hi, hquiet⟩
      exact absurd (hcalling i hi) hquiet

/-- An undisturbed run returns a text exactly if its work goes through and a
response without calls comes in time. -/
theorem anthropic.AnthropicAgentRunner.Undisturbed.answered_iff {runner : AnthropicAgentRunner} {env : Environment}
    {user_input : String} {runtime_id : Option RuntimeId} (h : Undisturbed runner env user_input runtime_id) :
    (∃ text, runner.outcome env user_input runtime_id = .ok text) ↔
      runner.Clear env ∧ ∃ i < runner.max_iterations, ¬ runner.decoder.calling (env.response i) := by
  rcases h.ends with ⟨n, error, houtcome, hfull, hstopped⟩ | ⟨n, hfinished, hends, hworks⟩
  · refine iff_of_false ?_ fun h => hstopped.not_works hfull (h.1 n hstopped.reaches)
    rw [houtcome]
    rintro ⟨text, hok⟩
    cases hok
  · rw [hends.answered_iff]
    exact (and_iff_right fun i hi => hworks i (hends.reached hi)).symm

namespace World

variable {w : World} {p : Pid} {run_id : RunId} {run : AgentRun} {session : AgentSession}
  {runner : AnthropicAgentRunner} {env : Environment}

/-- The executor runs the agent for a PENDING run: the log gets the events the agent
emits between its own, which are those of the model's script when every response
goes through; the run is COMPLETED exactly if that is so and a response without
calls comes in time, and else it is FAILED. -/
theorem agent_run_recorded (hrun : Run World.step (fun _ _ => True) empty w)
    (hidle : ∀ p task, w.tasks.get? p = some task → task.ended = true)
    (hfresh : w.tasks.get? p = none) (hget : w.db.runs.get? run_id = some run)
    (hpending : run.status = .PENDING) (hsession : w.db.sessions.get? run.session_id = some session)
    (hdeleted : session.deleted_at = none)
    (hundisturbed : Undisturbed runner env run.input session.runtime_id)
    (payload : anthropic_callbacks.Event → Payload) (name : String) (publishes : Nat → Bool) (clock : Nat → Time)
    (uuids : Nat → Uuid) (hunused : ∀ i, w.db.messages.get? (uuids i) = none) :
    ∃ w' started finished message_id,
      exec World.step (labels p clock uuids 0 (inputs run_id
        (entries payload (runner.ended env run.input session.runtime_id).adapter.emitted)
        (.of name (runner.outcome env run.input session.runtime_id)) publishes)) w = some w' ∧
      w'.db = settled w.db run_id run session
        (entries payload (runner.ended env run.input session.runtime_id).adapter.emitted)
        (.of name (runner.outcome env run.input session.runtime_id)) started finished message_id ∧
      (runner.Clear env → ∃ n, Ends runner env n (runner.outcome env run.input session.runtime_id) ∧
        (runner.ended env run.input session.runtime_id).adapter.emitted =
          narrate env.result [] (runner.decoder.script env.response n)) ∧
      ((w'.db.runs.get? run_id).map AgentRun.status = some .COMPLETED ↔
        runner.Clear env ∧ ∃ i < runner.max_iterations, ¬ runner.decoder.calling (env.response i)) ∧
      ((w'.db.runs.get? run_id).map AgentRun.status = some .COMPLETED ∨
        (w'.db.runs.get? run_id).map AgentRun.status = some .FAILED) := by
  obtain ⟨w', hexec, -, hdb, -⟩ := execution_settles hrun hidle hfresh hget hpending hsession hdeleted
    (entries payload (runner.ended env run.input session.runtime_id).adapter.emitted)
    (.of name (runner.outcome env run.input session.runtime_id)) publishes clock uuids (hunused _)
  refine ⟨w', _, _, _, hexec, hdb, fun hclear => ?_, ?_⟩
  · obtain ⟨n, hfinished, hends⟩ := hundisturbed.finishes hclear
    exact ⟨n, hends, hfinished.emitted⟩
  · rw [← hundisturbed.answered_iff, hdb]
    simp only [settled, Table.get?_modify_self, hget, Option.map_some, Option.some.injEq]
    cases runner.outcome env run.input session.runtime_id with
    | ok text => simp [AgentOutcome.of, AgentOutcome.run]
    | error error => simp [AgentOutcome.of, AgentOutcome.run]

/-- A model that calls a tool and then answers. -/
theorem agent_run_recorded_answered : ∃ w w' : World,
    (w.db.runs.get? 20).map AgentRun.status = some .PENDING ∧
      (w'.db.runs.get? 20).map AgentRun.status = some .COMPLETED := by
  obtain ⟨w, hrun, hidle, hfresh, ⟨run, hget, hpending, hid, hinput⟩, ⟨session, hsession, hdeleted, hruntime⟩,
      hunused⟩ : ∃ w, Run World.step (fun _ _ => True) empty w ∧
      w.tasks.Forall (fun _ task => task.ended = true) ∧ w.tasks.get? 4 = none ∧
      (∃ run ∈ w.db.runs.get? 20, run.status = .PENDING ∧ run.session_id = 10 ∧ run.input = "task") ∧
      (∃ session ∈ w.db.sessions.get? 10, session.deleted_at = none ∧ session.runtime_id = some "c") ∧
      w.db.messages.get? 40 = none :=
    Run.exists_of_exec (fun _ _ => trivial) (creates 1 10 "c" ++ becomes_ready 1 ++
      through 1 [.returned] ++ submits 3 10 20 30 ++ through 3 [.returned]) _ (by decide +kernel)
  let env : Environment :=
    { respond := fun n => some (if n = 0 then [.tool_use "tool-1" "computer" .empty] else [.text "done"])
      execute := fun _ => some { output := some "ok" }
      emits := fun _ => true
      schedule := fun n => n + 1 }
  let runner : AnthropicAgentRunner := { decoder := ⟨.ok, fun _ => .error .JSONDecodeError⟩ }
  have houtcome : (runner.outcome env "task" (some "c")).toOption = some "done" := by decide +kernel
  have hundisturbed : Undisturbed runner env run.input session.runtime_id := by
    rw [hinput, hruntime]
    refine ⟨fun _ => rfl, fun _ => rfl, by decide, fun hfull => ?_⟩
    rw [hfull] at houtcome
    cases houtcome
  obtain ⟨w', -, -, -, -, -, -, hcompleted, -⟩ := agent_run_recorded hrun hidle hfresh hget hpending
    (hid ▸ hsession) hdeleted hundisturbed (fun _ => []) "" (fun _ => true) (fun i => i) (fun _ => 40)
    fun _ => hunused
  have hget' : w.db.runs.get? 20 = some run := hget
  have htext : runner.decoder._parse_text_tool_calls "done" = .ok [] :=
    runner.decoder.quiet_iff.mp (by decide +kernel)
  have hquiet : ¬ runner.decoder.calling (env.response 1) := by
    simp [Decoder.calling, env, Environment.response, Decoder.textual, htext, Block.tool_id, Except.toOption]
  have hanswers : ∀ asked made, env.Answers made asked := by
    intro asked
    induction asked with
    | nil => exact fun _ => trivial
    | cons call asked ih => exact fun made => ⟨rfl, ih _⟩
  have hclear : runner.Clear env := by
    refine fun n _ => ⟨fun text hmem => ⟨[], ?_⟩, hanswers _ _⟩
    by_cases hn : n = 0
    · simp [env, Environment.response, hn] at hmem
    · obtain rfl : text = "done" := by simpa [env, Environment.response, hn] using hmem
      exact htext
  exact ⟨w, w', by simp [hget', hpending], hcompleted.mpr ⟨hclear, 1, by decide, hquiet⟩⟩

end World

end session_manager
