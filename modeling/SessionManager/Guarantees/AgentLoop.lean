import SessionManager.Agents.Script
import SessionManager.Guarantees.ToolInputs

open effect

namespace session_manager

namespace anthropic

open remote_tools anthropic_callbacks

variable {decoder : Decoder} {env : Environment} {results : List Call → ToolResult} {steps : List Step}
  {made rest : List Call} {text : String} {n : Nat}

/-- Only texts the steps say get into a message: neither a call nor its result is
narrated as one. -/
theorem say_of_narrate (h : .ASSISTANT_MESSAGE text ∈ narrate results made steps) : .say text ∈ steps := by
  fun_induction narrate results made steps with
  | case1 => cases h
  | case2 made text' steps ih =>
    rcases List.mem_cons.mp h with hsame | hrest
    · cases hsame
      exact List.mem_cons_self
    · exact List.mem_cons_of_mem _ (ih hrest)
  | case3 made id call steps ih =>
    rcases List.mem_append.mp h with hcall | hrest
    · unfold call_events at hcall
      split at hcall <;> simp at hcall
    · exact List.mem_cons_of_mem _ (ih hrest)

/-- A text that is said is neither empty nor one with calls, as the runner reports such
texts only. -/
theorem parse_of_script {respond : Nat → List Block} (h : .say text ∈ decoder.script respond n) :
    text ≠ "" ∧ decoder._parse_text_tool_calls text = .ok [] := by
  obtain ⟨i, -, hsteps⟩ := List.mem_flatMap.mp h
  rcases List.mem_append.mp hsteps with hnative | hcalled
  · obtain ⟨block, -, hsay⟩ := List.mem_flatMap.mp hnative
    cases block with
    | text text' =>
      simp only [Decoder.native, Decoder.said] at hsay
      split at hsay
      · rename_i hsaid
        obtain rfl : text = text' := by simpa using hsay
        exact ⟨hsaid.1, decoder.quiet_iff.mp hsaid.2⟩
      · cases hsay
    | tool_use | other => simp [Decoder.native, Decoder.said] at hsay
  · simp at hcalled

/-- Tools that have results for these calls have one for the last of any of them, since
each is executed after those before it. -/
theorem Environment.Answers.last {asked : List Call} (h : env.Answers made asked) (hrest : rest <+: asked)
    (hne : rest ≠ []) : (env.execute (made ++ rest)).isSome := by
  obtain ⟨more, rfl⟩ := hrest
  obtain ⟨first, call, rfl⟩ := (List.eq_nil_or_concat rest).resolve_left hne
  rw [List.concat_eq_append, env.answers_append, env.answers_append] at h
  rw [List.concat_eq_append, ← List.append_assoc]
  exact h.1.2.1

/-- The work on response number `n` goes through: its texts are parsed, and the
tools have results for its calls after those of the responses before. -/
structure Works (decoder : Decoder) (env : Environment) (n : Nat) : Prop where
  parses : decoder.Parses (env.response n)
  answers : env.Answers (calls (decoder.script env.response n)) (decoder.asks (env.response n))

/-- The run has worked off `n` responses, as far as the adapter and the tools are
concerned. -/
structure Worked (decoder : Decoder) (env : Environment) (n : Nat) (s : RunState) : Prop where
  requests : s.requests.length = n
  executed : s.executed = calls (decoder.script env.response n)
  published : s.adapter.published = narrate env.result [] (decoder.script env.response n)
  works : ∀ i < n, Works decoder env i
  live : s.adapter.Live

/-- One more response that goes through extends the account by its steps: its calls, its
events, and the request for it. -/
theorem Worked.responded {runner : AnthropicAgentRunner} {s s' : RunState} {messages : List Message}
    (h : Worked runner.decoder env n s) (hemits : ∀ n, env.emits n = true)
    (hresponded : Responded runner env n messages s s') : Worked runner.decoder env (n + 1) s' where
  requests := by simp [hresponded.requests, h.requests]
  executed := by rw [hresponded.executed, h.executed, Decoder.script_succ, calls_append]
  published := by
    rw [hresponded.published, h.published, h.executed, Decoder.script_succ, narrate_append,
      List.nil_append]
  works i hi := by
    rcases Nat.lt_succ_iff_lt_or_eq.mp hi with hi | rfl
    · exact h.works i hi
    · exact ⟨hresponded.parsed, by simpa only [h.executed, Decoder.calls_steps] using hresponded.returned⟩
  live := hresponded.live hemits h.live

/-- `close` hands over what is left, unless the buffer has no room for STOP. It leaves
the requests and the calls as they are. -/
theorem close_hands_over {s : RunState} (h : s.adapter.Live) (hemits : ∀ n, env.emits n = true) :
    Ensures env.close s
      (fun _ s' => s'.requests = s.requests ∧ s'.executed = s.executed ∧
        s'.adapter.emitted = s.adapter.published)
      (fun error _ => error = .CallbackBufferFullError) := by
  obtain ⟨hworker, hemitted⟩ := h.drained hemits
  apply close_rule
  · intro hnone
    rcases h.1 with hworker | hworker <;> cases hnone.symm.trans hworker
  · exact fun _ => rfl
  · intro _ hraised
    cases hworker.symm.trans hraised
  · exact fun _ _ => ⟨rfl, rfl, hemitted⟩

/-- The run has ended after `n` responses, with every event handed to the sink. -/
structure Finished (decoder : Decoder) (env : Environment) (n : Nat) (s : RunState) : Prop where
  requests : s.requests.length = n
  executed : s.executed = calls (decoder.script env.response n)
  emitted : s.adapter.emitted = narrate env.result [] (decoder.script env.response n)

/-- Closing hands the sink every event that was still in the buffer; the one way to fail
is a buffer without room for STOP. -/
theorem Worked.close {s : RunState} (h : Worked decoder env n s) (hemits : ∀ n, env.emits n = true) :
    Ensures env.close s
      (fun _ s' => Finished decoder env n { s' with client_closed := true, sandbox_closed := true })
      (fun error _ => error = .CallbackBufferFullError) := by
  apply (close_hands_over h.live hemits).mono _ fun _ _ h => h
  rintro _ s' ⟨hrequests, hexecuted, hemitted⟩
  exact ⟨hrequests ▸ h.requests, hexecuted.trans h.executed, hemitted.trans h.published⟩

namespace AnthropicAgentRunner

variable {runner : AnthropicAgentRunner} {user_input : String} {runtime_id : Option RuntimeId}

/-- How a run ends that has worked off `n` responses. -/
def Ends (runner : AnthropicAgentRunner) (env : Environment) (n : Nat) : Except AgentError String → Prop
  | .ok text => ∃ last, n = last + 1 ∧ last < runner.max_iterations ∧
      (∀ i < last, runner.decoder.calling (env.response i)) ∧
      ¬ runner.decoder.calling (env.response last) ∧
      text = final_text runner.decoder (env.response last)
  | .error error => error = .RuntimeError "Anthropic Agent 超过最大工具调用轮数。" ∧
      n = runner.max_iterations ∧ ∀ i < n, runner.decoder.calling (env.response i)

/-- The run reaches response number `n`, unless it breaks off before. -/
def Reaches (runner : AnthropicAgentRunner) (env : Environment) (n : Nat) : Prop :=
  n < runner.max_iterations ∧ ∀ i < n, runner.decoder.calling (env.response i)

/-- A run that ends after `n` responses reaches no other: the last of them has no call,
or the iterations are used up. -/
theorem Ends.reached {outcome : Except AgentError String} {i : Nat} (h : Ends runner env n outcome)
    (hi : runner.Reaches env i) : i < n := by
  cases outcome with
  | ok text =>
    obtain ⟨last, rfl, -, -, hquiet, -⟩ := h
    by_contra hlast
    exact hquiet (hi.2 last (by omega))
  | error error =>
    obtain ⟨-, rfl, -⟩ := h
    exact hi.1

/-- All responses before the last one it works off hold a call, or the loop would have
ended there. -/
theorem Ends.calling {outcome : Except AgentError String} (h : Ends runner env n outcome) (i : Nat)
    (hi : i + 1 < n) : runner.decoder.calling (env.response i) := by
  cases outcome with
  | ok text =>
    obtain ⟨last, rfl, -, hcalling, -⟩ := h
    exact hcalling i (by omega)
  | error error => exact h.2.2 i (by omega)

/-- The run has broken off its work on response number `n`. -/
structure Stopped (runner : AnthropicAgentRunner) (env : Environment) (n : Nat) (error : AgentError)
    (s : RunState) : Prop where
  reaches : runner.Reaches env n
  executed : ∃ made, made <+: runner.decoder.asks (env.response n) ∧
    s.executed = calls (runner.decoder.script env.response n) ++ made ∧ (error = .tool → made ≠ [])
  cause : Cause env (runner.decoder.Raises (env.response n)) s.executed error

/-- Only a full buffer breaks off work that goes through; every other break is a text or
a call that raises. -/
theorem Stopped.not_works {error : AgentError} {s : RunState} (h : Stopped runner env n error s)
    (hfull : error ≠ .CallbackBufferFullError) : ¬ Works runner.decoder env n := by
  obtain ⟨made, hmade, hexecuted, htool⟩ := h.executed
  intro hworks
  cases h.cause with
  | full => exact hfull rfl
  | parse hraises => exact hraises.not_parses hworks.parses
  | tool hraises =>
    have hreturned := hworks.answers.last hmade (htool rfl)
    rw [← hexecuted, hraises] at hreturned
    cases hreturned

/-- With no API error and a sink that takes every event, a run works off its
responses to its end, unless it breaks off. -/
theorem run_finishes (hrespond : ∀ n, (env.respond n).isSome) (hemits : ∀ n, env.emits n = true)
    (hruntime : truthy runtime_id = true) :
    Ensures (runner.run env user_input runtime_id) {}
      (fun text s => ∃ n, Finished runner.decoder env n s ∧ Ends runner env n (.ok text) ∧
        ∀ i < n, Works runner.decoder env i)
      (fun error s => error = .CallbackBufferFullError ∨ (∃ n, Stopped runner env n error s) ∨
        ∃ n, Finished runner.decoder env n s ∧ Ends runner env n (.error error) ∧
          ∀ i < n, Works runner.decoder env i) := by
  apply run_ensures
    (R := fun text s => ∃ n, Worked runner.decoder env n s ∧ Ends runner env n (.ok text))
    (F := fun error s => (s.adapter.Live ∧ ∃ n, Stopped runner env n error s) ∨
      ∃ n, Worked runner.decoder env n s ∧ Ends runner env n (.error error))
  · intro hunbound
    simp [hruntime] at hunbound
  · refine iterate_ensures (I := fun i _ s => Worked runner.decoder env i s ∧
      ∀ j < i, runner.decoder.calling (env.response j)) ?_ ?_ ?_ ?_ ?_ _ _ (Nat.zero_add _) ?_
    · exact fun i _ s h => h.1.requests
    · exact fun _ s h => .inr ⟨_, h.1, rfl, rfl, h.2⟩
    · intro i messages s s' content h hresponded hcalling _
      refine ⟨h.1.responded hemits hresponded, fun j hj => ?_⟩
      rcases Nat.lt_succ_iff_lt_or_eq.mp hj with hj | rfl
      · exact h.2 j hj
      · exact hcalling
    · intro i messages s s' h hi hresponded hcalling
      exact ⟨i + 1, h.1.responded hemits hresponded, i, rfl, hi, h.2, hcalling, rfl⟩
    · intro i messages s s' error h hi _ hlive hfails
      cases hfails with
      | api hnone => simpa [hnone] using hrespond i
      | broken made hmade hexecuted htool hcause =>
        refine .inl ⟨hlive hemits h.1.live, i, ⟨hi, h.2⟩, ⟨made, hmade, ?_, htool⟩, hcause⟩
        rw [hexecuted, h.1.executed]
    · exact ⟨⟨rfl, rfl, rfl, by simp, .inl rfl, by simp [Adapter.start]⟩, by simp⟩
  · rintro text s ⟨n, hworked, hends⟩
    apply (hworked.close hemits).mono
    · exact fun _ s' hfinished => ⟨n, hfinished, hends, hworked.works⟩
    · exact fun error s' hfull => .inl hfull
  · rintro error s (⟨hlive, n, hstopped⟩ | ⟨n, hworked, hends⟩)
    · apply (close_hands_over hlive hemits).mono
      · rintro _ s' ⟨-, hexecuted, -⟩
        exact .inr (.inl ⟨n, hstopped.reaches, hexecuted ▸ hstopped.executed, hexecuted ▸ hstopped.cause⟩)
      · exact fun _ _ hfull => .inl hfull
    · apply (hworked.close hemits).mono
      · exact fun _ s' hfinished => .inr (.inr ⟨n, hfinished, hends, hworked.works⟩)
      · exact fun error s' hfull => .inl hfull

/-- The API answers, the sink takes every event, and the buffer of the adapter does
not get full. -/
structure Undisturbed (runner : AnthropicAgentRunner) (env : Environment) (user_input : String)
    (runtime_id : Option RuntimeId) : Prop where
  respond : ∀ n, (env.respond n).isSome
  emits : ∀ n, env.emits n = true
  runtime : truthy runtime_id = true
  buffer : runner.outcome env user_input runtime_id ≠ .error .CallbackBufferFullError

/-- The work on every response the run reaches goes through. -/
def Clear (runner : AnthropicAgentRunner) (env : Environment) : Prop :=
  ∀ n, runner.Reaches env n → Works runner.decoder env n

/-- A run of `n` responses that executes exactly the calls of their script, hands
the sink exactly its events, and ends as `Ends` says. -/
def Follows (runner : AnthropicAgentRunner) (env : Environment) (user_input : String)
    (runtime_id : Option RuntimeId) : Prop :=
  ∃ n, Finished runner.decoder env n (runner.ended env user_input runtime_id) ∧
    Ends runner env n (runner.outcome env user_input runtime_id) ∧
    ∀ text, .ASSISTANT_MESSAGE text ∈ (runner.ended env user_input runtime_id).adapter.emitted →
      text ≠ "" ∧ runner.decoder._parse_text_tool_calls text = .ok []

/-- How an undisturbed run ends: broken off at a response whose work raises, or after
its last response with the work on all of them done. -/
theorem Undisturbed.ends (h : Undisturbed runner env user_input runtime_id) :
    (∃ n error, runner.outcome env user_input runtime_id = .error error ∧ error ≠ .CallbackBufferFullError ∧
      Stopped runner env n error (runner.ended env user_input runtime_id)) ∨
    ∃ n, Finished runner.decoder env n (runner.ended env user_input runtime_id) ∧
      Ends runner env n (runner.outcome env user_input runtime_id) ∧ ∀ i < n, Works runner.decoder env i := by
  have hrun := @run_finishes env runner user_input runtime_id h.respond h.emits h.runtime
  have hbuffer := h.buffer
  rw [run_ensures_iff] at hrun
  cases houtcome : runner.outcome env user_input runtime_id with
  | ok text =>
    rw [houtcome] at hrun
    exact .inr hrun
  | error error =>
    rw [houtcome] at hrun hbuffer
    have hfull : error ≠ .CallbackBufferFullError := fun herror => hbuffer (by rw [herror])
    rcases hrun.resolve_left hfull with ⟨n, hstopped⟩ | hfinished
    · exact .inl ⟨n, error, rfl, hfull, hstopped⟩
    · exact .inr hfinished

/-- The loop reaches an end after finitely many responses, having done what their script
says, and ends as `Ends` describes. -/
theorem Undisturbed.finishes (h : Undisturbed runner env user_input runtime_id) (hclear : runner.Clear env) :
    ∃ n, Finished runner.decoder env n (runner.ended env user_input runtime_id) ∧
      Ends runner env n (runner.outcome env user_input runtime_id) := by
  rcases h.ends with ⟨n, error, -, hfull, hstopped⟩ | ⟨n, hfinished, hends, -⟩
  · exact absurd (hclear n hstopped.reaches) (hstopped.not_works hfull)
  · exact ⟨n, hfinished, hends⟩

/-- An undisturbed run follows the script exactly when the work on every response it
reaches goes through. -/
theorem Undisturbed.follows_iff (h : Undisturbed runner env user_input runtime_id) :
    runner.Follows env user_input runtime_id ↔ runner.Clear env := by
  constructor
  · rintro ⟨n, -, hends, -⟩
    rcases h.ends with ⟨m, error, houtcome, hfull, hstopped⟩ | ⟨m, -, hends', hworks⟩
    · -- a run that breaks off does not raise what ends the last iteration
      rw [houtcome] at hends
      obtain ⟨rfl, -⟩ := hends
      cases hstopped.cause
    · exact fun i hi => hworks i (hends'.reached hi)
  · intro hclear
    obtain ⟨n, hfinished, hends⟩ := h.finishes hclear
    refine ⟨n, hfinished, hends, fun text htext => ?_⟩
    rw [hfinished.emitted] at htext
    exact parse_of_script (say_of_narrate htext)

end AnthropicAgentRunner

end anthropic

namespace remote_tools.RemoteToolCollection

open anthropic

variable {collection : RemoteToolCollection} {env : Environment}

/-- With a sandbox that answers, exactly a clash of names leaves `run`: every other
error becomes a result. -/
theorem run_returns (hanswers : ∀ name tool, collection.tools.get? name = some tool → tool.executor.Answers)
    (name : String) (tool_input : ToolInput) (sent : List Sent) :
    Ensures (collection.run name tool_input) sent (fun _ _ => ¬ collection.Clashes name tool_input)
      (fun _ _ => collection.Clashes name tool_input) := by
  unfold run
  cases hname : collection.tools.get? name with
  | none => exact .ret fun hclashes => by simp [Clashes, hname] at hclashes
  | some tool =>
    have htool := hanswers name tool hname
    unfold RemoteTool.call
    dsimp only
    split
    · rename_i hself
      exact .raise ⟨by simp [hname], hself⟩
    · rename_i hself
      have hclear : ¬ collection.Clashes name tool_input := fun hclashes => hself hclashes.2
      cases tool with
      | computer tool =>
        dsimp only
        rw [RemoteComputerTool.call_eq]
        cases tool.read tool_input with
        | error result => exact .ret hclear
        | ok request =>
          apply Ensures.handle
          apply (perform_sends (.answers htool) request sent).mono
          · exact fun _ _ _ => hclear
          · rintro exc sent' ⟨⟨message, rfl⟩, -⟩
            exact .ret hclear
      | bash tool =>
        dsimp only
        unfold RemoteBashTool.call
        split
        · exact .ret hclear
        · split
          · exact .ret hclear
          · rw [map_eq_pure_bind]
            apply Ensures.bind
            apply SandboxExecutor.execute_ensures
            · exact fun _ _ => .ret hclear
            · exact fun hraised => absurd hraised (htool _ _)

variable (collection) in
/-- What the calls of a run have sent to its sandbox. -/
def sent (made : List Call) : List Sent :=
  made.foldl (fun sent call =>
    match (collection.run call.name call.input).run sent with
    | .ok _ sent' | .error _ sent' => sent') []

variable (collection) in
/-- What the last of these calls of a run returns, unless it raises. -/
def answer (made : List Call) : Option ToolResult :=
  made.getLast?.bind fun call =>
    match (collection.run call.name call.input).run (collection.sent made.dropLast) with
    | .ok result _ => some result
    | .error _ _ => none

/-- Tools whose executors answer answer every call, unless its input clashes with the
keywords of `run`. -/
theorem answer_isSome (hanswers : ∀ name tool, collection.tools.get? name = some tool → tool.executor.Answers)
    (made : List Call) (call : Call) :
    (collection.answer (made ++ [call])).isSome ↔ ¬ collection.Clashes call.name call.input := by
  have hreturns := run_returns hanswers call.name call.input (collection.sent made)
  unfold answer
  rw [List.getLast?_concat, List.dropLast_concat, Option.bind_some]
  unfold Ensures at hreturns
  split at hreturns <;> rename_i hrun <;> simpa [hrun] using hreturns

/-- All the calls of a response are answered exactly when none of them clashes. -/
theorem answers_iff (hanswers : ∀ name tool, collection.tools.get? name = some tool → tool.executor.Answers)
    (htools : env.execute = collection.answer) (made asked : List Call) :
    env.Answers made asked ↔ ∀ call ∈ asked, ¬ collection.Clashes call.name call.input := by
  induction asked generalizing made with
  | nil => simp [Environment.Answers]
  | cons call asked ih =>
    rw [Environment.Answers, ih, htools, answer_isSome hanswers, List.forall_mem_cons]

variable (collection) in
/-- The parser returns for the texts of the response, and its calls of a known tool
have no key that clashes with the name of a parameter. -/
structure Harmless (decoder : Decoder) (blocks : List Block) : Prop where
  parses : decoder.Parses blocks
  clashes : ∀ call ∈ decoder.asks blocks, ¬ collection.Clashes call.name call.input

/-- The work on a response goes through exactly when the response is harmless: its calls
parse and none of them clashes. -/
theorem works_iff (hanswers : ∀ name tool, collection.tools.get? name = some tool → tool.executor.Answers)
    (htools : env.execute = collection.answer) (decoder : Decoder) (n : Nat) :
    Works decoder env n ↔ collection.Harmless decoder (env.response n) := by
  constructor
  · rintro ⟨hparses, hworks⟩
    exact ⟨hparses, (answers_iff hanswers htools _ _).mp hworks⟩
  · rintro ⟨hparses, hclashes⟩
    exact ⟨hparses, (answers_iff hanswers htools _ _).mpr hclashes⟩

end remote_tools.RemoteToolCollection

namespace anthropic.AnthropicAgentRunner

open remote_tools RemoteToolCollection

variable {runner : AnthropicAgentRunner} {env : Environment} {collection : RemoteToolCollection}
  {user_input : String} {runtime_id : Option RuntimeId}

/-- With a sandbox that answers, an undisturbed run follows the script exactly when
the responses it reaches are harmless. -/
theorem run_follows_script (htools : env.execute = collection.answer)
    (hanswers : ∀ name tool, collection.tools.get? name = some tool → tool.executor.Answers)
    (h : Undisturbed runner env user_input runtime_id) :
    runner.Follows env user_input runtime_id ↔
      ∀ n, runner.Reaches env n → collection.Harmless runner.decoder (env.response n) := by
  rw [h.follows_iff]
  exact forall₂_congr fun n _ => works_iff hanswers htools runner.decoder n

/-- What the tools of the server make of a response with these blocks, before one
that is the last word. -/
def asked (blocks : List Block) : Environment where
  respond n := some (if n = 0 then blocks else [.text "done"])
  execute := toolbox.answer
  emits _ := true
  schedule n := n + 1

/-- A response with a native and a textual call, and one without calls. -/
theorem run_follows_script_mixed :
    let env := asked [.text "<function_calls><invoke name=\"bash\"></invoke></function_calls>",
      .tool_use "tool-1" "computer" (.ofPairs [("action", .string "screenshot")])]
    let runner : AnthropicAgentRunner := { decoder := ⟨.ok, fun _ => .error .JSONDecodeError⟩ }
    (runner.outcome env "task" (some "c")).toOption = some "done" ∧
      (calls (runner.decoder.script env.response 2)).map Call.name = ["computer", "bash"] ∧
      runner.Follows env "task" (some "c") := by
  intro env runner
  have houtcome : (runner.outcome env "task" (some "c")).toOption = some "done" := by decide +kernel
  have hundisturbed : Undisturbed runner env "task" (some "c") := by
    refine ⟨fun _ => rfl, fun _ => rfl, by decide, fun hfull => ?_⟩
    rw [hfull] at houtcome
    cases houtcome
  refine ⟨houtcome, by decide +kernel, (run_follows_script rfl toolbox_answers hundisturbed).mpr fun n _ => ?_⟩
  have hclashes : ∀ call ∈ runner.decoder.asks (env.response n), "self" ∉ call.input.keys := by
    by_cases hn : n = 0
    · subst hn
      decide +kernel
    · have hresponse : env.response n = [.text "done"] := by simp [Environment.response, env, asked, hn]
      rw [hresponse]
      decide +kernel
  refine ⟨fun text hmem => ?_, fun call hcall hclash => hclashes call hcall hclash.2⟩
  have hparses : (runner.decoder._parse_text_tool_calls text).toOption.isSome := by
    by_cases hn : n = 0
    · obtain rfl : text = "<function_calls><invoke name=\"bash\"></invoke></function_calls>" := by
        simpa [Environment.response, env, asked, hn] using hmem
      decide +kernel
    · obtain rfl : text = "done" := by simpa [Environment.response, env, asked, hn] using hmem
      decide +kernel
  cases hparse : runner.decoder._parse_text_tool_calls text with
  | ok parsed_calls => exact ⟨parsed_calls, rfl⟩
  | error exc => simp [hparse, Except.toOption] at hparses

/-- A call with a key named `self` raises once the sink has its TOOL_STARTED. -/
theorem run_leaves_script :
    let env := asked [.tool_use "tool-1" "computer" (.ofPairs [("action", .string "screenshot"), ("self", .null)])]
    let runner : AnthropicAgentRunner := { decoder := ⟨.ok, fun _ => .error .JSONDecodeError⟩ }
    Undisturbed runner env "task" (some "c") ∧
      (runner.ended env "task" (some "c")).adapter.emitted.map (fun event => event matches .TOOL_STARTED ..) = [true] ∧
      ¬ runner.Follows env "task" (some "c") := by
  intro env runner
  have houtcome : runner.outcome env "task" (some "c") = .error .tool := by decide +kernel
  refine ⟨⟨fun _ => rfl, fun _ => rfl, by decide, by simp [houtcome]⟩, by decide +kernel, ?_⟩
  rintro ⟨n, -, hends, -⟩
  rw [houtcome] at hends
  cases hends.1

end anthropic.AnthropicAgentRunner

end session_manager
