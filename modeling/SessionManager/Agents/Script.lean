import SessionManager.Agents.Runner

open effect

namespace session_manager

namespace anthropic

open remote_tools anthropic_callbacks

/-- What a run does for the outside to see: it says a text or makes a call under
an id. -/
inductive Step
  | say (text : String)
  | act (id : String) (call : Call)

def Step.call : Step → Option Call
  | say _ => none
  | act _ call => some call

def calls (steps : List Step) : List Call := steps.filterMap Step.call

@[simp] theorem calls_nil : calls [] = [] := rfl

@[simp] theorem calls_say (text : String) (steps : List Step) : calls (.say text :: steps) = calls steps :=
  rfl

@[simp] theorem calls_act (id : String) (call : Call) (steps : List Step) :
    calls (.act id call :: steps) = call :: calls steps := rfl

/-- The events of one call. -/
def call_events (id : String) (call : Call) (result : ToolResult) : List Event :=
  [.TOOL_STARTED id call.name call.input,
    .TOOL_RESULT id (truthy result.error) (result_output result)] ++
  if truthy result.base64_image then [.SCREENSHOT_AVAILABLE id] else []

/-- The events of these steps, with the results of their calls after those made
before. -/
def narrate (results : List Call → ToolResult) : List Call → List Step → List Event
  | _, [] => []
  | made, .say text :: steps => .ASSISTANT_MESSAGE text :: narrate results made steps
  | made, .act id call :: steps =>
    call_events id call (results (made ++ [call])) ++ narrate results (made ++ [call]) steps

/-- The events of a longer script are those of its parts, the second part told with the
results that the calls of the first have led to. -/
theorem narrate_append (results : List Call → ToolResult) (made : List Call) (steps steps' : List Step) :
    narrate results made (steps ++ steps') =
      narrate results made steps ++ narrate results (made ++ calls steps) steps' := by
  induction steps generalizing made with
  | nil => simp [narrate]
  | cons step steps ih => cases step <;> simp [narrate, ih]

/-- The calls of a longer script are those of its parts, in order; what is said in
between does not count. -/
theorem calls_append (steps steps' : List Step) : calls (steps ++ steps') = calls steps ++ calls steps' :=
  List.filterMap_append ..

namespace Decoder

variable (decoder : Decoder)

/-- The text is parsed, and it holds no calls. -/
def quiet (text : String) : Bool :=
  match decoder._parse_text_tool_calls text with
  | .ok [] => true
  | _ => false

/-- A text is quiet when its parse returns, with no call. A parse that raises is not
quiet. -/
theorem quiet_iff {text : String} : decoder.quiet text = true ↔ decoder._parse_text_tool_calls text = .ok [] := by
  unfold quiet
  split <;> simp_all

/-- The textual calls of a block. -/
def textual : Block → List Call
  | .text text => (decoder._parse_text_tool_calls text).toOption.getD []
  | .tool_use .. | .other _ => []

/-- The texts of a block the user gets to read. -/
def said : Block → List String
  | .text text => if text ≠ "" ∧ decoder.quiet text = true then [text] else []
  | .tool_use .. | .other _ => []

def native : Block → List Step
  | .tool_use id name input => [.act id ⟨name, input⟩]
  | block => (decoder.said block).map .say

/-- What the runner does for response number `iteration`: the blocks in their
order, then the textual calls in theirs. -/
def steps (iteration : Nat) (blocks : List Block) : List Step :=
  blocks.flatMap decoder.native ++
    (blocks.flatMap decoder.textual).zipIdx.map fun (call, call_index) =>
      .act (AnthropicAgentRunner.text_tool_id iteration call_index) call

/-- What a run does for its first `n` responses. -/
def script (respond : Nat → List Block) (n : Nat) : List Step :=
  (List.range n).flatMap fun i => decoder.steps i (respond i)

/-- One more response appends its own steps to the script. Inductions on the number of
responses go by this. -/
theorem script_succ (respond : Nat → List Block) (n : Nat) :
    decoder.script respond (n + 1) = decoder.script respond n ++ decoder.steps n (respond n) := by
  simp [script, List.range_succ]

/-- There is no call to parse in an empty text. -/
@[simp] theorem parse_empty : decoder._parse_text_tool_calls "" = .ok [] := rfl

/-- The calls of a response, in the order in which the runner makes them. -/
def asks (blocks : List Block) : List Call :=
  calls (blocks.flatMap decoder.native) ++ blocks.flatMap decoder.textual

/-- A script that only talks calls no tool. -/
@[simp] theorem calls_says (texts : List String) : calls (texts.map .say) = [] := by
  simp [calls, Step.call]

/-- A response of one text asks for what its parse returns, and for nothing if that
raises. -/
theorem asks_text (text : String) :
    decoder.asks [.text text] = (decoder._parse_text_tool_calls text).toOption.getD [] := by
  simp [asks, native, textual]

private theorem calls_acts (iteration : Nat) (rows : List (Call × Nat)) :
    calls (rows.map fun row => .act (AnthropicAgentRunner.text_tool_id iteration row.2) row.1) =
      rows.map Prod.fst := by
  induction rows with
  | nil => rfl
  | cons row rows ih => exact congrArg (row.1 :: ·) ih

/-- The steps of a response make just the calls it asks for, native or parsed, and in
the same order. -/
theorem calls_steps (iteration : Nat) (blocks : List Block) :
    calls (decoder.steps iteration blocks) = decoder.asks blocks := by
  rw [steps, asks, calls_append, calls_acts, List.zipIdx_map_fst]

/-- The parser raises for a text of the response. -/
def Raises (blocks : List Block) (exc : DecodeException) : Prop :=
  ∃ text, .text text ∈ blocks ∧ decoder._parse_text_tool_calls text = .error exc

/-- The parser returns for every text of the response. -/
def Parses (blocks : List Block) : Prop :=
  ∀ text, .text text ∈ blocks → ∃ parsed_calls, decoder._parse_text_tool_calls text = .ok parsed_calls

/-- A text that is parsed adds its calls to those of the response, and raises nothing in
it. -/
theorem textual_text {text : String} {parsed_calls : List Call}
    (h : decoder._parse_text_tool_calls text = .ok parsed_calls) :
    decoder.textual (.text text) = parsed_calls ∧ decoder.Parses [.text text] := by
  refine ⟨by simp [textual, h, Except.toOption], fun text' hmem => ?_⟩
  cases List.mem_singleton.mp hmem
  exact ⟨parsed_calls, h⟩

end Decoder

/-- A response of which a text raises is not parsed, whatever its other texts are: the
run ends at that text. -/
theorem Decoder.Raises.not_parses {decoder : Decoder} {blocks : List Block} {exc : DecodeException}
    (h : decoder.Raises blocks exc) : ¬ decoder.Parses blocks := by
  obtain ⟨text, hmem, hraise⟩ := h
  intro hparses
  obtain ⟨parsed_calls, hparse⟩ := hparses text hmem
  cases hraise.symm.trans hparse

/-- The ids of the `tool_use` blocks. -/
def Block.tool_id : Block → Option String
  | tool_use id _ _ => some id
  | _ => none

def UserBlock.result_id : UserBlock → Option String
  | tool_result id _ _ => some id
  | content _ => none

def Environment.response (env : Environment) (n : Nat) : List Block := (env.respond n).getD []

def Environment.result (env : Environment) (made : List Call) : ToolResult := (env.execute made).getD {}

/-- The tools have results for these calls after those made before. -/
def Environment.Answers (env : Environment) : List Call → List Call → Prop
  | _, [] => True
  | made, call :: rest => (env.execute (made ++ [call])).isSome ∧ env.Answers (made ++ [call]) rest

/-- The tools answer a longer list of calls when they answer its parts one after the
other. -/
theorem Environment.answers_append (env : Environment) (made rest rest' : List Call) :
    env.Answers made (rest ++ rest') ↔ env.Answers made rest ∧ env.Answers (made ++ rest) rest' := by
  induction rest generalizing made with
  | nil => simp [Answers]
  | cons call rest ih => simp [Answers, ih, and_assoc]

/-- A response with a call, of either kind. -/
def Decoder.calling (decoder : Decoder) (blocks : List Block) : Prop :=
  blocks.filterMap Block.tool_id ≠ [] ∨ blocks.flatMap decoder.textual ≠ []

/-- The responses with a call are those that ask for one. After such a response the loop
goes on. -/
theorem Decoder.calling_iff (decoder : Decoder) (blocks : List Block) :
    decoder.calling blocks ↔ decoder.asks blocks ≠ [] := by
  have hnative : calls (blocks.flatMap decoder.native) = [] ↔ blocks.filterMap Block.tool_id = [] := by
    induction blocks with
    | nil => simp
    | cons block blocks ih =>
      rw [List.flatMap_cons, calls_append, List.append_eq_nil_iff, ih]
      cases block with
      | tool_use => simp [Decoder.native, Block.tool_id]
      | text | other => simp [Decoder.native, Block.tool_id]
  rw [Decoder.calling, Decoder.asks, ne_eq, ne_eq, ne_eq, List.append_eq_nil_iff, hnative, not_and_or]

/-- What happened between two states of a run: events the adapter took and calls
of tools, which had their results, but no request. -/
structure Added (env : Environment) (s s' : RunState) (events : List Event) (calls : List Call) :
    Prop where
  published : s'.adapter.published = s.adapter.published ++ events
  executed : s'.executed = s.executed ++ calls
  returned : env.Answers s.executed calls
  requests : s'.requests = s.requests
  live : (∀ n, env.emits n = true) → s.adapter.Live → s'.adapter.Live

/-- These steps happened, with the results the tools had for them. -/
def Did (env : Environment) (s s' : RunState) (steps : List Step) : Prop :=
  Added env s s' (narrate env.result s.executed steps) (calls steps)

/-- What breaks off the work on a response after these calls: the buffer is full,
the parser raises, or a tool does for the last call. -/
inductive Cause (env : Environment) (raises : DecodeException → Prop) (made : List Call) : AgentError → Prop
  | full : Cause env raises made .CallbackBufferFullError
  | parse {exc : DecodeException} (hraises : raises exc) : Cause env raises made (.parse exc)
  | tool (hraises : env.execute made = none) : Cause env raises made .tool

/-- How the loops over a response end early, when these calls are asked for. -/
structure Broken (env : Environment) (raises : DecodeException → Prop) (asked : List Call) (s : RunState)
    (error : AgentError) (s' : RunState) : Prop where
  requests : s'.requests = s.requests
  live : (∀ n, env.emits n = true) → s.adapter.Live → s'.adapter.Live
  executed : ∃ made, made <+: asked ∧ s'.executed = s.executed ++ made ∧ (error = .tool → made ≠ [])
  cause : Cause env raises s'.executed error

section Specs

variable {env : Environment} {s s' s'' : RunState} {runner : AnthropicAgentRunner} {α : Type}
  {x : Agent α} {Q : α → RunState → Prop} {events events' : List Event} {made made' asked asked' : List Call}
  {steps steps' : List Step} {raises : DecodeException → Prop}

private theorem Added.refl : Added env s s [] [] := ⟨by simp, by simp, trivial, rfl, fun _ h => h⟩

private theorem Added.trans (h : Added env s s' events made) (h' : Added env s' s'' events' made') :
    Added env s s'' (events ++ events') (made ++ made') where
  published := by rw [h'.published, h.published, List.append_assoc]
  executed := by rw [h'.executed, h.executed, List.append_assoc]
  returned := (env.answers_append _ _ _).mpr ⟨h.returned, h.executed ▸ h'.returned⟩
  requests := h'.requests.trans h.requests
  live hemits hlive := h'.live hemits (h.live hemits hlive)

private theorem Did.refl : Did env s s [] := Added.refl

private theorem Did.trans (h : Did env s s' steps) (h' : Did env s' s'' steps') :
    Did env s s'' (steps ++ steps') := by
  have hadded := Added.trans h h'
  rw [h.executed] at hadded
  rwa [Did, narrate_append, calls_append]

private theorem Broken.widen {error : AgentError} (h : Broken env raises asked s error s') (hasked : asked <+: asked') :
    Broken env raises asked' s error s' := by
  obtain ⟨made, hmade, hexecuted, htool⟩ := h.executed
  exact ⟨h.requests, h.live, ⟨made, hmade.trans hasked, hexecuted, htool⟩, h.cause⟩

/-- What breaks off later breaks off the whole. -/
private theorem Ensures.later (asked : List Call) (hx : Ensures x s' Q (Broken env raises asked s'))
    (h : Added env s s' events made) :
    Ensures x s' Q (Broken env raises (made ++ asked) s) := by
  refine hx.mono (fun _ _ hQ => hQ) fun _ s'' hbroken => ?_
  obtain ⟨more, hmore, hexecuted, htool⟩ := hbroken.executed
  rw [h.executed, List.append_assoc] at hexecuted
  refine ⟨hbroken.requests.trans h.requests, fun hemits hlive => hbroken.live hemits (h.live hemits hlive),
    ⟨made ++ more, (List.prefix_append_right_inj made).mpr hmore, hexecuted, fun herror => ?_⟩, hbroken.cause⟩
  exact List.append_ne_nil_of_right_ne_nil _ (htool herror)

private theorem put_ensures (event : Event) :
    Ensures (_put (.event event)) s (fun _ s' => Added env s s' [event] []) (Broken env raises [] s) := by
  apply Ensures.get
  split
  · exact .raise ⟨rfl, fun _ h => h, ⟨[], List.prefix_rfl, by simp, by simp⟩, .full⟩
  · exact .modify ⟨Adapter.published_enqueue, by simp, trivial, rfl, fun _ h => h.enqueue⟩

private theorem run_tool_ensures (call : Call) :
    Ensures (env.run_tool call) s
      (fun result s' => result = env.result (s.executed ++ [call]) ∧ Added env s s' [] [call])
      (Broken env raises [call] s) := by
  apply Ensures.get
  apply Ensures.bind
  apply Ensures.modify
  apply Ensures.bind
  apply Ensures.modify
  split
  · rename_i result hexecute
    refine .ret ⟨by simp [Environment.result, hexecute], ?_, rfl, ⟨by simp [hexecute], trivial⟩, rfl, ?_⟩
    · simp [Adapter.published_works]
    · exact fun hemits h => h.works hemits _
  · rename_i hexecute
    exact .raise ⟨rfl, fun hemits h => h.works hemits _, ⟨[call], List.prefix_rfl, rfl, by simp⟩, .tool hexecute⟩

private theorem tool_output_ensures (result : ToolResult) (id : String) :
    Ensures (tool_output_callback result id) s
      (fun _ s' => Added env s s' (.TOOL_RESULT id (truthy result.error) (result_output result) ::
        if truthy result.base64_image then [.SCREENSHOT_AVAILABLE id] else []) [])
      (Broken env raises [] s) := by
  apply Ensures.bind
  apply (put_ensures _).mono _ fun _ _ h => h
  intro _ s' hresult
  split
  · apply Ensures.later [] _ hresult
    apply (put_ensures _).mono _ fun _ _ h => h
    exact fun _ s'' hshot => hresult.trans hshot
  · exact .ret hresult

/-- The three statements around a call of a tool, on both branches: what is put before
it, the call, and what is put after it. -/
theorem act_ensures (id : String) (call : Call) (f : ToolResult → α) :
    Ensures (do
      output_callback (.tool_use id call.name call.input)
      let result ← env.run_tool call
      tool_output_callback result id
      return f result) s
      (fun a s' => a = f (env.result (s.executed ++ [call])) ∧ Did env s s' [.act id call])
      (Broken env raises [call] s) := by
  apply Ensures.bind
  apply (put_ensures _).mono _ fun _ _ h => h.widen List.nil_prefix
  intro _ s₁ hstarted
  apply Ensures.later [call] _ hstarted
  apply Ensures.bind
  apply (run_tool_ensures call).mono _ fun _ _ h => h
  rintro result s₂ ⟨rfl, hcalled⟩
  apply Ensures.later [] _ hcalled
  apply Ensures.bind
  apply (tool_output_ensures _ id).mono _ fun _ _ h => h
  intro _ s₃ hresult
  have hsame : s₁.executed = s.executed := by simp [hstarted.executed]
  rw [hsame] at hresult ⊢
  refine .ret ⟨rfl, ?_⟩
  have hadded := (hstarted.trans hcalled).trans hresult
  simpa [Did, narrate, call_events] using hadded

/-- What the loop over the blocks has collected from these. -/
structure Collected.From (decoder : Decoder) (blocks : List Block) (collected : Collected) : Prop where
  tool_results : collected.tool_results.map UserBlock.result_id =
    (blocks.filterMap Block.tool_id).map some
  final_text : collected.final_text = blocks.flatMap decoder.said
  fallback_calls : collected.fallback_calls = blocks.flatMap decoder.textual
  parsed : decoder.Parses blocks

private theorem Collected.From.snoc {blocks : List Block} {block : Block} {collected collected' : Collected}
    (h : collected.From runner.decoder blocks)
    (hresults : collected'.tool_results.map UserBlock.result_id =
      collected.tool_results.map UserBlock.result_id ++ block.tool_id.toList.map some)
    (htext : collected'.final_text = collected.final_text ++ runner.decoder.said block)
    (hcalls : collected'.fallback_calls = collected.fallback_calls ++ runner.decoder.textual block)
    (hparsed : runner.decoder.Parses [block]) :
    collected'.From runner.decoder (blocks ++ [block]) where
  tool_results := by
    rw [hresults, h.tool_results, List.filterMap_append, List.map_append]
    cases hid : block.tool_id <;> simp [hid]
  final_text := by simp [htext, h.final_text]
  fallback_calls := by simp [hcalls, h.fallback_calls]
  parsed text hmem := by
    rcases List.mem_append.mp hmem with hbefore | hblock
    · exact h.parsed text hbefore
    · exact hparsed text hblock

private theorem on_block_ensures {blocks : List Block} {collected : Collected}
    (h : collected.From runner.decoder blocks) (block : Block)
    (hraises : ∀ exc, runner.decoder.Raises [block] exc → raises exc) :
    Ensures (runner.on_block env collected block) s
      (fun collected' s' => collected'.From runner.decoder (blocks ++ [block]) ∧
        Did env s s' (runner.decoder.native block))
      (Broken env raises (calls (runner.decoder.native block)) s) := by
  cases block with
  | text text =>
    unfold AnthropicAgentRunner.on_block
    dsimp only
    split
    · rename_i hempty
      obtain ⟨htextual, hparses⟩ := runner.decoder.textual_text (hempty ▸ runner.decoder.parse_empty)
      have hsaid : runner.decoder.said (.text text) = [] := by simp [Decoder.said, hempty]
      refine .ret ⟨h.snoc (by simp [Block.tool_id]) (by simp [hsaid]) (by simp [htextual]) hparses, ?_⟩
      simpa [Decoder.native, hsaid] using Did.refl
    · rename_i hnonempty
      split
      · rename_i exc hparse
        refine .raise ⟨rfl, fun _ h => h, ⟨[], List.nil_prefix, by simp, by simp⟩, .parse (hraises exc ?_)⟩
        exact ⟨text, List.mem_singleton_self _, hparse⟩
      · rename_i hparse
        obtain ⟨htextual, hparses⟩ := runner.decoder.textual_text hparse
        have hsaid : runner.decoder.said (.text text) = [text] := by
          rw [Decoder.said, if_pos ⟨hnonempty, runner.decoder.quiet_iff.mpr hparse⟩]
        apply Ensures.bind
        apply (put_ensures _).mono _ fun _ _ h => h.widen List.nil_prefix
        intro _ s' hput
        refine .ret ⟨h.snoc (by simp [Block.tool_id]) (by simp [hsaid]) (by simp [htextual]) hparses, ?_⟩
        simpa [Decoder.native, hsaid, Did, narrate] using hput
      · rename_i parsed_calls hcalls hparse
        obtain ⟨htextual, hparses⟩ := runner.decoder.textual_text hparse
        have hsaid : runner.decoder.said (.text text) = [] := by
          refine if_neg fun hsaid => hcalls ?_
          simpa [hparse] using runner.decoder.quiet_iff.mp hsaid.2
        refine .ret ⟨h.snoc (by simp [Block.tool_id]) (by simp [hsaid]) (by simp [htextual]) hparses, ?_⟩
        simpa [Decoder.native, hsaid] using Did.refl
  | tool_use id name input =>
    apply (act_ensures id ⟨name, input⟩ _).mono _ fun _ _ h => h
    rintro collected' s' ⟨rfl, hdid⟩
    refine ⟨h.snoc ?_ ?_ ?_ ?_, hdid⟩
    · simp [Block.tool_id, UserBlock.result_id, _tool_result_block]
    · simp [Decoder.said]
    · simp [Decoder.textual]
    · simp [Decoder.Parses]
  | other type =>
    refine .ret ⟨h.snoc ?_ ?_ ?_ ?_, Did.refl⟩
    · simp [Block.tool_id]
    · simp [Decoder.said]
    · simp [Decoder.textual]
    · simp [Decoder.Parses]

/-- The loop over the blocks of a response. It breaks off at the first text whose parse
raises, with the calls before it made. -/
theorem blocks_ensure (blocks : List Block) :
    Ensures (blocks.foldlM (runner.on_block env) {}) s
      (fun collected s' => collected.From runner.decoder blocks ∧
        Did env s s' (blocks.flatMap runner.decoder.native))
      (Broken env (runner.decoder.Raises blocks) (calls (blocks.flatMap runner.decoder.native)) s) := by
  apply Ensures.foldlM (I := fun (done : List Block) (collected : Collected) s' => collected.From runner.decoder done ∧
    Did env s s' (done.flatMap runner.decoder.native))
  · rintro done block rest rfl collected s' ⟨hfrom, hdid⟩
    have hraises : ∀ exc, runner.decoder.Raises [block] exc →
        runner.decoder.Raises (done ++ block :: rest) exc := by
      rintro exc ⟨text, hmem, hraise⟩
      obtain rfl := List.mem_singleton.mp hmem
      exact ⟨text, by simp, hraise⟩
    apply (Ensures.later _ (on_block_ensures hfrom block hraises) hdid).mono
    · rintro collected' s'' ⟨hfrom', hdid'⟩
      exact ⟨hfrom', by simpa using hdid.trans hdid'⟩
    · intro error s'' hbroken
      apply hbroken.widen
      rw [← calls_append, List.flatMap_append, List.flatMap_cons, ← List.append_assoc, calls_append _ (rest.flatMap _)]
      exact List.prefix_append ..
  · exact ⟨⟨rfl, rfl, rfl, by simp [Decoder.Parses]⟩, Did.refl⟩

/-- The loop over the textual calls of a response, which answers them in one message of
the user. -/
theorem fallback_ensures (iteration : Nat) (fallback_calls : List Call) :
    Ensures (fallback_calls.zipIdx.foldlM (AnthropicAgentRunner.on_fallback_call env iteration)
        [AnthropicAgentRunner.fallback_notice]) s
      (fun results s' => results.filterMap UserBlock.result_id = [] ∧
        Did env s s' (fallback_calls.zipIdx.map fun (call, call_index) =>
          .act (AnthropicAgentRunner.text_tool_id iteration call_index) call))
      (Broken env raises fallback_calls s) := by
  apply Ensures.foldlM (I := fun (done : List (Call × Nat)) (results : List UserBlock) s' =>
    results.filterMap UserBlock.result_id = [] ∧ Did env s s' (done.map fun (call, call_index) =>
      .act (AnthropicAgentRunner.text_tool_id iteration call_index) call))
  · rintro done ⟨call, call_index⟩ rest hrest results s' ⟨hresults, hdid⟩
    apply (Ensures.later _ (act_ensures _ call _) hdid).mono
    · rintro results' s'' ⟨rfl, hdid'⟩
      refine ⟨?_, by simpa using hdid.trans hdid'⟩
      rw [List.filterMap_append, hresults]
      simp [_fallback_result_content, UserBlock.result_id]
    · intro error s'' hbroken
      apply hbroken.widen
      have hasked := congrArg (List.map Prod.fst) hrest
      rw [List.map_append, List.map_cons, List.zipIdx_map_fst] at hasked
      rw [Decoder.calls_acts, hasked]
      exact ⟨rest.map Prod.fst, by simp⟩
  · exact ⟨rfl, Did.refl⟩

/-- Request number `i` was answered, and its response worked off. -/
structure Responded (runner : AnthropicAgentRunner) (env : Environment) (i : Nat)
    (messages : List Message) (s s' : RunState) : Prop where
  answered : env.respond i = some (env.response i)
  requests : s'.requests = s.requests ++ [messages]
  published : s'.adapter.published = s.adapter.published ++
    narrate env.result s.executed (runner.decoder.steps i (env.response i))
  executed : s'.executed = s.executed ++ calls (runner.decoder.steps i (env.response i))
  returned : env.Answers s.executed (calls (runner.decoder.steps i (env.response i)))
  parsed : runner.decoder.Parses (env.response i)
  live : (∀ n, env.emits n = true) → s.adapter.Live → s'.adapter.Live

private theorem Responded.of_did {i : Nat} {messages : List Message} (hrespond : env.respond i = some (env.response i))
    (hcreated : Added env { s with requests := s.requests ++ [messages] } s' [] [])
    (hdid : Did env s' s'' (runner.decoder.steps i (env.response i)))
    (hparsed : runner.decoder.Parses (env.response i)) : Responded runner env i messages s s'' := by
  have hadded := hcreated.trans hdid
  have hexecuted : s'.executed = s.executed := by simpa using hcreated.executed
  rw [hexecuted] at hadded
  exact ⟨hrespond, hadded.requests, hadded.published, hadded.executed, hadded.returned, hparsed, hadded.live⟩

/-- The content the runner answers a response with. -/
def Replies (decoder : Decoder) (blocks : List Block) (content : List UserBlock) : Prop :=
  content.filterMap UserBlock.result_id =
    if blocks.flatMap decoder.textual = [] then blocks.filterMap Block.tool_id else []

/-- How iteration number `i` of the loop ends when it fails: the API does, or the
work on the response breaks off after some of its calls, the last of which may be
the one that raises. -/
inductive Fails (runner : AnthropicAgentRunner) (env : Environment) (i : Nat) (s s' : RunState) :
    AgentError → Prop
  | api (hrespond : env.respond i = none) (hexecuted : s'.executed = s.executed) :
    Fails runner env i s s' (.RuntimeError "Anthropic API 调用失败。")
  | broken {error : AgentError} (made : List Call) (hmade : made <+: runner.decoder.asks (env.response i))
    (hexecuted : s'.executed = s.executed ++ made) (htool : error = .tool → made ≠ [])
    (hcause : Cause env (runner.decoder.Raises (env.response i)) s'.executed error) :
    Fails runner env i s s' error

def final_text (decoder : Decoder) (blocks : List Block) : String :=
  let text := strip ("\n".intercalate (blocks.flatMap decoder.said))
  if text = "" then "任务已完成。" else text

private theorem create_ensures (messages : List Message) :
    Ensures (env.create messages) s
      (fun blocks s' => env.respond s.requests.length = some blocks ∧
        Added env { s with requests := s.requests ++ [messages] } s' [] [])
      (fun error s' => error = .RuntimeError "Anthropic API 调用失败。" ∧
        env.respond s.requests.length = none ∧ s'.requests = s.requests ++ [messages] ∧
        s'.executed = s.executed ∧
        ((∀ n, env.emits n = true) → s.adapter.Live → s'.adapter.Live)) := by
  apply Ensures.get
  apply Ensures.bind
  apply Ensures.modify
  apply Ensures.bind
  apply Ensures.modify
  split
  · rename_i blocks hrespond
    refine .ret ⟨hrespond, ?_, by simp, trivial, rfl, ?_⟩
    · simp [Adapter.published_works]
    · exact fun hemits h => h.works hemits _
  · rename_i hrespond
    exact .raise ⟨rfl, hrespond, rfl, rfl, fun hemits h => h.works hemits _⟩

private theorem Collected.From.tool_results_eq_nil {blocks : List Block} {collected : Collected}
    (h : collected.From decoder blocks) :
    collected.tool_results = [] ↔ blocks.filterMap Block.tool_id = [] := by
  rw [← List.map_eq_nil_iff (f := UserBlock.result_id), h.tool_results, List.map_eq_nil_iff]

private theorem Collected.From.replies {blocks : List Block} {collected : Collected}
    (h : collected.From decoder blocks) (htextual : blocks.flatMap decoder.textual = []) :
    Replies decoder blocks collected.tool_results := by
  have hfilter := congrArg (List.filterMap id) h.tool_results
  rw [Replies, if_pos htextual]
  simpa [List.filterMap_map, Function.comp_def] using hfilter

/-- The rule for one iteration: it answers a response with a call and goes on, returns
the text of one without, or fails. -/
theorem iteration_ensures {Q : String → RunState → Prop} {E : AgentError → RunState → Prop}
    {remaining i : Nat} {messages : List Message} (hlength : s.requests.length = i)
    (hturn : ∀ s' content, Responded runner env i messages s s' →
      runner.decoder.calling (env.response i) → Replies runner.decoder (env.response i) content →
      Ensures (runner.iterate env remaining (i + 1)
        (messages ++ [.assistant (env.response i), .user content])) s' Q E)
    (hreturn : ∀ s', Responded runner env i messages s s' →
      ¬ runner.decoder.calling (env.response i) → Q (final_text runner.decoder (env.response i)) s')
    (hfail : ∀ s' error, s'.requests = s.requests ++ [messages] →
      ((∀ n, env.emits n = true) → s.adapter.Live → s'.adapter.Live) → Fails runner env i s s' error →
      E error s') :
    Ensures (runner.iterate env (remaining + 1) i messages) s Q E := by
  apply Ensures.bind
  apply (create_ensures messages).mono
  swap
  · rintro error s' ⟨rfl, hrespond, hrequests, hexecuted, hlive⟩
    exact hfail s' _ hrequests hlive (.api (hlength ▸ hrespond) hexecuted)
  rintro blocks s₁ ⟨hrespond, hcreated⟩
  rw [hlength] at hrespond
  have hresponse : env.response i = blocks := by rw [Environment.response, hrespond]; rfl
  rw [← hresponse] at hrespond ⊢
  have hbroken : ∀ error s', Broken env (runner.decoder.Raises (env.response i))
      (runner.decoder.asks (env.response i)) { s with requests := s.requests ++ [messages] } error s' →
        E error s' := by
    rintro error s' ⟨hrequests, hlive, ⟨made, hmade, hexecuted, htool⟩, hcause⟩
    exact hfail s' error hrequests hlive (.broken made hmade hexecuted htool hcause)
  apply Ensures.bind
  apply (Ensures.later _ (blocks_ensure (env.response i)) hcreated).mono
  swap
  · exact fun error s' h => hbroken error s' (h.widen (List.prefix_append ..))
  rintro collected s₂ ⟨hfrom, hnative⟩
  split
  · rename_i hfallback
    apply Ensures.bind
    apply (Ensures.later _ (fallback_ensures i collected.fallback_calls) (hcreated.trans hnative)).mono
    swap
    · intro error s' h
      apply hbroken
      rwa [hfrom.fallback_calls] at h
    rintro content s₃ ⟨hcontent, hcalled⟩
    rw [hfrom.fallback_calls] at hfallback hcalled
    have hresponded : Responded runner env i messages s s₃ :=
      .of_did hrespond hcreated (hnative.trans hcalled) hfrom.parsed
    have hreplies : Replies runner.decoder (env.response i) content := by
      rw [Replies, if_neg hfallback, hcontent]
    rw [List.append_assoc]
    exact hturn s₃ content hresponded (.inr hfallback) hreplies
  · rename_i hfallback
    rw [hfrom.fallback_calls, not_not] at hfallback
    have hsteps : runner.decoder.steps i (env.response i) =
        (env.response i).flatMap runner.decoder.native := by
      simp [Decoder.steps, hfallback]
    have hresponded : Responded runner env i messages s s₂ :=
      .of_did hrespond hcreated (hsteps ▸ hnative) hfrom.parsed
    split
    · rename_i hresults
      have hcalling : ¬ runner.decoder.calling (env.response i) := by
        simp [Decoder.calling, hfrom.tool_results_eq_nil.mp hresults, hfallback]
      rw [hfrom.final_text]
      exact .ret (hreturn s₂ hresponded hcalling)
    · rename_i hresults
      rw [hfrom.tool_results_eq_nil] at hresults
      rw [List.append_assoc]
      exact hturn s₂ _ hresponded (.inl hresults) (hfrom.replies hfallback)

/-- The rule for the loop of the runner: an invariant that every response with a call
keeps holds until the loop ends. The limit of iterations is an error of its own. -/
theorem iterate_ensures {I : Nat → List Message → RunState → Prop} {Q : String → RunState → Prop}
    {E : AgentError → RunState → Prop} {limit : Nat}
    (hcount : ∀ i messages s, I i messages s → s.requests.length = i)
    (hlimit : ∀ messages s, I limit messages s →
      E (.RuntimeError "Anthropic Agent 超过最大工具调用轮数。") s)
    (hturn : ∀ i messages s s' content, I i messages s → Responded runner env i messages s s' →
      runner.decoder.calling (env.response i) → Replies runner.decoder (env.response i) content →
      I (i + 1) (messages ++ [.assistant (env.response i), .user content]) s')
    (hreturn : ∀ i messages s s', I i messages s → i < limit → Responded runner env i messages s s' →
      ¬ runner.decoder.calling (env.response i) → Q (final_text runner.decoder (env.response i)) s')
    (hfail : ∀ i messages s s' error, I i messages s → i < limit → s'.requests = s.requests ++ [messages] →
      ((∀ n, env.emits n = true) → s.adapter.Live → s'.adapter.Live) → Fails runner env i s s' error →
      E error s')
    (remaining i : Nat) {messages : List Message} (hremaining : i + remaining = limit)
    (h : I i messages s) : Ensures (runner.iterate env remaining i messages) s Q E := by
  induction remaining generalizing i messages s with
  | zero =>
    obtain rfl : i = limit := hremaining
    exact .raise (hlimit _ _ h)
  | succ remaining ih =>
    apply iteration_ensures (hcount i messages s h)
    · intro s' content hresponded hcalling hreplies
      exact ih (i + 1) (by omega) (hturn i messages s s' content h hresponded hcalling hreplies)
    · exact fun s' => hreturn i messages s s' h (by omega)
    · exact fun s' error => hfail i messages s s' error h (by omega)

/-- The rule for the whole run, from its loop to the end of `finally`: the client and
the sandbox are closed only once `close` has returned. -/
theorem run_ensures {user_input : String} {runtime_id : Option RuntimeId}
    {Q R : String → RunState → Prop} {E F : AgentError → RunState → Prop}
    (hunbound : truthy runtime_id = false → E (.RuntimeError "会话尚未绑定可操作的 sandbox。") {})
    (hloop : Ensures (runner.iterate env runner.max_iterations 0 [.user [.content (.text user_input)]])
      { adapter := ({} : Adapter).start } R F)
    (hreturn : ∀ text s, R text s → Ensures env.close s
      (fun _ s' => Q text { s' with client_closed := true, sandbox_closed := true }) E)
    (hraise : ∀ error s, F error s → Ensures env.close s
      (fun _ s' => E error { s' with client_closed := true, sandbox_closed := true }) E) :
    Ensures (runner.run env user_input runtime_id) {} Q E := by
  unfold AnthropicAgentRunner.run
  split
  · rename_i hruntime
    exact .raise (hunbound (by simpa using hruntime))
  · apply Ensures.bind
    apply Ensures.modify
    apply Ensures.cleanup
    apply hloop.mono
    · intro text s' h
      apply Ensures.bind
      apply (hreturn text s' h).mono _ fun _ _ h => h
      intro _ s'' h
      apply Ensures.bind
      exact .modify (.modify h)
    · intro error s' h
      apply Ensures.bind
      apply (hraise error s' h).mono _ fun _ _ h => h
      intro _ s'' h
      apply Ensures.bind
      exact .modify (.modify h)

/-- Post-conditions of a run are conditions on its outcome and its last state, so
results proved by the rules can be read off them and back. -/
theorem run_ensures_iff {user_input : String} {runtime_id : Option RuntimeId}
    {Q : String → RunState → Prop} {E : AgentError → RunState → Prop} :
    Ensures (runner.run env user_input runtime_id) {} Q E ↔
      match runner.outcome env user_input runtime_id with
      | .ok text => Q text (runner.ended env user_input runtime_id)
      | .error error => E error (runner.ended env user_input runtime_id) := by
  unfold Ensures AnthropicAgentRunner.outcome AnthropicAgentRunner.ended
  split <;> rename_i hended <;> rw [hended]

/-- The rule for `close`: it refuses a full queue, and otherwise ends as the worker
does. -/
theorem close_rule {Q : Unit → RunState → Prop} {E : AgentError → RunState → Prop}
    (hidle : s.adapter.worker = none → Q () s)
    (hfull : s.adapter.full = true → E .CallbackBufferFullError s)
    (hraised : s.adapter.full = false →
      ((s.adapter.enqueue .STOP).drained env.emits).worker = some .raised →
      E .sink { s with adapter := (s.adapter.enqueue .STOP).drained env.emits })
    (hstopped : s.adapter.full = false →
      ((s.adapter.enqueue .STOP).drained env.emits).worker ≠ some .raised →
      Q () { s with adapter := { (s.adapter.enqueue .STOP).drained env.emits with worker := none } }) :
    Ensures env.close s Q E := by
  apply Ensures.get
  split
  · apply Ensures.bind
    apply Ensures.get
    split
    · rename_i hfull'
      exact .raise (hfull hfull')
    · rename_i hroom
      rw [Bool.not_eq_true] at hroom
      apply Ensures.modify
      apply Ensures.bind
      apply Ensures.modify
      apply Ensures.get
      split
      · rename_i hworker
        exact .raise (hraised hroom hworker)
      · rename_i hworker
        exact .modify (hstopped hroom hworker)
  · rename_i hworker
    exact .ret (hidle (by simpa using hworker))

/-- `close` makes no requests and no calls, whichever of its parts raises. -/
theorem close_ensures (env : Environment) (s : RunState) :
    Ensures env.close s (fun _ s' => s'.requests = s.requests ∧ s'.executed = s.executed)
      (fun _ s' => s'.requests = s.requests ∧ s'.executed = s.executed) := by
  apply close_rule
  · exact fun _ => ⟨rfl, rfl⟩
  · exact fun _ => ⟨rfl, rfl⟩
  · exact fun _ _ => ⟨rfl, rfl⟩
  · exact fun _ _ => ⟨rfl, rfl⟩

end Specs

end anthropic

end session_manager
