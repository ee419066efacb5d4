import SessionManager.Agents.Callbacks
import SessionManager.Agents.Text
import SessionManager.Library.Effect

namespace session_manager

namespace anthropic

open remote_tools anthropic_callbacks

/-- A block of a response; `other` is of a type the runner does not look at. -/
inductive Block
  | text (text : String)
  | tool_use (id name : String) (input : ToolInput)
  | other (type : String)

inductive Content
  | text (text : String)
  | image (data : String)
deriving DecidableEq, Repr

/-- A block of a message of the user. -/
inductive UserBlock
  | content (content : Content)
  | tool_result (tool_use_id : String) (content : List Content) (is_error : Bool)
deriving DecidableEq, Repr

inductive Message
  | user (content : List UserBlock)
  | assistant (content : List Block)

/-- The exceptions that leave the runner. -/
inductive AgentError
  | RuntimeError (message : String)
  | CallbackBufferFullError
  /-- What `_parse_text_tool_calls` raises. -/
  | parse (exc : DecodeException)
  /-- What `tools.run` raises. -/
  | tool
  /-- What `event_sink.emit` raises, from the worker that `close` awaits. -/
  | sink
deriving DecidableEq, Repr

/-- What the outside answers: the n-th request with a response or an API error,
the last of these calls of tools with a result or a raise, the n-th emit with a
return or a raise; and how many steps the worker makes in the n-th await of the
runner. -/
structure Environment where
  respond : Nat → Option (List Block)
  execute : List Call → Option ToolResult
  emits : Nat → Bool
  schedule : Nat → Nat

/-- The adapter of a run, the requests and calls it has made, and whether it has
closed its clients. -/
structure RunState where
  adapter : Adapter := {}
  requests : List (List Message) := []
  executed : List Call := []
  client_closed : Bool := false
  sandbox_closed : Bool := false

abbrev Agent := EStateM AgentError RunState

structure AnthropicAgentRunner where
  decoder : Decoder
  max_iterations : Nat := 30

def _tool_result_text (result : ToolResult) : String :=
  let text := (if truthy result.error then result.error else result.output).getD ""
  let system := result.system.getD ""
  if truthy result.system then s!"<system>{system}</system>\n{text}" else text

def image_content (result : ToolResult) : List Content :=
  if truthy result.base64_image then [.image (result.base64_image.getD "")] else []

def _tool_result_block (result : ToolResult) (tool_use_id : String) : UserBlock :=
  let text := _tool_result_text result
  .tool_result tool_use_id ((if text ≠ "" then [.text text] else []) ++ image_content result)
    (truthy result.error)

def _fallback_result_content (name : String) (result : ToolResult) : List UserBlock :=
  let status := if truthy result.error then "error" else "success"
  let output :=
    if truthy result.error then result.error.getD ""
    else if truthy result.output then result.output.getD ""
    else "(no textual output)"
  .content (.text s!"Actual sandbox result for {name} ({status}):\n{output}") ::
    (image_content result).map .content

/-- What the loop over the blocks of a response collects. -/
structure Collected where
  tool_results : List UserBlock := []
  final_text : List String := []
  fallback_calls : List Call := []

def _put (item : Item) : Agent Unit := do
  if (← get).adapter.full then throw .CallbackBufferFullError
  modify fun s => { s with adapter := s.adapter.enqueue item }

def output_callback : Block → Agent Unit
  | .text text => _put (.event (.ASSISTANT_MESSAGE text))
  | .tool_use id name input => _put (.event (.TOOL_STARTED id name input))
  | .other _ => pure ()

def tool_output_callback (result : ToolResult) (tool_use_id : String) : Agent Unit := do
  _put (.event (.TOOL_RESULT tool_use_id (truthy result.error) (result_output result)))
  if truthy result.base64_image then
    _put (.event (.SCREENSHOT_AVAILABLE tool_use_id))

namespace Environment

variable (env : Environment)

/-- Every await lets the worker of the adapter go on. -/
def suspend : Agent Unit := modify fun s =>
  let n := env.schedule (s.requests.length + s.executed.length)
  { s with adapter := s.adapter.works env.emits n }

def create (messages : List Message) : Agent (List Block) := do
  let response := env.respond (← get).requests.length
  modify fun s => { s with requests := s.requests ++ [messages] }
  env.suspend
  match response with
  | some blocks => return blocks
  | none => throw (.RuntimeError "Anthropic API 调用失败。")

/-- `RemoteToolCollection.run` -/
def run_tool (call : Call) : Agent ToolResult := do
  let result := env.execute ((← get).executed ++ [call])
  modify fun s => { s with executed := s.executed ++ [call] }
  env.suspend
  match result with
  | some result => return result
  | none => throw .tool

/-- `AnthropicCallbackAdapter.close` -/
def close : Agent Unit := do
  if (← get).adapter.worker.isSome then
    _put .STOP
    modify fun s => { s with adapter := s.adapter.drained env.emits }
    if (← get).adapter.worker = some .raised then throw .sink
    modify fun s => { s with adapter.worker := none }

end Environment

namespace AnthropicAgentRunner

variable (runner : AnthropicAgentRunner) (env : Environment)

/-- One iteration of the loop over the blocks. -/
def on_block (collected : Collected) : Block → Agent Collected
  | .text text =>
    if text = "" then return collected
    else
      match runner.decoder._parse_text_tool_calls text with
      | .error exc => throw (.parse exc)
      | .ok [] => do
        output_callback (.text text)
        return { collected with final_text := collected.final_text ++ [text] }
      | .ok parsed_calls => return { collected with
          fallback_calls := collected.fallback_calls ++ parsed_calls }
  | .tool_use id name input => do
    output_callback (.tool_use id name input)
    let result ← env.run_tool ⟨name, input⟩
    tool_output_callback result id
    return { collected with
      tool_results := collected.tool_results ++ [_tool_result_block result id] }
  | .other _ => return collected

def fallback_notice : UserBlock :=
  .content (.text ("The previous response contained proposed textual tool calls. " ++
    "Ignore any claimed outputs in that response. The following are " ++
    "the real results produced by the isolated sandbox. Continue from " ++
    "these results and use another tool call if verification is needed."))

def text_tool_id (iteration call_index : Nat) : String :=
  s!"text-tool-{iteration + 1}-{call_index + 1}"

/-- One iteration of the loop over the textual calls of a response. -/
def on_fallback_call (iteration : Nat) (fallback_results : List UserBlock) :
    Call × Nat → Agent (List UserBlock)
  | (call, call_index) => do
    let tool_use_id := text_tool_id iteration call_index
    output_callback (.tool_use tool_use_id call.name call.input)
    let result ← env.run_tool call
    tool_output_callback result tool_use_id
    return fallback_results ++ _fallback_result_content call.name result

/-- The iterations from number `iteration` on, `remaining` at most. -/
def iterate : Nat → Nat → List Message → Agent String
  | 0, _, _ => throw (.RuntimeError "Anthropic Agent 超过最大工具调用轮数。")
  | remaining + 1, iteration, messages => do
    let blocks ← env.create messages
    let messages := messages ++ [.assistant blocks]
    let collected ← blocks.foldlM (runner.on_block env) {}
    if collected.fallback_calls ≠ [] then
      let fallback_results ← collected.fallback_calls.zipIdx.foldlM
        (on_fallback_call env iteration) [fallback_notice]
      iterate remaining (iteration + 1) (messages ++ [.user fallback_results])
    else if collected.tool_results = [] then
      let text := strip ("\n".intercalate collected.final_text)
      return if text = "" then "任务已完成。" else text
    else
      iterate remaining (iteration + 1) (messages ++ [.user collected.tool_results])

def run (user_input : String) (runtime_id : Option RuntimeId) : Agent String := do
  if !truthy runtime_id then throw (.RuntimeError "会话尚未绑定可操作的 sandbox。")
  modify fun s => { s with adapter := s.adapter.start }
  try
    iterate runner env runner.max_iterations 0 [.user [.content (.text user_input)]]
  finally
    env.close
    modify fun s => { s with client_closed := true }
    modify fun s => { s with sandbox_closed := true }

def outcome (user_input : String) (runtime_id : Option RuntimeId) : Except AgentError String :=
  match (runner.run env user_input runtime_id).run {} with
  | .ok text _ => .ok text
  | .error error _ => .error error

/-- The state a run leaves, however it ends. -/
def ended (user_input : String) (runtime_id : Option RuntimeId) : RunState :=
  match (runner.run env user_input runtime_id).run {} with
  | .ok _ s | .error _ s => s

end AnthropicAgentRunner

end anthropic

end session_manager
