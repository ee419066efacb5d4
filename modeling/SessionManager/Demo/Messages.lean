import SessionManager.Agents.RemoteTools
import SessionManager.Domain

namespace session_manager.loop

open remote_tools

/-- A block of the content of a tool result. -/
inductive ResultBlock
  | text (text : String)
  | image (data : String)
deriving DecidableEq, Repr

inductive ResultContent
  | text (text : String)
  | blocks (blocks : List ResultBlock)
deriving DecidableEq, Repr

/-- A block of a message, `cache_control` apart; `other` is a dumped block of
another type. -/
inductive Param
  | text (text : String)
  | thinking (thinking signature : String)
  | tool_use (id name : String) (input : ToolInput)
  | tool_result (tool_use_id : String) (content : ResultContent) (is_error : Bool)
  | other (type : String)

structure Block where
  param : Param
  cache_control : Bool := false

/-- The content of a message is a `str` or a list of blocks. -/
inductive Content
  | text (text : String)
  | blocks (blocks : List Block)

/-- The role of a message. `"user"` is what the loop writes and `Sender.USER`
what the page writes: they are equal, but the page tells them apart by `is`. -/
inductive Role
  | assistant
  | user
  | sender
deriving DecidableEq, Repr

structure Message where
  role : Role
  content : Content

/-- `message["role"] == "user"` -/
def Role.isUser : Role → Bool
  | .assistant => false
  | .user | .sender => true

/-- A block of a response of the API. -/
inductive ResponseBlock
  | text (text : String)
  | thinking (thinking signature : String)
  | tool_use (id name : String) (input : ToolInput)
  | other (type : String)

def _response_to_params (response : List ResponseBlock) : List Block :=
  response.filterMap fun
    | .text text => if text ≠ "" then some { param := .text text } else none
    | .thinking thinking signature => some { param := .thinking thinking signature }
    | .tool_use id name input => some { param := .tool_use id name input }
    | .other type => some { param := .other type }

def _maybe_prepend_system_tool_result (result : ToolResult) (result_text : String) : String :=
  let system := result.system.getD ""
  if truthy result.system then s!"<system>{system}</system>\n{result_text}" else result_text

def _make_api_tool_result (result : ToolResult) (tool_use_id : String) : Block :=
  if truthy result.error then
    let text := _maybe_prepend_system_tool_result result (result.error.getD "")
    { param := .tool_result tool_use_id (.text text) true }
  else
    let output :=
      if truthy result.output then
        [.text (_maybe_prepend_system_tool_result result (result.output.getD ""))]
      else []
    let image := if truthy result.base64_image then [.image (result.base64_image.getD "")] else []
    { param := .tool_result tool_use_id (.blocks (output ++ image)) false }

/-- The id of a tool use. -/
def Block.use? (block : Block) : Option String :=
  match block.param with
  | .tool_use id _ _ => some id
  | _ => none

/-- The id that a tool result answers. -/
def Block.result? (block : Block) : Option String :=
  match block.param with
  | .tool_result tool_use_id _ _ => some tool_use_id
  | _ => none

/-- The blocks of a message; a `str` has none. -/
def Content.toBlocks : Content → List Block
  | .text _ => []
  | .blocks content => content

namespace Message

def blocks (message : Message) : List Block := message.content.toBlocks

/-- The ids of the tool uses of a message. -/
def uses (message : Message) : List String := message.blocks.filterMap Block.use?

/-- The ids that the tool results of a message answer. -/
def results (message : Message) : List String := message.blocks.filterMap Block.result?

end Message

/-- The block made of a result answers the tool use it was made for, whether the result
is an error or an output. -/
theorem result_make_api_tool_result (result : ToolResult) (tool_use_id : String) :
    (_make_api_tool_result result tool_use_id).result? = some tool_use_id := by
  unfold _make_api_tool_result
  split <;> rfl

/-- A result block is no tool use. -/
theorem use_make_api_tool_result (result : ToolResult) (tool_use_id : String) :
    (_make_api_tool_result result tool_use_id).use? = none := by
  unfold _make_api_tool_result
  split <;> rfl

/-- A block of a response answers no tool use. -/
theorem result_of_response {response : List ResponseBlock} {block : Block}
    (h : block ∈ _response_to_params response) : block.result? = none := by
  obtain ⟨source, -, hblock⟩ := List.mem_filterMap.mp h
  cases source with
  | text text =>
    simp only [Option.ite_none_right_eq_some, Option.some.injEq] at hblock
    rw [← hblock.2]
    rfl
  | thinking thinking signature => cases hblock; rfl
  | tool_use id name input => cases hblock; rfl
  | other type => cases hblock; rfl

end session_manager.loop
