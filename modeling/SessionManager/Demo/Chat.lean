import SessionManager.Demo.Loop
import SessionManager.Library.Transition

namespace session_manager.streamlit

open loop remote_tools

def INTERRUPT_TEXT : String := "(user stopped or interrupted and wrote the following)"
def INTERRUPT_TOOL_ERROR : String := "human stopped or interrupted tool execution"

/-- What the sidebar of a run of the page leaves in `st.session_state`. -/
structure Settings where
  provider : APIProvider := .ANTHROPIC
  api_key : String := ""
  only_n_most_recent_images : Nat := 3
deriving DecidableEq, Repr

/-- Where the script is: between two runs of the page, before it enters the
loop, in the request of an iteration, or at a block of the response. -/
inductive Phase
  | idle
  | ready
  | requesting
  | responding (response_params tool_result_content : List Block)

/-- `st.session_state`, and where the script is. -/
structure State where
  settings : Settings := {}
  messages : List Message := []
  tools : Table String ToolResult := .empty
  in_sampling_loop : Bool := false
  auth_validated : Bool := false
  phase : Phase := .idle

/-- One run of the page: the settings, whether "Reset" was pressed, whether
there are credentials for the provider, the new message, and whether the script
was loaded anew, with a `Sender` class of its own. -/
structure Page where
  settings : Settings
  reset : Bool := false
  credentials : Bool := true
  new_message : Option String
  reloaded : Bool := true

inductive Label
  | page (page : Page)
  /-- The page enters `track_sampling_loop` and the loop sends its first request. -/
  | enter
  | response (content : List ResponseBlock)
  | api_error
  /-- A block that is not a tool use is rendered. -/
  | output
  /-- The tool of a tool use returns. -/
  | tool (result : ToolResult)
  /-- The loop over the blocks is over. -/
  | continue_
  /-- An exception leaves the script: of a tool, or of streamlit, which stops it. -/
  | raise

/-- `_render_message` of a block of a message, or of the stored tool result,
raises nothing. -/
def _render_message (tools : Table String ToolResult) (block : Block) : Bool :=
  match block.param with
  | .text _ | .thinking .. | .tool_use .. => true
  | .tool_result tool_use_id _ _ => (tools.get? tool_use_id).isSome
  | .other _ => false

namespace State

def sidebar (s : State) (page : Page) : State :=
  if page.reset then { settings := page.settings }
  else { s with
    settings := page.settings
    auth_validated := s.auth_validated && page.settings.provider = s.settings.provider
    phase := .idle }

def validate_auth (s : State) (credentials : Bool) : Bool :=
  match s.settings.provider with
  | .ANTHROPIC => s.settings.api_key ≠ ""
  | .BEDROCK | .VERTEX => credentials

/-- The past chats are rendered without an exception. -/
def renders (s : State) : Bool :=
  s.messages.all fun message => message.blocks.all (_render_message s.tools)

def interruption_result (tool_use_id : String) : Block :=
  { param := .tool_result tool_use_id (.text INTERRUPT_TOOL_ERROR) true }

/-- The blocks, and `st.session_state.tools`; `none` is the `IndexError` of an
empty list of messages. -/
def maybe_add_interruption_blocks (s : State) : Option (List Block × Table String ToolResult) :=
  if ¬ s.in_sampling_loop then some ([], s.tools)
  else do
    let last_message ← s.messages.getLast?
    let previous_tool_use_ids := last_message.uses
    let tools := previous_tool_use_ids.foldl
      (fun tools id => tools.assign id { error := some INTERRUPT_TOOL_ERROR }) s.tools
    return (previous_tool_use_ids.map interruption_result ++ [{ param := .text INTERRUPT_TEXT }], tools)

/-- The new message is appended, after what the interruption of the last loop
calls for. -/
def submit (s : State) (new_message : String) : State :=
  match s.maybe_add_interruption_blocks with
  | none => s
  | some (blocks, tools) => { s with
      messages := s.messages ++ [⟨.sender, .blocks (blocks ++ [{ param := .text new_message }])⟩]
      tools := tools
      phase := .ready }

/-- The page was run without a new message. -/
def respond_again (s : State) (page : Page) : State :=
  match s.messages.getLast? with
  | none => s
  | some most_recent_message =>
    if most_recent_message.role = .sender ∧ ¬ page.reloaded then { s with phase := .ready } else s

/-- `main` from the rendering of the past chats on, up to where it enters the
loop, if it does. -/
def chat (s : State) (page : Page) : State :=
  if s.renders then
    match page.new_message with
    | some new_message => s.submit new_message
    | none => s.respond_again page
  else s

def authorize (s : State) (page : Page) : State :=
  if ¬ s.auth_validated ∧ ¬ s.validate_auth page.credentials then s
  else { s with auth_validated := true }.chat page

def page (s : State) (page : Page) : State := (s.sidebar page).authorize page

/-- An iteration of the loop up to its request. -/
def iterate (s : State) : State :=
  match prepare s.settings.provider s.settings.only_n_most_recent_images s.messages with
  | some messages => { s with messages := messages, phase := .requesting }
  | none => { s with phase := .idle }

def step (s : State) : Label → Option State
  | .page page => some (s.page page)
  | .enter =>
    match s.phase with
    | .ready => some ({ s with in_sampling_loop := true } : State).iterate
    | _ => none
  | .response content =>
    match s.phase with
    | .requesting =>
      let response_params := _response_to_params content
      some { s with
        messages := s.messages ++ [⟨.assistant, .blocks response_params⟩]
        phase := .responding response_params [] }
    | _ => none
  | .api_error =>
    match s.phase with
    | .requesting => some { s with in_sampling_loop := false, phase := .idle }
    | _ => none
  | .output =>
    match s.phase with
    | .responding (block :: response_params) tool_result_content =>
      if block.use?.isSome then none
      else if _render_message s.tools block then
        some { s with phase := .responding response_params tool_result_content }
      else some { s with phase := .idle }
    | _ => none
  | .tool result =>
    match s.phase with
    | .responding (block :: response_params) tool_result_content =>
      block.use?.map fun id => { s with
        tools := s.tools.assign id result
        phase := .responding response_params (tool_result_content ++ [_make_api_tool_result result id]) }
    | _ => none
  | .continue_ =>
    match s.phase with
    | .responding [] [] => some { s with in_sampling_loop := false, phase := .idle }
    | .responding [] tool_result_content =>
      some ({ s with messages := s.messages ++ [⟨.user, .blocks tool_result_content⟩] } : State).iterate
    | _ => none
  | .raise =>
    match s.phase with
    | .idle => none
    | _ => some { s with phase := .idle }

/-- Rendering the sidebar leaves the page between two runs of its script. -/
theorem phase_sidebar (s : State) (page : Page) : (s.sidebar page).phase = .idle := by
  unfold sidebar
  split <;> rfl

end State

variable {s t : State}

/-- What a run of the page can make of the state that its sidebar leaves. -/
inductive Paged (s : State) (page : Page) : State → Prop
  | idle (auth_validated : Bool) : Paged s page { s with auth_validated }
  | new_message (new_message : String) (blocks : List Block) (tools : Table String ToolResult)
      (hnew : page.new_message = some new_message) (hrenders : s.renders = true)
      (hblocks : s.maybe_add_interruption_blocks = some (blocks, tools)) :
      Paged s page { s with
        messages := s.messages ++ [⟨.sender, .blocks (blocks ++ [{ param := .text new_message }])⟩]
        tools := tools
        auth_validated := true
        phase := .ready }
  | again (most_recent_message : Message) (hrenders : s.renders = true)
      (hlast : s.messages.getLast? = some most_recent_message) (hsender : most_recent_message.role = .sender) :
      Paged s page { s with auth_validated := true, phase := .ready }

/-- The inversion of `authorize`: the run of the script ends without a request, sends
the user's message, or goes on with the conversation that an interruption left. -/
theorem Paged.of_authorize (s : State) (page : Page) : Paged s page (s.authorize page) := by
  unfold State.authorize
  split
  · exact .idle _
  · unfold State.chat
    split
    · rename_i hrenders
      split
      · rename_i new_message hnew
        unfold State.submit
        split
        · exact .idle true
        · rename_i blocks tools hblocks
          exact .new_message new_message blocks tools hnew hrenders hblocks
      · unfold State.respond_again
        split
        · exact .idle true
        · rename_i most_recent_message hlast
          split
          · rename_i hsender
            exact .again most_recent_message hrenders hlast hsender.1
          · exact .idle true
    · exact .idle true

/-- What each step can do. -/
inductive Stepped (s : State) : Label → State → Prop
  | page (page : Page) (t : State) (hpage : Paged (s.sidebar page) page t) : Stepped s (.page page) t
  | enter (hphase : s.phase = .ready) :
      Stepped s .enter ({ s with in_sampling_loop := true } : State).iterate
  | response (content : List ResponseBlock) (hphase : s.phase = .requesting) :
      Stepped s (.response content) { s with
        messages := s.messages ++ [⟨.assistant, .blocks (_response_to_params content)⟩]
        phase := .responding (_response_to_params content) [] }
  | api_error (hphase : s.phase = .requesting) :
      Stepped s .api_error { s with in_sampling_loop := false, phase := .idle }
  | output {block : Block} {response_params tool_result_content : List Block}
      (hphase : s.phase = .responding (block :: response_params) tool_result_content)
      (huse : block.use? = none) (hrender : _render_message s.tools block = true) :
      Stepped s .output { s with phase := .responding response_params tool_result_content }
  | unrendered {block : Block} {response_params tool_result_content : List Block}
      (hphase : s.phase = .responding (block :: response_params) tool_result_content)
      (huse : block.use? = none) (hrender : _render_message s.tools block = false) :
      Stepped s .output { s with phase := .idle }
  | tool {block : Block} {response_params tool_result_content : List Block}
      (hphase : s.phase = .responding (block :: response_params) tool_result_content)
      (result : ToolResult) (id : String) (huse : block.use? = some id) :
      Stepped s (.tool result) { s with
        tools := s.tools.assign id result
        phase := .responding response_params (tool_result_content ++ [_make_api_tool_result result id]) }
  | finish (hphase : s.phase = .responding [] []) :
      Stepped s .continue_ { s with in_sampling_loop := false, phase := .idle }
  | continue_ {tool_result_content : List Block} (hphase : s.phase = .responding [] tool_result_content)
      (hresults : tool_result_content ≠ []) :
      Stepped s .continue_
        ({ s with messages := s.messages ++ [⟨.user, .blocks tool_result_content⟩] } : State).iterate
  | raise (hphase : s.phase ≠ .idle) : Stepped s .raise { s with phase := .idle }

/-- The inversion of `step`: every step of the page is one of the cases of `Stepped`.
Invariants of the page split these cases and never unfold the step. -/
theorem Stepped.of_step {l : Label} (hstep : s.step l = some t) : Stepped s l t := by
  cases l with
  | page page =>
    cases hstep
    exact .page page _ (.of_authorize _ page)
  | enter =>
    simp only [State.step] at hstep
    split at hstep <;> cases hstep
    exact .enter ‹_›
  | response content =>
    simp only [State.step] at hstep
    split at hstep <;> cases hstep
    exact .response content ‹_›
  | api_error =>
    simp only [State.step] at hstep
    split at hstep <;> cases hstep
    exact .api_error ‹_›
  | output =>
    simp only [State.step] at hstep
    split at hstep
    · rename_i block response_params tool_result_content hphase
      split at hstep
      · cases hstep
      · rename_i huse
        split at hstep <;> cases hstep
        · exact .output hphase (by simpa using huse) ‹_›
        · exact .unrendered hphase (by simpa using huse) (Bool.eq_false_iff.mpr ‹_›)
    · cases hstep
  | tool result =>
    simp only [State.step] at hstep
    split at hstep
    · rename_i hphase
      obtain ⟨id, huse, rfl⟩ := Option.map_eq_some_iff.mp hstep
      exact .tool hphase result id huse
    · cases hstep
  | continue_ =>
    simp only [State.step] at hstep
    split at hstep <;> cases hstep
    · exact .finish ‹_›
    · rename_i hresults hphase
      exact .continue_ hphase hresults
  | raise =>
    simp only [State.step] at hstep
    split at hstep <;> cases hstep
    exact .raise ‹_›

end session_manager.streamlit
