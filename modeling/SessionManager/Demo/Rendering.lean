import SessionManager.Demo.Chat
import SessionManager.Demo.Skeleton

open transition

namespace session_manager.streamlit

open loop remote_tools

variable {s t : State}

/-- A block of a type that `_render_message` raises on. -/
def Unexpected (block : Block) : Prop :=
  match block.param with
  | .other _ => True
  | _ => False

/-- Tool results of which the page has kept the original. -/
def Kept (tools : Table String ToolResult) (blocks : List Block) : Prop :=
  ∀ id ∈ blocks.filterMap Block.result?, (tools.get? id).isSome = true

/-- A block is rendered if its type is expected and the original of its result, if it is
one, is stored. -/
theorem render_message_iff {tools : Table String ToolResult} {block : Block} :
    _render_message tools block = true ↔
      ¬ Unexpected block ∧ ∀ id, block.result? = some id → (tools.get? id).isSome = true := by
  obtain ⟨param, cache_control⟩ := block
  cases param with
  | tool_result tool_use_id content is_error => simp [_render_message, Unexpected, Block.result?]
  | text text => simp [_render_message, Unexpected, Block.result?]
  | thinking thinking signature => simp [_render_message, Unexpected, Block.result?]
  | tool_use id name input => simp [_render_message, Unexpected, Block.result?]
  | other type => simp [_render_message, Unexpected]

namespace Kept

variable {tools tools' : Table String ToolResult} {blocks blocks' : List Block}

/-- Two lists of blocks whose results are stored make one whose results are. -/
theorem append (h : Kept tools blocks) (h' : Kept tools blocks') : Kept tools (blocks ++ blocks') := by
  intro id hid
  rw [List.filterMap_append] at hid
  rcases List.mem_append.mp hid with hid | hid
  · exact h id hid
  · exact h' id hid

/-- Blocks without results need nothing to be stored. -/
theorem of_none (h : ∀ block ∈ blocks, block.result? = none) : Kept tools blocks := by
  intro id hid
  rw [List.filterMap_eq_nil_iff.mpr h] at hid
  exact absurd hid List.not_mem_nil

/-- Storing another result, under whatever id, keeps all of them stored: no id is ever
taken out. -/
theorem assign (h : Kept tools blocks) (id : String) (result : ToolResult) :
    Kept (tools.assign id result) blocks := by
  intro other hother
  rw [Table.get?_assign]
  split
  · rfl
  · exact h other hother

private theorem assign_all (h : Kept tools blocks) (result : ToolResult) (ids : List String) :
    Kept (ids.foldl (fun tools id => tools.assign id result) tools) blocks := by
  induction ids generalizing tools with
  | nil => exact h
  | cons id ids ih => exact ih (h.assign id result)

/-- The results assigned one after the other are all there. -/
private theorem of_assign_all (result : ToolResult) (ids : List String) :
    ∀ id ∈ ids, ((ids.foldl (fun tools id => tools.assign id result) tools).get? id).isSome = true := by
  induction ids generalizing tools with
  | nil => exact fun id hid => absurd hid List.not_mem_nil
  | cons first ids ih =>
    intro id hid
    rcases List.mem_cons.mp hid with rfl | hid
    · have hfirst : Kept (tools.assign id result) [{ param := .tool_result id (.text "") true }] := by
        intro other hother
        cases List.mem_singleton.mp hother
        rw [Table.get?_assign, if_pos rfl]
        rfl
      exact hfirst.assign_all result ids id (List.mem_singleton.mpr rfl)
    · exact ih id hid

end Kept

/-- Every tool result of the conversation, and every one that waits for the end
of a response, is stored. -/
structure Stored (s : State) : Prop where
  messages : ∀ message ∈ s.messages, Kept s.tools message.blocks
  waiting : ∀ response_params tool_result_content,
    s.phase = .responding response_params tool_result_content → Kept s.tools tool_result_content

namespace Stored

/-- There is nothing to be stored before the first message. -/
theorem initial (settings : Settings) : Stored { settings } where
  messages _ hmessage := absurd hmessage List.not_mem_nil
  waiting _ _ hphase := by cases hphase

/-- A script that has been stopped before it could append anything leaves messages and
results as they were. -/
theorem stop (h : Stored s) (hmessages : t.messages = s.messages) (htools : t.tools = s.tools)
    (hphase : ∀ response_params tool_result_content, t.phase ≠ .responding response_params tool_result_content) :
    Stored t where
  messages := by
    rw [hmessages, htools]
    exact h.messages
  waiting response_params tool_result_content hresponding :=
    absurd hresponding (hphase response_params tool_result_content)

/-- A reset empties the messages and the results together; anything else in the sidebar
leaves both. -/
theorem sidebar (h : Stored s) (page : Page) : Stored (s.sidebar page) := by
  unfold State.sidebar
  split
  · exact .initial page.settings
  · exact h.stop rfl rfl fun _ _ hphase => by cases hphase

/-- The loop goes on to its next request without touching what is stored. -/
theorem iterate (h : ∀ message ∈ s.messages, Kept s.tools message.blocks) : Stored s.iterate := by
  unfold State.iterate
  split
  · rename_i messages hprepare
    refine ⟨fun message hmessage => ?_, fun _ _ hphase => by cases hphase⟩
    have hskeletons := skeleton_prepare hprepare
    obtain ⟨source, hsource, heq⟩ := List.mem_map.mp (hskeletons ▸ List.mem_map_of_mem hmessage)
    have hresults : message.results = source.results := by
      rw [← Message.results_skeleton, ← heq, Message.results_skeleton]
    intro id (hid : id ∈ message.results)
    rw [hresults] at hid
    exact h source hsource id hid
  · exact ⟨h, fun _ _ hphase => by cases hphase⟩

/-- A message is appended whose tool results are stored, with whatever else. -/
private theorem append {messages : List Message} {message : Message} {tools : Table String ToolResult}
    (h : ∀ message ∈ messages, Kept tools message.blocks) (hmessage : Kept tools message.blocks) :
    ∀ other ∈ messages ++ [message], Kept tools other.blocks := by
  intro other hother
  rcases List.mem_append.mp hother with hother | hother
  · exact h other hother
  · rwa [List.mem_singleton.mp hother]

/-- The answers to what was interrupted are stored before the message that holds them is
appended. -/
theorem new_message (h : Stored s) (new_message : String) {blocks : List Block}
    {tools : Table String ToolResult}
    (hblocks : s.maybe_add_interruption_blocks = some (blocks, tools)) :
    ∀ message ∈ s.messages ++ [⟨.sender, .blocks (blocks ++ [{ param := .text new_message }])⟩],
      Kept tools message.blocks := by
  have htext : ∀ tools, Kept tools [{ param := .text new_message }] :=
    fun tools => .of_none fun block hblock => by cases List.mem_singleton.mp hblock; rfl
  unfold State.maybe_add_interruption_blocks at hblocks
  split at hblocks
  · cases hblocks
    exact append h.messages (htext _)
  · obtain ⟨last_message, -, hblocks⟩ := Option.bind_eq_some_iff.mp hblocks
    cases hblocks
    refine append (fun message hmessage => (h.messages message hmessage).assign_all _ _)
      (.append (.append ?_ ?_) (htext _))
    · intro id hid
      rw [List.filterMap_map, show Block.result? ∘ State.interruption_result = some from rfl,
        List.filterMap_some] at hid
      exact Kept.of_assign_all _ _ id hid
    · exact .of_none fun block hblock => by cases List.mem_singleton.mp hblock; rfl

/-- A run of the script up to where it stops or awaits its first response stores what it
appends. -/
theorem page (h : Stored s) {page : Page} (hpage : Paged (s.sidebar page) page t) : Stored t := by
  have hsidebar := h.sidebar page
  have hidle := State.phase_sidebar s page
  cases hpage with
  | idle auth_validated =>
    exact hsidebar.stop rfl rfl fun _ _ hphase => by cases hidle.symm.trans hphase
  | new_message new_message blocks tools hnew hrenders hblocks =>
    exact ⟨hsidebar.new_message new_message hblocks, fun _ _ hphase => by cases hphase⟩
  | again most_recent_message hrenders hlast hsender => exact hsidebar.stop rfl rfl fun _ _ hphase => by cases hphase

/-- Every step stores the result of a tool before any message can refer to it, also when
the user interrupts. -/
theorem step (h : Stored s) {l : Label} (hstep : s.step l = some t) : Stored t := by
  cases Stepped.of_step hstep with
  | page page t hpage => exact h.page hpage
  | enter hphase => exact iterate h.messages
  | response content hphase =>
    refine ⟨append h.messages (.of_none fun block hblock => result_of_response hblock), ?_⟩
    intro response_params tool_result_content hresponding
    cases hresponding
    exact fun id hid => absurd hid List.not_mem_nil
  | api_error hphase => exact h.stop rfl rfl fun _ _ hphase => by cases hphase
  | output hphase huse hrender =>
    refine ⟨h.messages, fun response_params tool_result_content hresponding => ?_⟩
    cases hresponding
    exact h.waiting _ _ hphase
  | unrendered hphase huse hrender => exact h.stop rfl rfl fun _ _ hphase => by cases hphase
  | tool hphase result id huse =>
    refine ⟨fun message hmessage => (h.messages message hmessage).assign id result, ?_⟩
    intro response_params tool_result_content hresponding
    cases hresponding
    refine ((h.waiting _ _ hphase).assign id result).append fun other hother => ?_
    rw [List.filterMap_cons_some (result_make_api_tool_result result id)] at hother
    rw [List.mem_singleton.mp hother, Table.get?_assign, if_pos rfl]
    rfl
  | finish hphase => exact h.stop rfl rfl fun _ _ hphase => by cases hphase
  | continue_ hphase hresults => exact iterate (append h.messages (h.waiting _ _ hphase))
  | raise hphase => exact h.stop rfl rfl fun _ _ hphase => by cases hphase

/-- The invariant holds of every state of the page, whatever the user and the models do. -/
theorem run {settings : Settings} (hrun : Run State.step (fun _ _ => True) { settings } s) : Stored s :=
  hrun.invariant (fun _ _ _ h _ hstep => h.step hstep) (.initial settings)

end Stored

/-- "Reset" is pressed. -/
def Label.resets : Label → Bool
  | .page run => run.reset
  | _ => false

/-- The page cannot be rendered any more, or will not be once it has come to the
block it raises on. -/
structure Stuck (messages : List Message) (s : State) : Prop where
  same : s.messages = messages
  unexpected : ∃ message ∈ messages, ∃ block ∈ message.blocks, Unexpected block
  at_phase : s.phase = .idle ∨ ∃ response_params tool_result_content,
    s.phase = .responding response_params tool_result_content ∧ ∃ block ∈ response_params, Unexpected block

namespace Stuck

variable {messages : List Message}

/-- The block is rendered with every run of the script, whatever is stored, and each run
raises at it. -/
theorem not_renders (h : Stuck messages s) (htools : t.messages = s.messages) : ¬ t.renders = true := by
  intro hrenders
  obtain ⟨message, hmessage, block, hblock, hunexpected⟩ := h.unexpected
  simp only [State.renders, htools, h.same, List.all_eq_true, render_message_iff] at hrenders
  exact (hrenders message hmessage block hblock).1 hunexpected

private theorem not_used {block : Block} (hblock : Unexpected block) : block.use? = none := by
  obtain ⟨param, cache_control⟩ := block
  cases param with
  | other type => rfl
  | _ => exact absurd hblock id

/-- Every step without a reset leaves the conversation as it is, because rendering it
raises before anything else is done. -/
theorem step (h : Stuck messages s) {l : Label} (hreset : l.resets = false) (hstep : s.step l = some t) :
    Stuck messages t := by
  cases Stepped.of_step hstep with
  | page page t hpage =>
    have hsame : (s.sidebar page).messages = s.messages := by
      have hkept : ¬ page.reset = true := Bool.eq_false_iff.mp hreset
      rw [State.sidebar, if_neg hkept]
    have hnot := h.not_renders hsame
    cases hpage with
    | idle auth_validated => exact ⟨hsame.trans h.same, h.unexpected, .inl (s.phase_sidebar page)⟩
    | new_message new_message blocks tools hnew hrenders hblocks => exact absurd hrenders hnot
    | again most_recent_message hrenders hlast hsender => exact absurd hrenders hnot
  | enter hphase =>
    rcases h.at_phase with hidle | ⟨_, _, hresponding, -⟩
    · cases hphase.symm.trans hidle
    · cases hphase.symm.trans hresponding
  | response content hphase =>
    rcases h.at_phase with hidle | ⟨_, _, hresponding, -⟩
    · cases hphase.symm.trans hidle
    · cases hphase.symm.trans hresponding
  | api_error hphase => exact ⟨h.same, h.unexpected, .inl rfl⟩
  | output hphase huse hrender =>
    rcases h.at_phase with hidle | ⟨_, _, hresponding, block, hblock, hunexpected⟩
    · cases hphase.symm.trans hidle
    · cases hphase.symm.trans hresponding
      rcases List.mem_cons.mp hblock with rfl | hblock
      · exact absurd hunexpected (render_message_iff.mp hrender).1
      · exact ⟨h.same, h.unexpected, .inr ⟨_, _, rfl, block, hblock, hunexpected⟩⟩
  | unrendered hphase huse hrender => exact ⟨h.same, h.unexpected, .inl rfl⟩
  | tool hphase result id huse =>
    rcases h.at_phase with hidle | ⟨_, _, hresponding, block, hblock, hunexpected⟩
    · cases hphase.symm.trans hidle
    · cases hphase.symm.trans hresponding
      rcases List.mem_cons.mp hblock with rfl | hblock
      · cases huse.symm.trans (not_used hunexpected)
      · exact ⟨h.same, h.unexpected, .inr ⟨_, _, rfl, block, hblock, hunexpected⟩⟩
  | finish hphase => exact ⟨h.same, h.unexpected, .inl rfl⟩
  | continue_ hphase hresults =>
    rcases h.at_phase with hidle | ⟨_, _, hresponding, block, hblock, -⟩
    · cases hphase.symm.trans hidle
    · cases hphase.symm.trans hresponding
      exact absurd hblock List.not_mem_nil
  | raise hphase => exact ⟨h.same, h.unexpected, .inl rfl⟩

end Stuck

end session_manager.streamlit
