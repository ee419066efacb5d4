import SessionManager.Demo.Chat
import SessionManager.Demo.Skeleton

open transition

namespace session_manager

namespace loop

/-- What a single message of a conversation has to be like: the assistant uses
tools, the user answers, and the answers come first. -/
structure Message.Proper (message : Message) : Prop where
  uses_of_user : message.role.isUser = true → message.uses = []
  results_of_assistant : message.role = .assistant → message.results = []
  results_first : ∃ answers rest, message.blocks = answers ++ rest ∧
    (∀ block ∈ answers, block.result?.isSome = true) ∧ ∀ block ∈ rest, block.result? = none

/-- Each message has the results of the tool uses of the one before it. -/
def Linked : List String → List Message → Prop
  | _, [] => True
  | pending, message :: messages => message.results = pending ∧ Linked message.uses messages

/-- The tool uses that no message answers yet. -/
def outstanding : List String → List Message → List String
  | pending, [] => pending
  | _, message :: messages => outstanding message.uses messages

/-- What holds of a conversation also while tool uses are open. -/
structure Orderly (messages : List Message) : Prop where
  proper : ∀ message ∈ messages, message.Proper
  linked : Linked [] messages

/-- A conversation as the API accepts it. -/
structure Answered (messages : List Message) : Prop where
  proper : ∀ message ∈ messages, message.Proper
  first : ∀ message newer, messages = message :: newer → message.results = []
  next : ∀ older message next newer, messages = older ++ message :: next :: newer →
    next.results = message.uses
  last : ∀ older message, messages = older ++ [message] → message.uses = []

variable {pending : List String} {message message' : Message} {messages messages' : List Message}

private theorem linked_append_singleton : Linked pending (messages ++ [message]) ↔
    Linked pending messages ∧ message.results = outstanding pending messages := by
  induction messages generalizing pending with
  | nil => simp [Linked, outstanding]
  | cons first messages ih => simp only [List.cons_append, Linked, outstanding, ih, and_assoc]

/-- The tool uses that await an answer are those of the last message, whatever went
before it. -/
@[simp] theorem outstanding_append_singleton :
    outstanding pending (messages ++ [message]) = message.uses := by
  induction messages generalizing pending with
  | nil => rfl
  | cons first messages ih => exact ih

private theorem outstanding_of_getLast (hlast : messages.getLast? = some message) :
    outstanding pending messages = message.uses := by
  obtain ⟨older, rfl⟩ := List.getLast?_eq_some_iff.mp hlast
  exact outstanding_append_singleton

private theorem linked_next {older newer : List Message} {next : Message}
    (hlinked : Linked pending (older ++ message :: next :: newer)) : next.results = message.uses := by
  induction older generalizing pending with
  | nil => exact hlinked.2.1
  | cons first older ih => exact ih hlinked.2

/-- A message that answers what is open may come next, and what it uses itself is open
after it. -/
theorem Orderly.append (h : Orderly messages) (hproper : message.Proper)
    (hresults : message.results = outstanding [] messages) : Orderly (messages ++ [message]) where
  proper := by
    intro other hother
    rcases List.mem_append.mp hother with hother | hother
    · exact h.proper other hother
    · rwa [List.mem_singleton.mp hother]
  linked := linked_append_singleton.mpr ⟨h.linked, hresults⟩

/-- An orderly conversation with nothing open is answered, from its first message to its
last. -/
theorem Orderly.answered (h : Orderly messages) (hlast : outstanding [] messages = []) :
    Answered messages where
  proper := h.proper
  first message newer hmessages := by
    have hlinked := h.linked
    rw [hmessages] at hlinked
    exact hlinked.1
  next older message next newer hmessages := by
    have hlinked := h.linked
    rw [hmessages] at hlinked
    exact linked_next hlinked
  last older message h := by
    subst h
    rwa [outstanding_append_singleton] at hlast

/-! All of this is about skeletons only. -/

private theorem linked_skeleton : Linked pending (messages.map Message.skeleton) ↔ Linked pending messages := by
  induction messages generalizing pending with
  | nil => rfl
  | cons message messages ih => simp only [List.map_cons, Linked, Message.results_skeleton,
      Message.uses_skeleton, ih]

private theorem outstanding_skeleton :
    outstanding pending (messages.map Message.skeleton) = outstanding pending messages := by
  induction messages generalizing pending with
  | nil => rfl
  | cons message messages ih => simp only [List.map_cons, outstanding, Message.uses_skeleton, ih]

private theorem role_of_skeleton (h : message'.skeleton = message.skeleton) : message'.role = message.role := by
  rw [← Message.role_skeleton, h, Message.role_skeleton]

private theorem Message.Proper.of_skeleton (hproper : message.Proper) (h : message'.skeleton = message.skeleton) :
    message'.Proper where
  uses_of_user huser := by
    rw [← uses_skeleton, h, uses_skeleton]
    exact hproper.uses_of_user (role_of_skeleton h ▸ huser)
  results_of_assistant hassistant := by
    rw [← results_skeleton, h, results_skeleton]
    exact hproper.results_of_assistant ((role_of_skeleton h).symm.trans hassistant)
  results_first := by
    obtain ⟨answers, rest, hblocks, hanswers, hrest⟩ := hproper.results_first
    have hmap : message'.blocks.map Block.skeleton =
        answers.map Block.skeleton ++ rest.map Block.skeleton := by
      rw [← blocks_skeleton, h, blocks_skeleton, hblocks, List.map_append]
    obtain ⟨answers', rest', hsplit, hanswers', hrest'⟩ := List.map_eq_append_iff.mp hmap
    refine ⟨answers', rest', hsplit, fun block hblock => ?_, fun block hblock => ?_⟩
    · obtain ⟨source, hsource, heq⟩ := List.mem_map.mp (hanswers' ▸ List.mem_map_of_mem hblock)
      rw [← Block.result_skeleton, ← heq, Block.result_skeleton]
      exact hanswers source hsource
    · obtain ⟨source, hsource, heq⟩ := List.mem_map.mp (hrest' ▸ List.mem_map_of_mem hblock)
      rw [← Block.result_skeleton, ← heq, Block.result_skeleton]
      exact hrest source hsource

/-- Images may be dropped from an orderly conversation, as tool uses and results are in
the skeletons. -/
theorem Orderly.of_skeletons (h : Orderly messages)
    (hskeletons : messages'.map Message.skeleton = messages.map Message.skeleton) : Orderly messages' where
  proper := by
    intro message hmessage
    obtain ⟨source, hsource, heq⟩ := List.mem_map.mp (hskeletons ▸ List.mem_map_of_mem hmessage)
    exact (h.proper source hsource).of_skeleton heq.symm
  linked := by
    rw [← linked_skeleton, hskeletons, linked_skeleton]
    exact h.linked

end loop

namespace streamlit

open loop

variable {s t : State}

/-- What holds of the conversation wherever the script is; only at the blocks of
a response may tool uses be open while nothing has been interrupted. -/
def AtPhase (s : State) : Prop :=
  match s.phase with
  | .idle => s.in_sampling_loop = false → outstanding [] s.messages = []
  | .ready => outstanding [] s.messages = []
  | .requesting => s.in_sampling_loop = true ∧ outstanding [] s.messages = []
  | .responding response_params tool_result_content =>
    s.in_sampling_loop = true ∧
      outstanding [] s.messages =
        tool_result_content.filterMap Block.result? ++ response_params.filterMap Block.use? ∧
      ∀ block ∈ tool_result_content, block.result?.isSome = true ∧ block.use? = none

structure Healing (s : State) : Prop where
  orderly : Orderly s.messages
  at_phase : AtPhase s

namespace Healing

/-- There is nothing to be answered before the first message. -/
theorem initial (settings : Settings) : Healing { settings } where
  orderly := ⟨fun _ hmessage => absurd hmessage List.not_mem_nil, trivial⟩
  at_phase := fun _ => rfl

/-- Wherever the script is stopped, open tool uses leave `in_sampling_loop` set. That is
what tells the next run to heal them. -/
theorem outstanding_of_not_in_loop (h : Healing s) (hloop : s.in_sampling_loop = false) :
    outstanding [] s.messages = [] := by
  have hphase := h.at_phase
  unfold AtPhase at hphase
  split at hphase
  · exact hphase hloop
  · exact hphase
  · exact hphase.2
  · rw [hloop] at hphase
    exact absurd hphase.1 Bool.false_ne_true

/-- A script that has been stopped, whatever else it did to the session state, has left
its messages to be healed by the next run. -/
theorem stop (h : Healing s) (hmessages : t.messages = s.messages)
    (hloop : t.in_sampling_loop = s.in_sampling_loop) (hphase : t.phase = .idle) : Healing t where
  orderly := hmessages ▸ h.orderly
  at_phase := by
    unfold AtPhase
    rw [hphase, hmessages, hloop]
    exact h.outstanding_of_not_in_loop

end Healing

private theorem filterMap_interruption_result (ids : List String) :
    (ids.map State.interruption_result).filterMap Block.result? = ids ∧
      (ids.map State.interruption_result).filterMap Block.use? = [] := by
  induction ids with
  | nil => exact ⟨rfl, rfl⟩
  | cons id ids ih => exact ⟨congrArg (id :: ·) ih.1, ih.2⟩

/-- The blocks that come before the text of the user: an answer to each tool use left
open, and the note that there was an interruption. -/
theorem interruption_blocks {blocks : List Block} {tools : Table String remote_tools.ToolResult}
    (hblocks : s.maybe_add_interruption_blocks = some (blocks, tools))
    (hhealed : s.in_sampling_loop = false → outstanding [] s.messages = []) :
    ∃ note : List Block, blocks = (outstanding [] s.messages).map State.interruption_result ++ note ∧
      ∀ block ∈ note, block.result? = none ∧ block.use? = none := by
  unfold State.maybe_add_interruption_blocks at hblocks
  split at hblocks
  · rename_i hloop
    cases hblocks
    rw [hhealed (Bool.eq_false_iff.mpr hloop)]
    exact ⟨[], rfl, fun block hblock => absurd hblock List.not_mem_nil⟩
  · obtain ⟨last_message, hlast, hblocks⟩ := Option.bind_eq_some_iff.mp hblocks
    cases hblocks
    rw [outstanding_of_getLast hlast]
    refine ⟨[{ param := .text INTERRUPT_TEXT }], rfl, fun block hblock => ?_⟩
    cases List.mem_singleton.mp hblock
    exact ⟨rfl, rfl⟩

/-- A message of the user that begins with answers. -/
private theorem proper_of_answers {role : Role} (hrole : role.isUser = true) {answers rest : List Block}
    (hanswers : ∀ block ∈ answers, block.result?.isSome = true ∧ block.use? = none)
    (hrest : ∀ block ∈ rest, block.result? = none ∧ block.use? = none) :
    Message.Proper ⟨role, .blocks (answers ++ rest)⟩ where
  uses_of_user _ := by
    refine List.filterMap_eq_nil_iff.mpr fun block hblock => ?_
    rcases List.mem_append.mp hblock with hblock | hblock
    · exact (hanswers block hblock).2
    · exact (hrest block hblock).2
  results_of_assistant hassistant := by
    rw [show role = .assistant from hassistant] at hrole
    exact absurd hrole Bool.false_ne_true
  results_first := ⟨answers, rest, rfl, fun block hblock => (hanswers block hblock).1,
    fun block hblock => (hrest block hblock).1⟩

namespace Healing

/-- A reset empties the conversation; anything else in the sidebar leaves it alone. -/
theorem sidebar (h : Healing s) (page : Page) : Healing (s.sidebar page) := by
  unfold State.sidebar
  split
  · exact .initial page.settings
  · exact h.stop rfl rfl rfl

/-- The loop goes on only with nothing left open, and its request is for that
conversation. -/
theorem iterate (horderly : Orderly s.messages) (hlast : outstanding [] s.messages = [])
    (hloop : s.in_sampling_loop = true) : Healing s.iterate := by
  unfold State.iterate
  split
  · rename_i messages hprepare
    have hskeletons := skeleton_prepare hprepare
    refine ⟨horderly.of_skeletons hskeletons, hloop, ?_⟩
    change outstanding [] messages = []
    rwa [← outstanding_skeleton, hskeletons, outstanding_skeleton]
  · exact ⟨horderly, fun _ => hlast⟩

/-- A new message heals what the last run of the loop left open: it comes with a result
for each open tool use. -/
theorem new_message (h : Healing s) (new_message : String) {blocks : List Block}
    {tools : Table String remote_tools.ToolResult}
    (hblocks : s.maybe_add_interruption_blocks = some (blocks, tools)) :
    Healing { s with
      messages := s.messages ++ [⟨.sender, .blocks (blocks ++ [{ param := .text new_message }])⟩]
      tools := tools
      auth_validated := true
      phase := .ready } := by
  obtain ⟨note, rfl, hnote⟩ := interruption_blocks hblocks h.outstanding_of_not_in_loop
  obtain ⟨hanswered, hunused⟩ := filterMap_interruption_result (outstanding [] s.messages)
  have hrest : ∀ block ∈ note ++ [{ param := .text new_message }],
      Block.result? block = none ∧ block.use? = none := by
    intro block hblock
    rcases List.mem_append.mp hblock with hblock | hblock
    · exact hnote block hblock
    · cases List.mem_singleton.mp hblock
      exact ⟨rfl, rfl⟩
  rw [List.append_assoc]
  have hproper : Message.Proper ⟨.sender, .blocks ((outstanding [] s.messages).map State.interruption_result ++
      (note ++ [{ param := .text new_message }]))⟩ := by
    refine proper_of_answers rfl (fun block hblock => ?_) hrest
    obtain ⟨id, -, rfl⟩ := List.mem_map.mp hblock
    exact ⟨rfl, rfl⟩
  refine ⟨h.orderly.append hproper ?_, outstanding_append_singleton.trans (hproper.uses_of_user rfl)⟩
  have hno : List.filterMap Block.result? (note ++ [{ param := .text new_message }]) = [] :=
    List.filterMap_eq_nil_iff.mpr fun block hblock => (hrest block hblock).1
  change List.filterMap _ (_ ++ _) = _
  rw [List.filterMap_append, hanswered, hno, List.append_nil]

/-- A run of the script up to where it stops or awaits its first response, whichever of
its branches it takes. -/
theorem page (h : Healing s) {page : Page} (hpage : Paged (s.sidebar page) page t) : Healing t := by
  have hsidebar := h.sidebar page
  have hidle := State.phase_sidebar s page
  cases hpage with
  | idle auth_validated => exact hsidebar.stop rfl rfl hidle
  | new_message new_message blocks tools hnew hrenders hblocks => exact hsidebar.new_message new_message hblocks
  | again most_recent_message hrenders hlast hsender =>
    have hproper := hsidebar.orderly.proper most_recent_message (List.mem_of_getLast? hlast)
    refine ⟨hsidebar.orderly, (outstanding_of_getLast hlast).trans (hproper.uses_of_user ?_)⟩
    rw [hsender]
    rfl

/-- A response is kept with its tool uses open, which the loop then answers one after
the other. -/
theorem response (h : Healing s) (hphase : s.phase = .requesting) (content : List ResponseBlock) :
    Healing { s with
      messages := s.messages ++ [⟨.assistant, .blocks (_response_to_params content)⟩]
      phase := .responding (_response_to_params content) [] } := by
  have hat := h.at_phase
  rw [AtPhase, hphase] at hat
  have hresults : Message.results ⟨.assistant, .blocks (_response_to_params content)⟩ = [] :=
    List.filterMap_eq_nil_iff.mpr fun block hblock => result_of_response hblock
  have hproper : Message.Proper ⟨.assistant, .blocks (_response_to_params content)⟩ :=
    ⟨fun huser => absurd huser Bool.false_ne_true, fun _ => hresults, [], _, rfl,
      fun block hblock => absurd hblock List.not_mem_nil, fun block hblock => result_of_response hblock⟩
  exact ⟨h.orderly.append hproper (hresults.trans hat.2.symm), hat.1, outstanding_append_singleton,
    fun block hblock => absurd hblock List.not_mem_nil⟩

/-- The results of a response go into one message, in the order of the tool uses. -/
theorem continue_ (h : Healing s) {tool_result_content : List Block}
    (hphase : s.phase = .responding [] tool_result_content) :
    Healing ({ s with messages := s.messages ++ [⟨.user, .blocks tool_result_content⟩] } : State).iterate := by
  have hat := h.at_phase
  rw [AtPhase, hphase] at hat
  obtain ⟨hloop, hopen, hanswers⟩ := hat
  have hproper : Message.Proper ⟨.user, .blocks tool_result_content⟩ := by
    have hmessage : Message.Proper ⟨.user, .blocks (tool_result_content ++ [])⟩ :=
      proper_of_answers rfl hanswers fun block hblock => absurd hblock List.not_mem_nil
    rwa [List.append_nil] at hmessage
  refine iterate (h.orderly.append hproper ?_) ?_ hloop
  · rw [hopen]
    exact (List.append_nil _).symm
  · exact outstanding_append_singleton.trans (hproper.uses_of_user rfl)

/-- Every step keeps the conversation orderly or leaves what is open to be healed: the
user may interrupt any of them. -/
theorem step (h : Healing s) {l : Label} (hstep : s.step l = some t) : Healing t := by
  have hat := h.at_phase
  cases Stepped.of_step hstep with
  | page page t hpage => exact h.page hpage
  | enter hphase =>
    rw [AtPhase, hphase] at hat
    exact iterate h.orderly hat rfl
  | response content hphase => exact h.response hphase content
  | api_error hphase =>
    rw [AtPhase, hphase] at hat
    exact ⟨h.orderly, fun _ => hat.2⟩
  | output hphase huse hrender =>
    rw [AtPhase, hphase] at hat
    refine ⟨h.orderly, hat.1, hat.2.1.trans ?_, hat.2.2⟩
    rw [List.filterMap_cons_none huse]
  | unrendered hphase huse hrender => exact h.stop rfl rfl rfl
  | tool hphase result id huse =>
    rw [AtPhase, hphase] at hat
    refine ⟨h.orderly, hat.1, hat.2.1.trans ?_, fun block hblock => ?_⟩
    · simp only [List.filterMap_cons_some huse, List.filterMap_append,
        List.filterMap_cons_some (result_make_api_tool_result result id), List.filterMap_nil,
        List.append_assoc, List.cons_append, List.nil_append]
    · rcases List.mem_append.mp hblock with hblock | hblock
      · exact hat.2.2 block hblock
      · rw [List.mem_singleton.mp hblock, result_make_api_tool_result, use_make_api_tool_result]
        exact ⟨rfl, rfl⟩
  | finish hphase =>
    rw [AtPhase, hphase] at hat
    exact ⟨h.orderly, fun _ => hat.2.1⟩
  | continue_ hphase hresults => exact h.continue_ hphase
  | raise hphase => exact h.stop rfl rfl rfl

/-- The invariant holds of every state of the page, whatever was interrupted on the way. -/
theorem run {settings : Settings} (hrun : Run State.step (fun _ _ => True) { settings } s) : Healing s :=
  hrun.invariant (fun _ _ _ h _ hstep => h.step hstep) (.initial settings)

end Healing

end streamlit

end session_manager
