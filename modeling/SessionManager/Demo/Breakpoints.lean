import SessionManager.Demo.Chat

open transition

namespace session_manager

namespace loop

/-- No block of the message is a cache breakpoint. -/
def Message.Unmarked (message : Message) : Prop :=
  ∀ block ∈ message.blocks, block.cache_control = false

/-- The last block of the message is a cache breakpoint or not; no other is. -/
def Message.Marked (message : Message) (breakpoint : Bool) : Prop :=
  ∃ init last, message.blocks = init ++ [last] ∧ last.cache_control = breakpoint ∧
    ∀ block ∈ init, block.cache_control = false

/-! The messages from the newest to the oldest, as `reversed(messages)` has them. -/

/-- The newest `n` turns are marked, and nothing else is. -/
def Exactly : Nat → List Message → Prop
  | _, [] => True
  | n, message :: messages =>
    if message.turn then message.Marked (0 < n) ∧ Exactly (n - 1) messages
    else message.Unmarked ∧ Exactly n messages

/-- Nothing but turns among the newest `n` is marked. -/
def Within : Nat → List Message → Prop
  | _, [] => True
  | n, message :: messages =>
    if message.turn then
      (∃ breakpoint, message.Marked breakpoint ∧ (breakpoint = true → 0 < n)) ∧ Within (n - 1) messages
    else message.Unmarked ∧ Within n messages

variable {n m : Nat} {message message' : Message} {messages messages' : List Message}

namespace Message

private theorem Marked.set {breakpoint : Bool} (h : message.Marked breakpoint) (cache_control : Bool) :
    ∃ marked, message.set_cache_control cache_control = some marked ∧
      marked.turn = message.role.isUser ∧ marked.Marked cache_control := by
  obtain ⟨init, last, hblocks, -, hinit⟩ := h
  have hlast : message.blocks.getLast? = some last := by rw [hblocks, List.getLast?_concat]
  refine ⟨⟨message.role, .blocks (init ++ [{ last with cache_control }])⟩, ?_, Bool.and_true _,
    init, _, rfl, rfl, hinit⟩
  rw [set_cache_control, hlast, Option.map_some, hblocks, List.dropLast_concat]

private theorem isUser_of_turn (h : message.turn = true) : message.role.isUser = true :=
  (Bool.and_eq_true_iff.mp h).1

/-- The blocks of a marked message, from the first to the last. -/
private theorem Marked.cache_control {breakpoint : Bool} (h : message.Marked breakpoint) :
    message.blocks.map (·.cache_control) =
      List.replicate (message.blocks.length - 1) false ++ [breakpoint] := by
  obtain ⟨init, last, hblocks, hlast, hinit⟩ := h
  have hfalse : init.map (·.cache_control) = List.replicate init.length false :=
    List.eq_replicate_iff.mpr ⟨List.length_map _, by simpa using hinit⟩
  simp [hblocks, hlast, hfalse]

private theorem Unmarked.cache_control (h : message.Unmarked) :
    message.blocks.map (·.cache_control) = List.replicate message.blocks.length false :=
  List.eq_replicate_iff.mpr ⟨List.length_map _, by simpa [Unmarked] using h⟩

end Message

private theorem Exactly.within (h : Exactly n messages) : Within n messages := by
  induction messages generalizing n with
  | nil => trivial
  | cons message messages ih =>
    unfold Exactly at h
    unfold Within
    split at h
    · rename_i hturn
      rw [if_pos hturn]
      exact ⟨⟨_, h.1, of_decide_eq_true⟩, ih h.2⟩
    · rename_i hturn
      rw [if_neg hturn]
      exact ⟨h.1, ih h.2⟩

private theorem Within.mono (h : Within n messages) (hle : n ≤ m) : Within m messages := by
  induction messages generalizing n m with
  | nil => trivial
  | cons message messages ih =>
    unfold Within at h ⊢
    split at h
    · rename_i hturn
      obtain ⟨⟨breakpoint, hmarked, hbreakpoint⟩, hrest⟩ := h
      rw [if_pos hturn]
      exact ⟨⟨breakpoint, hmarked, fun h => Nat.lt_of_lt_of_le (hbreakpoint h) hle⟩,
        ih hrest (Nat.sub_le_sub_right hle 1)⟩
    · rename_i hturn
      rw [if_neg hturn]
      exact ⟨h.1, ih h.2 hle⟩

/-- Without a marked turn there is nothing to mark. -/
private theorem Within.exactly_zero (h : Within 0 messages) : Exactly 0 messages := by
  induction messages with
  | nil => trivial
  | cons message messages ih =>
    unfold Within at h
    unfold Exactly
    split at h
    · rename_i hturn
      obtain ⟨⟨breakpoint, hmarked, hbreakpoint⟩, hrest⟩ := h
      rw [if_pos hturn]
      cases breakpoint with
      | false => exact ⟨hmarked, ih hrest⟩
      | true => exact absurd (hbreakpoint rfl) (Nat.lt_irrefl 0)
    · rename_i hturn
      rw [if_neg hturn]
      exact ⟨h.1, ih h.2⟩

/-- One turn more than there are breakpoints may be marked when the loop over the
messages starts: it stops where it has deleted that breakpoint. -/
theorem exactly_inject_reversed (h : Within (n + 1) messages) :
    ∃ messages', inject_reversed n messages = some messages' ∧ Exactly n messages' := by
  induction messages generalizing n with
  | nil => exact ⟨[], rfl, trivial⟩
  | cons message messages ih =>
    unfold Within at h
    split at h
    · rename_i hturn
      obtain ⟨⟨breakpoint, hmarked, -⟩, hrest⟩ := h
      have huser := Message.isUser_of_turn hturn
      cases n with
      | zero =>
        obtain ⟨message', hset, hturn', hmarked'⟩ := hmarked.set false
        refine ⟨message' :: messages, ?_, ?_⟩
        · simp only [inject_reversed, hturn, if_true, hset]
          rfl
        · rw [Exactly, if_pos (hturn'.trans huser)]
          exact ⟨hmarked', hrest.exactly_zero⟩
      | succ n =>
        obtain ⟨message', hset, hturn', hmarked'⟩ := hmarked.set true
        obtain ⟨messages', hinject, hexactly⟩ := ih hrest
        refine ⟨message' :: messages', ?_, ?_⟩
        · simp only [inject_reversed, hturn, if_true, hset, hinject]
          rfl
        · rw [Exactly, if_pos (hturn'.trans huser)]
          exact ⟨by simpa using hmarked', hexactly⟩
    · rename_i hturn
      obtain ⟨messages', hinject, hexactly⟩ := ih h.2
      refine ⟨message :: messages', ?_, ?_⟩
      · simp only [inject_reversed, hturn, hinject]
        rfl
      · rw [Exactly, if_neg hturn]
        exact ⟨h.1, hexactly⟩

/-- So the three newest turns are the marked ones afterwards, if at most the four newest
were before. -/
theorem exactly_inject_prompt_caching (h : Within 4 messages.reverse) :
    ∃ messages', _inject_prompt_caching messages = some messages' ∧ Exactly 3 messages'.reverse := by
  obtain ⟨messages', hinject, hexactly⟩ := exactly_inject_reversed h
  exact ⟨messages'.reverse, by rw [_inject_prompt_caching, hinject, Option.map_some], by rwa [List.reverse_reverse]⟩

/-- Where the breakpoints are, message by message: a turn is marked if fewer than `n`
turns are newer. -/
theorem Exactly.marked {newer older : List Message} (h : Exactly n (newer ++ message :: older)) :
    if message.turn = true then message.Marked (newer.countP Message.turn < n) else message.Unmarked := by
  induction newer generalizing n with
  | nil =>
    rw [List.nil_append, Exactly] at h
    split at h
    · rename_i hturn
      rw [if_pos hturn]
      exact h.1
    · rename_i hturn
      rw [if_neg hturn]
      exact h.1
  | cons first newer ih =>
    rw [List.cons_append, Exactly] at h
    split at h
    · rename_i hfirst
      have hcount : newer.countP Message.turn < n - 1 ↔ newer.countP Message.turn + 1 < n := by omega
      simpa only [List.countP_cons_of_pos hfirst, hcount] using ih h.2
    · rename_i hfirst
      simpa only [List.countP_cons_of_neg hfirst] using ih h.2

/-- A new turn makes every other one older by one, so each is allowed one turn more
behind it. -/
theorem Within.turn (h : Within n messages.reverse) (hturn : message.turn = true)
    (hmarked : message.Marked false) : Within (n + 1) (messages ++ [message]).reverse := by
  rw [List.reverse_append, List.reverse_singleton, List.singleton_append, Within, if_pos hturn]
  exact ⟨⟨false, hmarked, fun h => absurd h Bool.false_ne_true⟩, h⟩

/-- A message that is no turn changes nothing, as only turns of the user are counted. -/
theorem Within.other (h : Within n messages.reverse) (hturn : ¬ message.turn = true)
    (hunmarked : message.Unmarked) : Within n (messages ++ [message]).reverse := by
  rw [List.reverse_append, List.reverse_singleton, List.singleton_append, Within, if_neg hturn]
  exact ⟨hunmarked, h⟩

private theorem unmarked_of_response {response : List ResponseBlock} {block : Block}
    (h : block ∈ _response_to_params response) : block.cache_control = false := by
  obtain ⟨source, -, hblock⟩ := List.mem_filterMap.mp h
  cases source with
  | text text =>
    simp only [Option.ite_none_right_eq_some, Option.some.injEq] at hblock
    rw [← hblock.2]
  | thinking thinking signature => cases hblock; rfl
  | tool_use id name input => cases hblock; rfl
  | other type => cases hblock; rfl

private theorem unmarked_make_api_tool_result (result : remote_tools.ToolResult) (tool_use_id : String) :
    (_make_api_tool_result result tool_use_id).cache_control = false := by
  unfold _make_api_tool_result
  split <;> rfl

end loop

namespace streamlit

open loop

variable {s t : State}

def Phase.isReady : Phase → Bool
  | .ready => true
  | _ => false

/-- Every message of the user gets to its request, and the provider stays the same. -/
def Undisturbed (s : State) : Label → Prop
  | .page run => s.phase.isReady = false ∧ run.settings.provider = .ANTHROPIC
  | .raise => s.phase.isReady = false
  | _ => True

instance (s : State) : ∀ l, Decidable (Undisturbed s l)
  | .page run => inferInstanceAs (Decidable (s.phase.isReady = false ∧ run.settings.provider = .ANTHROPIC))
  | .raise => inferInstanceAs (Decidable (s.phase.isReady = false))
  | .enter | .response _ | .api_error | .output | .tool _ | .continue_ => isTrue trivial

/-- Where the breakpoints may be between two requests. -/
structure Cached (s : State) : Prop where
  provider : s.phase = .idle ∨ s.settings.provider = .ANTHROPIC
  ready : s.phase = .ready → Within 4 s.messages.reverse
  settled : s.phase.isReady = false → Within 3 s.messages.reverse
  exactly : s.phase = .requesting → Exactly 3 s.messages.reverse
  waiting : ∀ response_params tool_result_content, s.phase = .responding response_params tool_result_content →
    ∀ block ∈ tool_result_content, block.cache_control = false

private theorem unmarked_interruption_blocks {blocks : List Block} {tools : Table String remote_tools.ToolResult}
    (hblocks : s.maybe_add_interruption_blocks = some (blocks, tools)) :
    ∀ block ∈ blocks, block.cache_control = false := by
  unfold State.maybe_add_interruption_blocks at hblocks
  split at hblocks
  · cases hblocks
    exact fun block hblock => absurd hblock List.not_mem_nil
  · obtain ⟨last_message, -, hblocks⟩ := Option.bind_eq_some_iff.mp hblocks
    cases hblocks
    intro block hblock
    rcases List.mem_append.mp hblock with hblock | hblock
    · obtain ⟨id, -, rfl⟩ := List.mem_map.mp hblock
      rfl
    · cases List.mem_singleton.mp hblock
      rfl

namespace Cached

/-- There is nothing to be marked before the first message. -/
theorem initial (settings : Settings) : Cached { settings } :=
  ⟨.inl rfl, fun _ => trivial, fun _ => trivial, fun h => (by cases h), fun _ _ h => (by cases h)⟩

/-- The script is stopped, and not between a message and its request, so every turn so
far has had its request. -/
theorem stop (h : Cached s) (hready : s.phase.isReady = false) (hmessages : t.messages = s.messages)
    (hphase : t.phase = .idle) : Cached t :=
  ⟨.inl hphase, fun h => (by cases hphase.symm.trans h), fun _ => hmessages ▸ h.settled hready,
    fun h => (by cases hphase.symm.trans h), fun _ _ h => (by cases hphase.symm.trans h)⟩

/-- The sidebar leaves the breakpoints where they are, or empties the conversation with
a reset. -/
theorem sidebar (h : Cached s) (hready : s.phase.isReady = false) (page : Page) : Cached (s.sidebar page) := by
  unfold State.sidebar
  split
  · exact .initial page.settings
  · exact h.stop hready rfl rfl

/-- A request marks the three newest turns and takes the breakpoint of a fourth one
away. -/
theorem iterate (hprovider : s.settings.provider = .ANTHROPIC) (h : Within 4 s.messages.reverse) :
    Cached s.iterate := by
  obtain ⟨messages, hinject, hexactly⟩ := exactly_inject_prompt_caching h
  rw [State.iterate, hprovider, show prepare .ANTHROPIC s.settings.only_n_most_recent_images s.messages =
    some messages from hinject]
  exact ⟨.inr hprovider, fun h => (by cases h), fun _ => hexactly.within, fun _ => hexactly,
    fun _ _ h => (by cases h)⟩

/-- A run of the script up to its first request appends one turn at most, so one turn at
most loses its breakpoint there. -/
theorem page (h : Cached s) {page : Page} (hready : s.phase.isReady = false)
    (hprovider : page.settings.provider = .ANTHROPIC) (hpage : Paged (s.sidebar page) page t) : Cached t := by
  have hsidebar := h.sidebar hready page
  have hidle : (s.sidebar page).phase.isReady = false := by rw [s.phase_sidebar page]; rfl
  have hsettings : (s.sidebar page).settings.provider = .ANTHROPIC := by
    unfold State.sidebar
    split <;> exact hprovider
  have hwithin := hsidebar.settled hidle
  cases hpage with
  | idle auth_validated => exact hsidebar.stop hidle rfl (s.phase_sidebar page)
  | new_message new_message blocks tools hnew hrenders hblocks =>
    refine ⟨.inr hsettings, fun _ => hwithin.turn rfl ?_, fun h => (by cases h), fun h => (by cases h),
      fun _ _ h => (by cases h)⟩
    exact ⟨blocks, _, rfl, rfl, unmarked_interruption_blocks hblocks⟩
  | again most_recent_message hrenders hlast hsender =>
    exact ⟨.inr hsettings, fun _ => hwithin.mono (Nat.le_succ 3), fun h => (by cases h), fun h => (by cases h),
      fun _ _ h => (by cases h)⟩

/-- The state while the blocks of a response are worked off: its results are not marked
before they are sent. -/
theorem responding {response_params tool_result_content : List Block}
    (hprovider : s.settings.provider = .ANTHROPIC) (hwithin : Within 3 s.messages.reverse)
    (hphase : s.phase = .responding response_params tool_result_content)
    (hunmarked : ∀ block ∈ tool_result_content, block.cache_control = false) : Cached s :=
  ⟨.inr hprovider, fun h => (by cases hphase.symm.trans h), fun _ => hwithin, fun h => (by cases hphase.symm.trans h),
    fun _ _ h => (by cases hphase.symm.trans h; exact hunmarked)⟩

/-- Every step keeps at most the three newest turns marked between requests, as long as
every new message gets to its request. -/
theorem step (h : Cached s) {l : Label} (hguard : Undisturbed s l) (hstep : s.step l = some t) : Cached t := by
  have hprovider : s.phase ≠ .idle → s.settings.provider = .ANTHROPIC := h.provider.resolve_left
  cases Stepped.of_step hstep with
  | page page t hpage => exact h.page hguard.1 hguard.2 hpage
  | enter hphase => exact iterate (hprovider (by rw [hphase]; exact Phase.noConfusion)) (h.ready hphase)
  | response content hphase =>
    have hwithin := h.settled (by rw [hphase]; rfl)
    refine responding (hprovider (by rw [hphase]; exact Phase.noConfusion)) ?_ rfl
      fun block hblock => absurd hblock List.not_mem_nil
    exact hwithin.other Bool.false_ne_true fun block hblock => unmarked_of_response hblock
  | api_error hphase => exact h.stop (by rw [hphase]; rfl) rfl rfl
  | output hphase huse hrender =>
    exact responding (hprovider (by rw [hphase]; exact Phase.noConfusion)) (h.settled (by rw [hphase]; rfl)) rfl
      (h.waiting _ _ hphase)
  | unrendered hphase huse hrender => exact h.stop (by rw [hphase]; rfl) rfl rfl
  | tool hphase result id huse =>
    refine responding (hprovider (by rw [hphase]; exact Phase.noConfusion)) (h.settled (by rw [hphase]; rfl)) rfl
      fun block hblock => ?_
    rcases List.mem_append.mp hblock with hblock | hblock
    · exact h.waiting _ _ hphase block hblock
    · rw [List.mem_singleton.mp hblock]
      exact unmarked_make_api_tool_result result id
  | finish hphase => exact h.stop (by rw [hphase]; rfl) rfl rfl
  | @continue_ tool_result_content hphase hresults =>
    have hwithin := h.settled (by rw [hphase]; rfl)
    have hunmarked := h.waiting _ _ hphase
    refine iterate (hprovider (by rw [hphase]; exact Phase.noConfusion)) (hwithin.turn rfl ?_)
    have hsplit := List.dropLast_append_getLast hresults
    exact ⟨_, _, hsplit.symm, hunmarked _ (List.getLast_mem hresults),
      fun block hblock => hunmarked block (List.dropLast_subset _ hblock)⟩
  | raise hphase => exact h.stop hguard rfl rfl

end Cached

/-- A message that is stopped on its way to its request leaves a breakpoint
behind: with the one of the system prompt there are five. -/
example :
    let page (new_message : String) : Label :=
      .page { settings := { api_key := "key" }, new_message := some new_message }
    (exec State.step [page "a", .enter, .api_error, page "b", .enter, .api_error, page "c", .enter, .api_error,
      page "d", .raise, page "e", .enter] {}).map
        (fun s => s.messages.map fun message => message.blocks.map (·.cache_control)) =
      some [[true], [false], [true], [true], [true]] := rfl

end streamlit

end session_manager
