import SessionManager.Demo.Loop

namespace session_manager.loop

/-- A block without its cache breakpoint and without what its tool result holds. -/
def Block.skeleton (block : Block) : Block where
  param := match block.param with
    | .tool_result tool_use_id _ is_error => .tool_result tool_use_id (.text "") is_error
    | param => param

/-- What the loop never changes of a message once it has been written. -/
def Message.skeleton (message : Message) : Message where
  role := message.role
  content := match message.content with
    | .text text => .text text
    | .blocks blocks => .blocks (blocks.map Block.skeleton)

variable {block : Block} {message message' : Message} {messages messages' : List Message}

@[simp] theorem Block.use_skeleton : block.skeleton.use? = block.use? := by
  obtain ⟨param, cache_control⟩ := block
  cases param <;> rfl

@[simp] theorem Block.result_skeleton : block.skeleton.result? = block.result? := by
  obtain ⟨param, cache_control⟩ := block
  cases param <;> rfl

namespace Message

@[simp] theorem role_skeleton : message.skeleton.role = message.role := rfl

@[simp] theorem blocks_skeleton : message.skeleton.blocks = message.blocks.map Block.skeleton := by
  obtain ⟨role, content⟩ := message
  cases content <;> rfl

@[simp] theorem uses_skeleton : message.skeleton.uses = message.uses := by
  simp [uses, List.filterMap_map]

@[simp] theorem results_skeleton : message.skeleton.results = message.results := by
  simp [results, List.filterMap_map]

private theorem blocks_of_turn (hturn : message.turn = true) : message.content = .blocks message.blocks := by
  obtain ⟨role, content⟩ := message
  cases content with
  | text text => simp [turn] at hturn
  | blocks blocks => rfl

private theorem skeleton_set_cache_control {cache_control : Bool} (hturn : message.turn = true)
    (h : message.set_cache_control cache_control = some message') :
    message'.skeleton = message.skeleton := by
  obtain ⟨last, hlast, rfl⟩ := Option.map_eq_some_iff.mp h
  obtain ⟨init, hblocks⟩ := List.getLast?_eq_some_iff.mp hlast
  simp [skeleton, blocks_of_turn hturn, hblocks, Block.skeleton]

end Message

private theorem skeleton_inject_reversed {breakpoints_remaining : Nat}
    (h : inject_reversed breakpoints_remaining messages = some messages') :
    messages'.map Message.skeleton = messages.map Message.skeleton := by
  induction messages generalizing breakpoints_remaining messages' with
  | nil =>
    cases h
    rfl
  | cons message messages ih =>
    unfold inject_reversed at h
    split at h
    · rename_i hturn
      split at h
      · obtain ⟨marked, hmarked, h⟩ := Option.bind_eq_some_iff.mp h
        obtain ⟨rest, hrest, h⟩ := Option.bind_eq_some_iff.mp h
        cases h
        simp [Message.skeleton_set_cache_control hturn hmarked, ih hrest]
      · obtain ⟨unmarked, hunmarked, h⟩ := Option.bind_eq_some_iff.mp h
        cases h
        simp [Message.skeleton_set_cache_control hturn hunmarked]
    · obtain ⟨rest, hrest, h⟩ := Option.bind_eq_some_iff.mp h
      cases h
      simp [ih hrest]

/-- Marking the newest turns changes breakpoints only, so the skeleton of the
conversation stays as it is. -/
theorem skeleton_inject_prompt_caching (h : _inject_prompt_caching messages = some messages') :
    messages'.map Message.skeleton = messages.map Message.skeleton := by
  obtain ⟨reversed, hreversed, rfl⟩ := Option.map_eq_some_iff.mp h
  rw [List.map_reverse, skeleton_inject_reversed hreversed, List.map_reverse, List.reverse_reverse]

private theorem Block.skeleton_remove_images (n : Int) (block : Block) :
    (block.remove_images n).2.skeleton = block.skeleton := by
  obtain ⟨param, cache_control⟩ := block
  cases param with
  | tool_result tool_use_id content is_error => cases content <;> rfl
  | _ => rfl

private theorem Message.skeleton_remove_images (n : Int) (message : Message) :
    (message.remove_images n).2.skeleton = message.skeleton := by
  obtain ⟨role, content⟩ := message
  cases content with
  | text text => rfl
  | blocks blocks =>
    simp only [Message.remove_images, Message.skeleton]
    rw [Pile.map_thread Block.skeleton_remove_images]

/-- A request changes nothing of the conversation but breakpoints and images, whichever
of the providers it is for. -/
theorem skeleton_prepare {provider : APIProvider} {only_n_most_recent_images : Nat}
    (h : prepare provider only_n_most_recent_images messages = some messages') :
    messages'.map Message.skeleton = messages.map Message.skeleton := by
  have hfilter : (if only_n_most_recent_images ≠ 0 then some (_maybe_filter_to_n_most_recent_images
      messages only_n_most_recent_images only_n_most_recent_images) else some messages) = some messages' →
      messages'.map Message.skeleton = messages.map Message.skeleton := by
    intro h
    split at h
    · cases h
      exact Pile.map_thread Message.skeleton_remove_images _ _
    · cases h
      rfl
  cases provider with
  | ANTHROPIC => exact skeleton_inject_prompt_caching h
  | BEDROCK => exact hfilter h
  | VERTEX => exact hfilter h

end session_manager.loop
