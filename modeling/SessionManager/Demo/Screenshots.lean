import SessionManager.Demo.Chat
import SessionManager.Demo.Skeleton

open transition

namespace session_manager

namespace loop

/-- Drops the first images of a tool result. -/
def Block.drop_images (n : Nat) (block : Block) : Block :=
  match block.param with
  | .tool_result tool_use_id (.blocks content) is_error =>
    let new_content := (Pile.picked ResultBlock.image?).drop n content
    { block with param := .tool_result tool_use_id (.blocks new_content) is_error }
  | _ => block

/-- The images of the tool result that a block may be. -/
def Block.images : Pile Block where
  count := Block.image_count
  drop := Block.drop_images
  count_drop n block := by
    obtain ⟨param, cache_control⟩ := block
    cases param with
    | tool_result tool_use_id content is_error =>
      cases content with
      | text text => exact (Nat.zero_sub n).symm
      | blocks content => exact (Pile.picked _).count_drop n content
    | _ => exact (Nat.zero_sub n).symm
  drop_drop n m block := by
    obtain ⟨param, cache_control⟩ := block
    cases param with
    | tool_result tool_use_id content is_error =>
      cases content with
      | text text => rfl
      | blocks content => simp only [Block.drop_images, Pile.drop_drop]
    | _ => rfl
  drop_zero block := by
    obtain ⟨param, cache_control⟩ := block
    cases param with
    | tool_result tool_use_id content is_error =>
      cases content with
      | text text => rfl
      | blocks content => simp only [Block.drop_images, Pile.drop_zero]
    | _ => rfl

def Message.drop_images (n : Nat) (message : Message) : Message :=
  match message.content with
  | .text _ => message
  | .blocks blocks => { message with content := .blocks (Block.images.dropAll n blocks) }

def Message.images : Pile Message where
  count := Message.image_count
  drop := Message.drop_images
  count_drop n message := by
    obtain ⟨role, content⟩ := message
    cases content with
    | text text => exact (Nat.zero_sub n).symm
    | blocks blocks => exact Block.images.total_dropAll n blocks
  drop_drop n m message := by
    obtain ⟨role, content⟩ := message
    cases content with
    | text text => rfl
    | blocks blocks => simp only [Message.drop_images, Pile.dropAll_dropAll]
  drop_zero message := by
    obtain ⟨role, content⟩ := message
    cases content with
    | text text => rfl
    | blocks blocks => simp only [Message.drop_images, Pile.dropAll_zero]

/-- The images of a conversation, from the oldest to the newest. -/
def images : Pile (List Message) := Message.images.rows

private theorem remove_images_eq (n : Int) (content : List ResultBlock) :
    remove_images n content =
      (n - min n.toNat (content.countP ResultBlock.image?), (Pile.picked ResultBlock.image?).drop n.toNat content) := by
  induction content generalizing n with
  | nil => simp [remove_images, Pile.picked]
  | cons block content ih =>
    by_cases himage : block.image? = true
    · by_cases hn : n > 0
      · obtain ⟨k, rfl⟩ : ∃ k : Nat, n = (k + 1 : Nat) := ⟨n.toNat - 1, by omega⟩
        have hk : ((k + 1 : Nat) : Int) - 1 = k := by omega
        simp only [remove_images, himage, hn, and_self, if_true, hk, ih, Int.toNat_natCast, Pile.picked,
          Pile.dropPicked_of_pos himage, List.countP_cons_of_pos himage, Prod.mk.injEq, and_true]
        omega
      · have hzero : n.toNat = 0 := by omega
        simp [remove_images, hn, ih, hzero, Pile.picked]
    · simp only [remove_images, himage, false_and, if_false, ih, Pile.picked, Bool.false_eq_true,
        Pile.dropPicked_of_neg himage, List.countP_cons_of_neg himage]

private theorem Block.remove_images_eq (n : Int) (block : Block) :
    block.remove_images n = (n - min n.toNat (Block.images.count block), Block.images.drop n.toNat block) := by
  obtain ⟨param, cache_control⟩ := block
  have hnone : n = n - (min n.toNat 0 : Nat) := by omega
  cases param with
  | tool_result tool_use_id content is_error =>
    cases content with
    | text text => exact Prod.ext hnone rfl
    | blocks content => simp only [Block.remove_images, loop.remove_images_eq]; rfl
  | _ => exact Prod.ext hnone rfl

private theorem Message.remove_images_eq (n : Int) (message : Message) :
    message.remove_images n = (n - min n.toNat (Message.images.count message), Message.images.drop n.toNat message) := by
  obtain ⟨role, content⟩ := message
  have hnone : n = n - (min n.toNat 0 : Nat) := by omega
  cases content with
  | text text => exact Prod.ext hnone rfl
  | blocks blocks => simp only [Message.remove_images, Pile.thread_eq _ Block.remove_images_eq]; rfl

/-- The filter drops images in chunks of `n`, and keeps `n` at least. The loops over
messages, blocks and contents come down to one drop of the first images. -/
theorem filter_eq (n : Nat) (messages : List Message) :
    _maybe_filter_to_n_most_recent_images messages n n =
      images.drop (n * (images.count messages / n - 1)) messages := by
  have hcount : messages.foldr (fun message n => message.image_count + n) 0 = images.count messages := rfl
  have hremove : ∀ total : Nat, ((total : Int) - n - ((total : Int) - n) % n).toNat = n * (total / n - 1) := by
    intro total
    have htotal : (total : Int) - n = (total % n : Nat) + n * ((total / n : Nat) - 1) := by
      have hdiv : (total : Int) = n * (total / n : Nat) + (total % n : Nat) := by
        exact_mod_cast (Nat.div_add_mod total n).symm
      rw [Int.mul_sub, Int.mul_one]
      omega
    have hrest : ((total % n : Nat) : Int) % n = (total % n : Nat) := by
      exact_mod_cast Nat.mod_mod total n
    have hcancel : ∀ a b : Int, a + b - a = b := by omega
    rw [htotal, Int.add_mul_emod_self_left, hrest, hcancel]
    cases total / n with
    | zero => simp
    | succ chunks => simp; omega
  rw [_maybe_filter_to_n_most_recent_images, hcount]
  simp only [Pile.thread_eq _ Message.remove_images_eq, hremove]
  rfl

private theorem Block.skeleton_drop_images (n : Nat) (block : Block) :
    (Block.images.drop n block).skeleton = block.skeleton := by
  obtain ⟨param, cache_control⟩ := block
  cases param with
  | tool_result tool_use_id content is_error => cases content <;> rfl
  | _ => rfl

private theorem Message.skeleton_drop_images (n : Nat) (message : Message) :
    (Message.images.drop n message).skeleton = message.skeleton := by
  obtain ⟨role, content⟩ := message
  cases content with
  | text text => rfl
  | blocks blocks =>
    exact congrArg (fun blocks => (⟨role, .blocks blocks⟩ : Message))
      (Pile.map_dropAll _ Block.skeleton_drop_images n blocks)

/-- Dropping images leaves the skeletons of the messages, and with them everything that
is rendered or answered. -/
theorem skeletons_drop_images (n : Nat) (messages : List Message) :
    (images.drop n messages).map Message.skeleton = messages.map Message.skeleton :=
  Pile.map_dropAll _ Message.skeleton_drop_images n messages

/-- Images of the conversation that are gone do not matter to a new message, which keeps
all of its own. -/
theorem drop_images_append {n : Nat} {messages : List Message} (h : n ≤ images.count messages)
    (message : Message) : images.drop n (messages ++ [message]) = images.drop n messages ++ [message] := by
  have hnone : n - Message.images.total messages = 0 := Nat.sub_eq_zero_of_le h
  exact (Pile.dropAll_append _ n messages [message]).trans (by rw [hnone, Pile.dropAll_zero]; rfl)

end loop

namespace streamlit

open loop

variable {s t : State} {n R : Nat} {run : Page}

def Page.unlimited (run : Page) : Page :=
  { run with settings := { run.settings with only_n_most_recent_images := 0 } }

/-- The same step under a setting that keeps all images. -/
def Label.unlimited : Label → Label
  | .page run => .page run.unlimited
  | l => l

/-- The provider has no prompt caching, and the setting is `n`. -/
def Label.Limits (n : Nat) : Label → Prop
  | .page run => run.settings.only_n_most_recent_images = n ∧ run.settings.provider ≠ .ANTHROPIC
  | _ => True

/-- The state under the setting `n`, with the first `R` images gone. -/
def State.limited (n R : Nat) (t : State) : State := { t with
  settings := { t.settings with only_n_most_recent_images := n }
  messages := images.drop R t.messages }

private theorem render_message_skeleton (tools : Table String remote_tools.ToolResult) (block : Block) :
    _render_message tools block.skeleton = _render_message tools block := by
  obtain ⟨param, cache_control⟩ := block
  cases param <;> rfl

private theorem renders_limited : (t.limited n R).renders = t.renders := by
  have hrenders : ∀ s : State, s.renders = (s.messages.map Message.skeleton).all
      fun message => message.blocks.all (_render_message s.tools) := by
    intro s
    simp only [State.renders, List.all_map, Function.comp_def, Message.blocks_skeleton, render_message_skeleton]
  rw [hrenders, hrenders]
  exact congrArg (List.all · _) (skeletons_drop_images R t.messages)

/-- The last message is the last one still, but for its images. -/
private theorem getLast_drop_images (messages : List Message) :
    (images.drop n messages).getLast?.map Message.skeleton = messages.getLast?.map Message.skeleton := by
  rw [← List.getLast?_map, ← List.getLast?_map, skeletons_drop_images]

private theorem interruption_blocks_limited :
    (t.limited n R).maybe_add_interruption_blocks = t.maybe_add_interruption_blocks := by
  have hblocks : ∀ s : State, s.maybe_add_interruption_blocks =
      if ¬ s.in_sampling_loop then some ([], s.tools)
      else (s.messages.getLast?.map Message.skeleton).bind fun last_message =>
        some (last_message.uses.map State.interruption_result ++ [{ param := .text INTERRUPT_TEXT }],
          last_message.uses.foldl (fun tools id => tools.assign id { error := some INTERRUPT_TOOL_ERROR }) s.tools) := by
    intro s
    rw [State.maybe_add_interruption_blocks, Option.bind_map]
    simp only [Function.comp_def, Message.uses_skeleton]
    rfl
  rw [hblocks, hblocks, show (t.limited n R).messages = images.drop R t.messages from rfl, getLast_drop_images]
  rfl

/-- The sidebar leaves the two pages side by side; a reset empties both conversations. -/
theorem sidebar_limited (hrun : run.settings.only_n_most_recent_images = n) :
    (t.limited n R).sidebar run = (t.sidebar run.unlimited).limited n (if run.reset then 0 else R) := by
  subst hrun
  cases hreset : run.reset with
  | false =>
    simp [State.sidebar, State.limited, Page.unlimited, hreset]
    rfl
  | true => simp [State.sidebar, State.limited, Page.unlimited, hreset, Pile.drop_zero]

private theorem submit_limited (hR : R ≤ images.count t.messages) (new_message : String) :
    (t.limited n R).submit new_message = (t.submit new_message).limited n R := by
  unfold State.submit
  rw [interruption_blocks_limited]
  split
  · rfl
  · simp only [State.limited, drop_images_append hR]

private theorem respond_again_limited :
    (t.limited n R).respond_again run = (t.respond_again run.unlimited).limited n R := by
  have hskeleton := getLast_drop_images (n := R) t.messages
  unfold State.respond_again
  rw [show (t.limited n R).messages = images.drop R t.messages from rfl]
  cases hlast : t.messages.getLast? with
  | none =>
    rw [hlast, Option.map_none, Option.map_eq_none_iff] at hskeleton
    rw [hskeleton]
  | some last =>
    rw [hlast, Option.map_some, Option.map_eq_some_iff] at hskeleton
    obtain ⟨last', hlast', heq⟩ := hskeleton
    have hrole : last'.role = last.role := by rw [← Message.role_skeleton, heq, Message.role_skeleton]
    rw [hlast']
    change (if last'.role = .sender ∧ ¬ run.reloaded then _ else _) =
      State.limited n R (if last.role = .sender ∧ ¬ run.reloaded then _ else _)
    rw [hrole]
    split <;> rfl

private theorem chat_limited (hR : R ≤ images.count t.messages) :
    (t.limited n R).chat run = (t.chat run.unlimited).limited n R := by
  unfold State.chat
  rw [renders_limited, show run.unlimited.new_message = run.new_message from rfl]
  split
  · split
    · exact submit_limited hR _
    · exact respond_again_limited
  · rfl

/-- A whole run of the script leaves the two pages side by side as well, as long as it
makes no request. -/
theorem page_limited (hR : R ≤ images.count t.messages) (hrun : run.settings.only_n_most_recent_images = n) :
    (t.limited n R).page run = (t.page run.unlimited).limited n (if run.reset then 0 else R) := by
  have hreset : (if run.reset then 0 else R) ≤ images.count (t.sidebar run.unlimited).messages := by
    cases hreset : run.reset with
    | false => simpa [State.sidebar, Page.unlimited, hreset] using hR
    | true => exact Nat.zero_le _
  rw [State.page, sidebar_limited hrun, State.page]
  generalize t.sidebar run.unlimited = u at hreset
  generalize (if run.reset then 0 else R) = R at hreset
  change (if ¬ u.auth_validated ∧ ¬ u.validate_auth run.credentials then _ else _) =
    State.limited n R (if ¬ u.auth_validated ∧ ¬ u.validate_auth run.credentials then _ else _)
  split
  · rfl
  · exact chat_limited (t := { u with auth_validated := true }) hreset

/-- Chunks that are gone already do not change up to where the filter drops: it counts
what is left in chunks from the front. -/
theorem chunks_add {total : Nat} (hchunks : n ∣ R) (hbound : R ≤ n * (total / n - 1)) :
    R + n * ((total - R) / n - 1) = n * (total / n - 1) := by
  obtain ⟨chunks, rfl⟩ := hchunks
  rcases Nat.eq_zero_or_pos n with rfl | hn
  · simp
  · have hle : chunks ≤ total / n - 1 := Nat.le_of_mul_le_mul_left hbound hn
    rw [Nat.sub_mul_div, ← Nat.mul_add]
    congr 1
    omega

private theorem chunks_le (total : Nat) : n * (total / n - 1) ≤ total :=
  Nat.le_trans (Nat.mul_le_mul_left n (Nat.sub_le _ 1)) (Nat.mul_div_le total n)

private theorem chunks_mono {total total' : Nat} (hle : total ≤ total') :
    n * (total / n - 1) ≤ n * (total' / n - 1) :=
  Nat.mul_le_mul_left n (Nat.sub_le_sub_right (Nat.div_le_div_right hle) 1)

private theorem count_append (messages : List Message) (message : Message) :
    images.count messages ≤ images.count (messages ++ [message]) := by
  rw [show images.count (messages ++ [message]) = _ from Pile.total_append _ messages [message]]
  exact Nat.le_add_right _ _

/-- A request under the setting `n` is the one that keeps all images, with all chunks of
images gone but the last. -/
theorem iterate_limited (hunlimited : t.settings.only_n_most_recent_images = 0)
    (hprovider : t.settings.provider ≠ .ANTHROPIC) (hchunks : n ∣ R)
    (hbound : R ≤ n * (images.count t.messages / n - 1)) :
    (t.limited n R).iterate = t.iterate.limited n (n * (images.count t.messages / n - 1)) ∧
      t.iterate = { t with phase := .requesting } := by
  have hall : prepare t.settings.provider 0 t.messages = some t.messages := by
    unfold prepare
    split
    · contradiction
    · rfl
    · rfl
  have hlimited : prepare t.settings.provider n (images.drop R t.messages) =
      some (images.drop (n * (images.count t.messages / n - 1)) t.messages) := by
    have hfilter : images.drop (n * (images.count (images.drop R t.messages) / n - 1)) (images.drop R t.messages) =
        images.drop (n * (images.count t.messages / n - 1)) t.messages := by
      rw [Pile.drop_drop, Pile.count_drop, chunks_add hchunks hbound]
    have hkeep : (if n ≠ 0 then some (_maybe_filter_to_n_most_recent_images (images.drop R t.messages) n n)
        else some (images.drop R t.messages)) =
        some (images.drop (n * (images.count t.messages / n - 1)) t.messages) := by
      rw [filter_eq, hfilter]
      split
      · rfl
      · rename_i hzero
        obtain rfl : n = 0 := not_not.mp hzero
        obtain rfl : R = 0 := Nat.eq_zero_of_zero_dvd hchunks
        rw [Nat.zero_mul]
    unfold prepare
    split
    · contradiction
    · exact hkeep
    · exact hkeep
  have hiterate : t.iterate = { t with phase := .requesting } := by rw [State.iterate, hunlimited, hall]
  refine ⟨?_, hiterate⟩
  rw [hiterate, State.iterate, show prepare (t.limited n R).settings.provider
    (t.limited n R).settings.only_n_most_recent_images (t.limited n R).messages = _ from hlimited]
  rfl

/-- A state, and the one that the same steps lead to if all images are kept. -/
structure Limited (n R : Nat) (s t : State) : Prop where
  eq : s = t.limited n R
  unlimited : t.settings.only_n_most_recent_images = 0
  provider : t.phase = .idle ∨ t.settings.provider ≠ .ANTHROPIC
  chunks : n ∣ R
  bound : R ≤ n * (images.count t.messages / n - 1)
  request : t.phase = .requesting → R = n * (images.count t.messages / n - 1)

namespace Limited

/-- The script goes on without a request, at most with one more message. -/
theorem next (t : State) {s' t' : State} {R' : Nat} (heq : s' = t'.limited n R') (hsettings : t'.settings = t.settings)
    (hunlimited : t.settings.only_n_most_recent_images = 0)
    (hprovider : t'.phase = .idle ∨ t.settings.provider ≠ .ANTHROPIC) (hchunks : n ∣ R')
    (hbound : R' ≤ n * (images.count t.messages / n - 1))
    (hmessages : images.count t.messages ≤ images.count t'.messages) (hphase : t'.phase ≠ .requesting) :
    Limited n R' s' t' :=
  ⟨heq, by rw [hsettings, hunlimited], by rwa [hsettings], hchunks, Nat.le_trans hbound (chunks_mono hmessages),
    fun h => absurd h hphase⟩

/-- The script stops, with the conversation as it is on either side. -/
theorem stop (h : Limited n R s t) {s' t' : State} (heq : s' = t'.limited n R) (hsettings : t'.settings = t.settings)
    (hmessages : t'.messages = t.messages) (hphase : t'.phase = .idle) : Limited n R s' t' :=
  next t heq hsettings h.unlimited (.inl hphase) h.chunks h.bound (Nat.le_of_eq (by rw [hmessages]))
    (by rw [hphase]; exact Phase.noConfusion)

/-- A run of the script keeps the two sides together up to where it ends or goes on to
its first request. -/
theorem page (h : Limited n R s t) (hlimits : (Label.page run).Limits n) :
    ∃ R', Limited n R' (s.page run) (t.page run.unlimited) := by
  obtain ⟨hrun, hprovider⟩ := hlimits
  have hbound : (if run.reset then 0 else R) ≤
      n * (images.count (t.sidebar run.unlimited).messages / n - 1) := by
    cases hreset : run.reset with
    | false => simpa [State.sidebar, Page.unlimited, hreset] using h.bound
    | true => exact Nat.zero_le _
  have hchunks : n ∣ if run.reset then 0 else R := by
    split
    · exact Nat.dvd_zero n
    · exact h.chunks
  have hsettings : (t.sidebar run.unlimited).settings = run.unlimited.settings := by
    unfold State.sidebar
    split <;> rfl
  have heq := page_limited (Nat.le_trans h.bound (chunks_le _)) hrun
  rw [← h.eq] at heq
  have hunlimited : (t.sidebar run.unlimited).settings.only_n_most_recent_images = 0 := by rw [hsettings]; rfl
  have hprovider' : (t.sidebar run.unlimited).settings.provider ≠ .ANTHROPIC := by rw [hsettings]; exact hprovider
  refine ⟨if run.reset then 0 else R, ?_⟩
  have hidle := t.phase_sidebar run.unlimited
  generalize hpage : t.page run.unlimited = t' at heq
  have hpaged : Paged (t.sidebar run.unlimited) run.unlimited t' := hpage ▸ .of_authorize _ _
  cases hpaged with
  | idle auth_validated =>
    exact next (t.sidebar run.unlimited) heq rfl hunlimited (.inr hprovider') hchunks hbound (Nat.le_refl _)
      (by rw [hidle]; exact Phase.noConfusion)
  | new_message new_message blocks tools hnew hrenders hblocks =>
    exact next (t.sidebar run.unlimited) heq rfl hunlimited (.inr hprovider') hchunks hbound (count_append _ _)
      Phase.noConfusion
  | again most_recent_message hrenders hlast hsender =>
    exact next (t.sidebar run.unlimited) heq rfl hunlimited (.inr hprovider') hchunks hbound (Nat.le_refl _)
      Phase.noConfusion

/-- A request drops further chunks on the one side only, and the other side keeps all
images. -/
theorem iterate (hunlimited : t.settings.only_n_most_recent_images = 0)
    (hprovider : t.settings.provider ≠ .ANTHROPIC) (hchunks : n ∣ R)
    (hbound : R ≤ n * (images.count t.messages / n - 1)) :
    ∃ R', Limited n R' (t.limited n R).iterate t.iterate := by
  obtain ⟨heq, hiterate⟩ := iterate_limited hunlimited hprovider hchunks hbound
  have hmessages : t.iterate.messages = t.messages := by rw [hiterate]
  have hsettings : t.iterate.settings = t.settings := by rw [hiterate]
  exact ⟨_, heq, by rw [hsettings, hunlimited], .inr (by rwa [hsettings]), Nat.dvd_mul_right n _,
    Nat.le_of_eq (by rw [hmessages]), fun _ => by rw [hmessages]⟩

/-- Every step of the one side is a step of the other, with more of the first images
gone at most. -/
theorem step (h : Limited n R s t) {l : Label} {s' : State} (hlimits : l.Limits n) (hstep : s.step l = some s') :
    ∃ t' R', t.step l.unlimited = some t' ∧ Limited n R' s' t' := by
  have hR : R ≤ images.count t.messages := Nat.le_trans h.bound (chunks_le _)
  have hprovider : t.phase ≠ .idle → t.settings.provider ≠ .ANTHROPIC := h.provider.resolve_left
  obtain rfl := h.eq
  have hsame : (t.limited n R).phase = t.phase := rfl
  cases Stepped.of_step hstep with
  | page run t' hpage =>
    obtain ⟨R', hlimited⟩ := h.page hlimits
    cases hstep
    exact ⟨_, R', rfl, hlimited⟩
  | enter hphase =>
    rw [hsame] at hphase
    obtain ⟨R', hlimited⟩ := iterate (t := { t with in_sampling_loop := true }) h.unlimited
      (hprovider (by rw [hphase]; exact Phase.noConfusion)) h.chunks h.bound
    exact ⟨_, R', by simp only [Label.unlimited, State.step, hphase], hlimited⟩
  | response content hphase =>
    rw [hsame] at hphase
    refine ⟨{ t with
      messages := t.messages ++ [⟨.assistant, .blocks (_response_to_params content)⟩]
      phase := .responding (_response_to_params content) [] }, R, by simp [Label.unlimited, State.step, hphase],
      next t ?_ rfl h.unlimited (.inr (hprovider (by rw [hphase]; exact Phase.noConfusion))) h.chunks h.bound
      (count_append _ _) Phase.noConfusion⟩
    simp only [State.limited, drop_images_append hR]
  | api_error hphase =>
    rw [hsame] at hphase
    exact ⟨{ t with in_sampling_loop := false, phase := .idle }, R, by simp [Label.unlimited, State.step, hphase],
      h.stop rfl rfl rfl rfl⟩
  | @output block response_params tool_result_content hphase huse hrender =>
    rw [hsame] at hphase
    exact ⟨{ t with phase := .responding response_params tool_result_content }, R,
      by simp [Label.unlimited, State.step, hphase, huse, show _render_message t.tools block = true from hrender],
      next t rfl rfl h.unlimited (.inr (hprovider (by rw [hphase]; exact Phase.noConfusion))) h.chunks h.bound
        (Nat.le_refl _) Phase.noConfusion⟩
  | @unrendered block response_params tool_result_content hphase huse hrender =>
    rw [hsame] at hphase
    exact ⟨{ t with phase := .idle }, R,
      by simp [Label.unlimited, State.step, hphase, huse, show _render_message t.tools block = false from hrender],
      h.stop rfl rfl rfl rfl⟩
  | @tool block response_params tool_result_content hphase result id huse =>
    rw [hsame] at hphase
    exact ⟨{ t with
      tools := t.tools.assign id result
      phase := .responding response_params (tool_result_content ++ [_make_api_tool_result result id]) }, R,
      by simp [Label.unlimited, State.step, hphase, huse],
      next t rfl rfl h.unlimited (.inr (hprovider (by rw [hphase]; exact Phase.noConfusion))) h.chunks h.bound
        (Nat.le_refl _) Phase.noConfusion⟩
  | finish hphase =>
    rw [hsame] at hphase
    exact ⟨{ t with in_sampling_loop := false, phase := .idle }, R, by simp [Label.unlimited, State.step, hphase],
      h.stop rfl rfl rfl rfl⟩
  | @continue_ tool_result_content hphase hresults =>
    rw [hsame] at hphase
    obtain ⟨R', hlimited⟩ := iterate
      (t := { t with messages := t.messages ++ [⟨.user, .blocks tool_result_content⟩] }) h.unlimited
      (hprovider (by rw [hphase]; exact Phase.noConfusion)) h.chunks
      (Nat.le_trans h.bound (chunks_mono (count_append _ _)))
    refine ⟨({ t with messages := t.messages ++ [⟨.user, .blocks tool_result_content⟩] } : State).iterate, R', ?_, ?_⟩
    · cases tool_result_content with
      | nil => exact absurd rfl hresults
      | cons block blocks => simp only [Label.unlimited, State.step, hphase]
    · simpa only [State.limited, drop_images_append hR] using hlimited
  | raise hphase =>
    refine ⟨{ t with phase := .idle }, R, ?_, h.stop rfl rfl rfl rfl⟩
    simp only [Label.unlimited, State.step]
    split
    · contradiction
    · rfl

end Limited

/-- The run with the setting `n` has come to the state `s` by the steps that lead
the run with all images to `t`: they differ in some first images only. -/
def Follows (n : Nat) (t s : State) : Prop := ∃ R, Limited n R s t

namespace Follows

/-- Both sides start with no message, and so with no image. -/
theorem initial {settings : Settings} (hsettings : settings.only_n_most_recent_images = n) :
    Follows n { settings := { settings with only_n_most_recent_images := 0 } } { settings } := by
  refine ⟨0, ?_, rfl, .inl rfl, Nat.dvd_zero n, Nat.zero_le _, nofun⟩
  rw [State.limited, ← hsettings]
  rfl

/-- The run that keeps all images follows the limited one, step by step: the same label
leads from related states to related states. -/
theorem step (t s : State) (l : Label) (s' : State) (h : Follows n t s) (hl : l.Limits n)
    (hstep : s.step l = some s') : ∃ t', t.step l.unlimited = some t' ∧ Follows n t' s' := by
  obtain ⟨R, hlimited⟩ := h
  obtain ⟨t', R', hstep', hlimited'⟩ := hlimited.step hl hstep
  exact ⟨t', hstep', R', hlimited'⟩

end Follows

end streamlit

end session_manager
