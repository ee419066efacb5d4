import SessionManager.Agents.Script

open effect

namespace session_manager

namespace anthropic

open remote_tools anthropic_callbacks

def tool_ids (blocks : List Block) : List String := blocks.filterMap Block.tool_id

def result_ids (content : List UserBlock) : List String := content.filterMap UserBlock.result_id

/-- Every tool_use has exactly one tool_result with its id, and no other id has one. -/
def Answers (blocks : List Block) (content : List UserBlock) : Prop :=
  (∀ id ∈ tool_ids blocks, (result_ids content).count id = 1) ∧
    ∀ id ∈ result_ids content, id ∈ tool_ids blocks

instance (blocks : List Block) (content : List UserBlock) : Decidable (Answers blocks content) :=
  inferInstanceAs (Decidable (_ ∧ _))

/-- Turns of an assistant message and the message of the user that answers it. -/
def Answered : List Message → Prop
  | [] => True
  | .assistant blocks :: .user content :: messages => Answers blocks content ∧ Answered messages
  | _ => False

/-- The messages alternate, starting with the user, and every tool_use is answered
in the next message. -/
def WellFormed : List Message → Prop
  | .user content :: messages => result_ids content = [] ∧ Answered messages
  | _ => False

instance decidable_answered : (messages : List Message) → Decidable (Answered messages)
  | [] => .isTrue trivial
  | .assistant blocks :: .user content :: messages =>
    have := decidable_answered messages
    inferInstanceAs (Decidable (Answers blocks content ∧ Answered messages))
  | [.assistant _] | .assistant _ :: .assistant _ :: _ | .user _ :: _ => .isFalse id

instance : (messages : List Message) → Decidable (WellFormed messages)
  | .user content :: messages => inferInstanceAs (Decidable (result_ids content = [] ∧ Answered messages))
  | [] | .assistant _ :: _ => .isFalse id

/-- A response with native and textual calls. -/
def Mixed (decoder : Decoder) (blocks : List Block) : Prop :=
  tool_ids blocks ≠ [] ∧ blocks.flatMap decoder.textual ≠ []

/-- The conversation after `n` responses. -/
inductive Conversing (decoder : Decoder) (env : Environment) : Nat → List Message → Prop
  | task {content : List UserBlock} (hcontent : result_ids content = []) :
      Conversing decoder env 0 [.user content]
  | turn {n : Nat} {messages : List Message} {content : List UserBlock}
      (hmessages : Conversing decoder env n messages)
      (hreplies : Replies decoder (env.response n) content) :
      Conversing decoder env (n + 1) (messages ++ [.assistant (env.response n), .user content])

variable {decoder : Decoder} {env : Environment} {blocks : List Block} {content : List UserBlock}
  {messages : List Message} {n : Nat}

/-- A turn keeps every assistant message answered exactly when it answers its own. -/
theorem answered_turn : Answered (messages ++ [.assistant blocks, .user content]) ↔
    Answered messages ∧ Answers blocks content := by
  fun_induction Answered messages with
  | case1 => simp [Answered]
  | case2 blocks' content' messages ih => simp [Answered, ih, and_assoc]
  | case3 messages hempty hturn =>
    match messages with
    | [] => exact absurd rfl hempty
    | .user _ :: _ | [.assistant _] | .assistant _ :: .assistant _ :: _ => simp [Answered]
    | .assistant blocks' :: .user content' :: rest => exact absurd rfl (hturn blocks' content' rest)

/-- A turn keeps the conversation well formed exactly when its results answer its calls. -/
theorem well_formed_turn : WellFormed (messages ++ [.assistant blocks, .user content]) ↔
    WellFormed messages ∧ Answers blocks content := by
  cases messages with
  | nil => simp [WellFormed]
  | cons message messages =>
    cases message with
    | user content' => simp [WellFormed, answered_turn, and_assoc]
    | assistant blocks' => simp [WellFormed]

/-- What the runner replies answers a response exactly when it is not mixed: next to
textual calls the native ones get no result. -/
theorem answers_of_replies (hdistinct : (tool_ids blocks).Nodup) (h : Replies decoder blocks content) :
    Answers blocks content ↔ ¬ Mixed decoder blocks := by
  change result_ids content = if blocks.flatMap decoder.textual = [] then tool_ids blocks else [] at h
  unfold Answers Mixed
  rw [h]
  split
  · rename_i htextual
    have hcount : ∀ id ∈ tool_ids blocks, (tool_ids blocks).count id = 1 :=
      fun id hid => List.count_eq_one_of_mem hdistinct hid
    simpa [htextual] using hcount
  · rename_i htextual
    cases htool : tool_ids blocks with
    | nil => simp
    | cons id ids =>
      suffices ∃ x, ¬ x = id → x ∈ ids by simpa [htextual]
      exact ⟨id, fun hne => absurd rfl hne⟩

/-- The conversation is well formed as long as no response of it mixes native calls with
textual ones. -/
theorem conversing_well_formed (hdistinct : ∀ i, (tool_ids (env.response i)).Nodup)
    (h : Conversing decoder env n messages) :
    WellFormed messages ↔ ∀ i < n, ¬ Mixed decoder (env.response i) := by
  induction h with
  | task hcontent => simp [WellFormed, Answered, hcontent]
  | @turn n messages content _ hreplies ih =>
    rw [well_formed_turn, ih, answers_of_replies (hdistinct n) hreplies]
    constructor
    · rintro ⟨hbefore, hlast⟩ i hi
      rcases Nat.lt_succ_iff_lt_or_eq.mp hi with hi | rfl
      · exact hbefore i hi
      · exact hlast
    · intro h
      exact ⟨fun i hi => h i (Nat.lt_succ_of_lt hi), h n (Nat.lt_succ_self n)⟩

/-- Request number `n` is the conversation after `n` responses. -/
def Requesting (decoder : Decoder) (env : Environment) (s : RunState) : Prop :=
  ∀ n request, s.requests[n]? = some request → Conversing decoder env n request

/-- A new request carries the conversation up to its response, and the earlier ones stay
what they were. -/
theorem Requesting.snoc {s s' : RunState} (h : Requesting decoder env s)
    (hmessages : Conversing decoder env s.requests.length messages)
    (hrequests : s'.requests = s.requests ++ [messages]) : Requesting decoder env s' := by
  intro n request hget
  rw [hrequests, List.getElem?_append] at hget
  split at hget
  · exact h n request hget
  · rename_i hlast
    rw [List.getElem?_singleton] at hget
    split at hget
    · obtain rfl : n = s.requests.length := by omega
      exact Option.some.inj hget ▸ hmessages
    · cases hget

/-- What sends no request leaves the account of the requests as it is. -/
theorem Requesting.same {s s' : RunState} (h : Requesting decoder env s)
    (hrequests : s'.requests = s.requests) : Requesting decoder env s' := by
  rwa [Requesting, hrequests]

namespace AnthropicAgentRunner

variable {runner : AnthropicAgentRunner} {user_input : String} {runtime_id : Option RuntimeId}

/-- Every request of a run, however the run ends, carries the conversation up to it. -/
theorem requesting_ended (runner : AnthropicAgentRunner) (env : Environment) (user_input : String)
    (runtime_id : Option RuntimeId) :
    Requesting runner.decoder env (runner.ended env user_input runtime_id) := by
  have hnone : Requesting runner.decoder env {} := by simp [Requesting]
  have hrun : Ensures (runner.run env user_input runtime_id) {}
      (fun _ s => Requesting runner.decoder env s) (fun _ s => Requesting runner.decoder env s) := by
    apply run_ensures (R := fun _ s => Requesting runner.decoder env s)
      (F := fun _ s => Requesting runner.decoder env s)
    · exact fun _ => hnone
    · refine iterate_ensures (I := fun i messages s => s.requests.length = i ∧
        Requesting runner.decoder env s ∧ Conversing runner.decoder env i messages)
        ?_ ?_ ?_ ?_ ?_ _ _ (Nat.zero_add _) ?_
      · exact fun i messages s h => h.1
      · exact fun messages s h => h.2.1
      · rintro i messages s s' content ⟨rfl, hrequesting, hmessages⟩ hresponded - hreplies
        refine ⟨by simp [hresponded.requests], ?_, .turn hmessages hreplies⟩
        exact hrequesting.snoc hmessages hresponded.requests
      · rintro i messages s s' ⟨rfl, hrequesting, hmessages⟩ - hresponded -
        exact hrequesting.snoc hmessages hresponded.requests
      · rintro i messages s s' error ⟨rfl, hrequesting, hmessages⟩ - hrequests - -
        exact hrequesting.snoc hmessages hrequests
      · exact ⟨rfl, hnone, .task rfl⟩
    all_goals
      intro _ s h
      exact (close_ensures env s).mono (fun _ _ hsame => h.same hsame.1) fun _ _ hsame => h.same hsame.1
  have hends := run_ensures_iff.mp hrun
  split at hends <;> exact hends

/-- A request is well formed exactly when none of the responses before it holds
native and textual calls. -/
theorem requests_well_formed (hdistinct : ∀ i, (tool_ids (env.response i)).Nodup) {request : List Message}
    (hrequest : (runner.ended env user_input runtime_id).requests[n]? = some request) :
    WellFormed request ↔ ∀ i < n, ¬ Mixed runner.decoder (env.response i) :=
  conversing_well_formed hdistinct (requesting_ended runner env user_input runtime_id n request hrequest)

/-- A native call, answered in the second request. -/
theorem requests_well_formed_native :
    let env : Environment :=
      { respond := fun n => some (if n = 0 then [.tool_use "tool-1" "computer" .empty] else [.text "done"])
        execute := fun _ => some {}
        emits := fun _ => true
        schedule := fun _ => 0 }
    let runner : AnthropicAgentRunner := { decoder := ⟨.ok, fun _ => .error .JSONDecodeError⟩ }
    ∃ request, (runner.ended env "task" (some "c")).requests[1]? = some request ∧ WellFormed request := by
  intro env runner
  obtain ⟨request, hrequest⟩ : ∃ request,
      (runner.ended env "task" (some "c")).requests[1]? = some request :=
    Option.isSome_iff_exists.mp (by decide +kernel)
  have hdistinct : ∀ i, (tool_ids (env.response i)).Nodup := by
    intro i
    by_cases hi : i = 0 <;>
      simp [env, Environment.response, hi, tool_ids, List.filterMap_cons, Block.tool_id]
  refine ⟨request, hrequest, (requests_well_formed hdistinct hrequest).mpr fun i hi => ?_⟩
  obtain rfl : i = 0 := by omega
  simp [Mixed, env, Environment.response, Decoder.textual]

/-- A response with a native and a textual call: its tool_use stays unanswered. -/
theorem request_malformed :
    let env : Environment :=
      { respond := fun n => some (if n = 0 then [.tool_use "tool-1" "computer" .empty,
          .text "<function_calls><invoke name=\"bash\"></invoke></function_calls>"] else [.text "done"])
        execute := fun _ => some {}
        emits := fun _ => true
        schedule := fun _ => 0 }
    let runner : AnthropicAgentRunner := { decoder := ⟨.ok, fun _ => .error .JSONDecodeError⟩ }
    ∃ request, (runner.ended env "task" (some "c")).requests[1]? = some request ∧
      ¬ WellFormed request := by
  intro env runner
  have hrequest : (((runner.ended env "task" (some "c")).requests[1]?).any
      fun request => ¬ WellFormed request) = true := by
    decide +kernel
  obtain ⟨request, hget, hmalformed⟩ := Option.any_eq_true _ _ |>.mp hrequest
  exact ⟨request, hget, of_decide_eq_true hmalformed⟩

end AnthropicAgentRunner

end anthropic

end session_manager
