import SessionManager.Agents.Script

open effect

namespace session_manager

namespace anthropic_callbacks.Adapter

variable {adapter : Adapter} {emits : Nat → Bool}

/-- A worker that nobody has told to stop, with how its emits have ended so far. -/
inductive Watched (emits : Nat → Bool) (adapter : Adapter) : Prop
  | getting (hqueue : .STOP ∉ adapter.queue) (hworker : adapter.worker = some .getting)
      (hemits : ∀ m < adapter.emitted.length, emits m = true)
  | emitting (hqueue : .STOP ∉ adapter.queue) (hworker : adapter.worker = some .emitting) (n : Nat)
      (hlength : adapter.emitted.length = n + 1) (hemits : ∀ m < n, emits m = true)
  | raised (hqueue : .STOP ∉ adapter.queue) (hworker : adapter.worker = some .raised) (n : Nat)
      (hn : n < adapter.emitted.length) (hemits : emits n = false)

private theorem Watched.enqueue (h : adapter.Watched emits) (event : Event) :
    (adapter.enqueue (.event event)).Watched emits := by
  have hstop : .STOP ∉ adapter.queue → .STOP ∉ (adapter.enqueue (.event event)).queue := by
    simp [Adapter.enqueue]
  cases h with
  | getting hqueue hworker hemits => exact .getting (hstop hqueue) hworker hemits
  | emitting hqueue hworker n hlength hemits => exact .emitting (hstop hqueue) hworker n hlength hemits
  | raised hqueue hworker n hn hemits => exact .raised (hstop hqueue) hworker n hn hemits

private theorem Watched.work (h : adapter.Watched emits) : (adapter.work emits).Watched emits := by
  cases h with
  | getting hqueue hworker hemits =>
    cases hitems : adapter.queue with
    | nil =>
      have hwork : adapter.work emits = adapter := by
        unfold Adapter.work
        split <;> simp_all
      rw [hwork]
      exact .getting hqueue hworker hemits
    | cons item queue =>
      cases item with
      | STOP => simp [hitems] at hqueue
      | event event =>
        have hwork : adapter.work emits = { adapter with
            queue := queue
            worker := some .emitting
            emitted := adapter.emitted ++ [event] } := by
          simp [Adapter.work, hworker, hitems]
        rw [hwork]
        refine .emitting ?_ rfl adapter.emitted.length (by simp) hemits
        simpa [hitems] using hqueue
  | emitting hqueue hworker n hlength hemits =>
    have hwork : adapter.work emits =
        { adapter with worker := some (if emits n then .getting else .raised) } := by
      simp [Adapter.work, hworker, hlength]
    rw [hwork]
    cases hemit : emits n with
    | false => exact .raised hqueue rfl n (by simp [hlength]) hemit
    | true =>
      refine .getting hqueue rfl fun m hm => ?_
      rw [hlength] at hm
      rcases Nat.lt_succ_iff_lt_or_eq.mp hm with hm | rfl
      · exact hemits m hm
      · exact hemit
  | raised hqueue hworker n hn hemits =>
    have hwork : adapter.work emits = adapter := works_of_over hworker rfl 1
    rw [hwork]
    exact .raised hqueue hworker n hn hemits

private theorem Watched.works (h : adapter.Watched emits) (n : Nat) : (adapter.works emits n).Watched emits := by
  induction n with
  | zero => exact h
  | succ n ih =>
    rw [Adapter.works, Function.iterate_succ_apply', ← Adapter.works]
    exact ih.work

/-- A worker told to stop is over once it is drained, and comes to its end without a
raise just when every emit returns. -/
theorem Watched.drained (h : adapter.Watched emits) :
    ((adapter.enqueue .STOP).drained emits).Over emits adapter.published := by
  have hqueue : ∀ hstop : .STOP ∉ adapter.queue, ∃ events, adapter.queue = events.map .event ∧
      adapter.published = adapter.emitted ++ events := fun hstop =>
    ⟨_, eq_map_of_no_stop hstop, rfl⟩
  have hlength : (adapter.enqueue .STOP).queue.length = adapter.queue.length + 1 := by
    simp [Adapter.enqueue]
  rw [Adapter.drained, hlength]
  cases h with
  | getting hstop hworker hemits =>
    obtain ⟨events, hevents, hpublished⟩ := hqueue hstop
    rw [hpublished]
    exact @works_to_stop emits events (adapter.enqueue .STOP) _ hworker hemits (by simp [Adapter.enqueue, hevents])
      (by simp only [hevents, List.length_map]; omega)
  | emitting hstop hworker n hlength hemits =>
    obtain ⟨events, hevents, hpublished⟩ := hqueue hstop
    have hwork : (adapter.enqueue .STOP).work emits = { adapter.enqueue .STOP with
        worker := some (if emits n then .getting else .raised) } := by
      simp [Adapter.work, Adapter.enqueue, hworker, hlength]
    rw [works_succ, hwork, hpublished]
    cases hemit : emits n with
    | false =>
      rw [if_neg (by simp), works_of_over rfl rfl]
      exact .raised rfl n (by rw [List.length_append]; omega) hemit
    | true =>
      rw [if_pos rfl]
      refine @works_to_stop emits events { adapter.enqueue .STOP with worker := some .getting } _ rfl ?_
        (by simp [Adapter.enqueue, hevents]) (by simp only [hevents, List.length_map]; omega)
      intro m hm
      have hm : m < n + 1 := hlength ▸ hm
      rcases Nat.lt_succ_iff_lt_or_eq.mp hm with hm | rfl
      · exact hemits m hm
      · exact hemit
  | raised hstop hworker n hn hemits =>
    rw [works_of_over (by exact hworker) rfl]
    exact .raised hworker n (by rw [published, List.length_append]; omega) hemits

end anthropic_callbacks.Adapter

namespace anthropic

open remote_tools anthropic_callbacks

/-- The loop of a run is under way: the worker is watched and nothing is closed. -/
structure Looping (env : Environment) (s : RunState) : Prop where
  worker : s.adapter.Watched env.emits
  client_closed : s.client_closed = false
  sandbox_closed : s.sandbox_closed = false

section Loop

variable {env : Environment} {runner : AnthropicAgentRunner}

private theorem put_keeps (event : Event) : Keeps (Looping env) (_put (.event event)) := by
  apply Keeps.get
  intro s
  split
  · exact .raise _
  · exact .modify fun s h => ⟨h.worker.enqueue event, h.client_closed, h.sandbox_closed⟩

private theorem suspend_keeps : Keeps (Looping env) env.suspend :=
  .modify fun _ h => ⟨h.worker.works _, h.client_closed, h.sandbox_closed⟩

private theorem create_keeps (messages : List Message) : Keeps (Looping env) (env.create messages) := by
  apply Keeps.get
  intro s
  apply Keeps.bind
  · exact .modify fun _ h => ⟨h.worker, h.client_closed, h.sandbox_closed⟩
  intro _
  apply Keeps.bind suspend_keeps
  intro _
  split
  · exact .ret _
  · exact .raise _

private theorem run_tool_keeps (call : Call) : Keeps (Looping env) (env.run_tool call) := by
  apply Keeps.get
  intro s
  apply Keeps.bind
  · exact .modify fun _ h => ⟨h.worker, h.client_closed, h.sandbox_closed⟩
  intro _
  apply Keeps.bind suspend_keeps
  intro _
  split
  · exact .ret _
  · exact .raise _

private theorem output_callback_keeps (block : Block) : Keeps (Looping env) (output_callback block) := by
  cases block with
  | text => exact put_keeps _
  | tool_use => exact put_keeps _
  | other => exact .ret _

private theorem tool_output_callback_keeps (result : ToolResult) (tool_use_id : String) :
    Keeps (Looping env) (tool_output_callback result tool_use_id) := by
  apply Keeps.bind (put_keeps _)
  intro _
  split
  · exact put_keeps _
  · exact .ret _

private theorem on_block_keeps (collected : Collected) (block : Block) :
    Keeps (Looping env) (runner.on_block env collected block) := by
  cases block with
  | text text =>
    unfold AnthropicAgentRunner.on_block
    dsimp only
    split
    · exact .ret _
    · split
      · exact .raise _
      · exact .bind (output_callback_keeps _) fun _ => .ret _
      · exact .ret _
  | tool_use id name input =>
    apply Keeps.bind (output_callback_keeps _)
    intro _
    apply Keeps.bind (run_tool_keeps _)
    intro result
    exact .bind (tool_output_callback_keeps result id) fun _ => .ret _
  | other => exact .ret _

private theorem on_fallback_call_keeps (iteration : Nat) (results : List UserBlock) (call : Call × Nat) :
    Keeps (Looping env) (AnthropicAgentRunner.on_fallback_call env iteration results call) := by
  apply Keeps.bind (output_callback_keeps _)
  intro _
  apply Keeps.bind (run_tool_keeps _)
  intro result
  exact .bind (tool_output_callback_keeps result _) fun _ => .ret _

/-- The loop of the runner leaves the clients open and its worker watched, however it
ends. -/
theorem iterate_keeps (remaining iteration : Nat) (messages : List Message) :
    Keeps (Looping env) (runner.iterate env remaining iteration messages) := by
  induction remaining generalizing iteration messages with
  | zero => exact .raise _
  | succ remaining ih =>
    apply Keeps.bind (create_keeps messages)
    intro blocks
    apply Keeps.bind (.foldlM (fun collected block _ => on_block_keeps collected block) _)
    intro collected
    split
    · apply Keeps.bind (.foldlM (fun results call _ => on_fallback_call_keeps iteration results call) _)
      intro results
      exact ih _ _
    · split
      · exact .ret _
      · exact ih _ _

/-- The buffer has room for STOP, and the sink takes every event put so far. -/
structure Closable (env : Environment) (s : RunState) : Prop where
  room : s.adapter.full = false
  emits : ∀ n < s.adapter.published.length, env.emits n = true

/-- From there `close` returns exactly if it can, with everything published emitted, and
else leaves the client open. -/
theorem Looping.close {s : RunState} (h : Looping env s) :
    Ensures env.close s
      (fun _ s' => Closable env s ∧ s'.adapter.emitted = s.adapter.published)
      (fun _ s' => ¬ Closable env s ∧ s'.client_closed = false) := by
  have hover := h.worker.drained.worker
  apply close_rule
  · intro hnone
    cases h.worker with
    | getting _ hworker | emitting _ hworker | raised _ hworker => cases hnone.symm.trans hworker
  · intro hfull
    exact ⟨fun hclosable => by simp [hclosable.room] at hfull, h.client_closed⟩
  · intro _ hraised
    rcases hover with ⟨hreturned, -⟩ | ⟨-, hraises⟩
    · cases hreturned.symm.trans hraised
    · exact ⟨fun hclosable => hraises hclosable.emits, h.client_closed⟩
  · intro hroom hstopped
    rcases hover with ⟨-, hemitted, hemits⟩ | ⟨hraised, -⟩
    · exact ⟨⟨hroom, hemits⟩, hemitted⟩
    · exact absurd hraised hstopped

end Loop

namespace AnthropicAgentRunner

variable (runner : AnthropicAgentRunner) (env : Environment) (user_input : String)
  (runtime_id : Option RuntimeId)

/-- The state in which the loop of a run ends, with a text or with a raise, and
`finally` begins. -/
def looped : RunState :=
  match (runner.iterate env runner.max_iterations 0 [.user [.content (.text user_input)]]).run
    { adapter := ({} : Adapter).start } with
  | .ok _ s | .error _ s => s

/-- The run closes its clients, and a text means that no event was left behind. -/
structure CleansUp : Prop where
  client_closed : (runner.ended env user_input runtime_id).client_closed = true
  sandbox_closed : (runner.ended env user_input runtime_id).sandbox_closed = true
  delivered : ∀ text, runner.outcome env user_input runtime_id = .ok text →
    (runner.ended env user_input runtime_id).adapter.emitted = (runner.looped env user_input).adapter.published

variable {runner env user_input runtime_id}

/-- The loop ends in such a state, returning or raising, and `looped` is that state. The
code in `finally` starts from there. -/
theorem loop_ends :
    Ensures (runner.iterate env runner.max_iterations 0 [.user [.content (.text user_input)]])
      { adapter := ({} : Adapter).start }
      (fun _ s => s = runner.looped env user_input ∧ Looping env s)
      (fun _ s => s = runner.looped env user_input ∧ Looping env s) := by
  have hstart : Looping env { adapter := ({} : Adapter).start } :=
    ⟨.getting (by simp [Adapter.start]) rfl (by simp [Adapter.start]), rfl, rfl⟩
  have hiterate : Keeps (Looping env) (runner.iterate env runner.max_iterations 0 _) :=
    iterate_keeps runner.max_iterations 0 [.user [.content (.text user_input)]]
  have hkeeps := hiterate _ hstart
  unfold Ensures at hkeeps ⊢
  unfold looped
  split <;> rename_i hrun <;> rw [hrun] at hkeeps <;> exact ⟨by rw [hrun], hkeeps⟩

/-- Once it has started its adapter, a run cleans up exactly when its last event
finds a sink and STOP a place in the buffer. -/
theorem run_cleans_up (hruntime : truthy runtime_id = true) :
    runner.CleansUp env user_input runtime_id ↔ Closable env (runner.looped env user_input) := by
  have hrun : Ensures (runner.run env user_input runtime_id) {}
      (fun _ s => Closable env (runner.looped env user_input) ∧ s.client_closed = true ∧
        s.sandbox_closed = true ∧ s.adapter.emitted = (runner.looped env user_input).adapter.published)
      (fun _ s => if s.client_closed then s.sandbox_closed = true ∧ Closable env (runner.looped env user_input)
        else ¬ Closable env (runner.looped env user_input)) := by
    apply run_ensures _ loop_ends
    · rintro text s ⟨rfl, hlooping⟩
      apply hlooping.close.mono
      · rintro _ s' ⟨hclosable, hemitted⟩
        exact ⟨hclosable, rfl, rfl, hemitted⟩
      · rintro _ s' ⟨hclosable, hclient⟩
        simpa [hclient] using hclosable
    · rintro error s ⟨rfl, hlooping⟩
      apply hlooping.close.mono
      · rintro _ s' ⟨hclosable, -⟩
        exact ⟨rfl, hclosable⟩
      · rintro _ s' ⟨hclosable, hclient⟩
        simpa [hclient] using hclosable
    · intro hunbound
      simp [hruntime] at hunbound
  rw [run_ensures_iff] at hrun
  cases houtcome : runner.outcome env user_input runtime_id with
  | ok text =>
    rw [houtcome] at hrun
    obtain ⟨hclosable, hclient, hsandbox, hemitted⟩ := hrun
    exact ⟨fun _ => hclosable, fun _ => ⟨hclient, hsandbox, fun _ _ => hemitted⟩⟩
  | error error =>
    rw [houtcome] at hrun
    dsimp only at hrun
    split at hrun
    · rename_i hclient
      refine ⟨fun _ => hrun.2, fun _ => ⟨hclient, hrun.1, fun text htext => ?_⟩⟩
      cases houtcome.symm.trans htext
    · rename_i hclient
      exact ⟨fun hcleans => absurd hcleans.client_closed hclient, fun hclosable => absurd hclosable hrun⟩

/-- One call of a tool, whose two events the sink takes. -/
theorem run_cleans_up_call :
    let env : Environment :=
      { respond := fun n => some (if n = 0 then [.tool_use "tool-1" "bash" .empty] else [])
        execute := fun _ => some { output := some "ok" }
        emits := fun _ => true
        schedule := fun _ => 0 }
    let runner : AnthropicAgentRunner := { decoder := ⟨.ok, fun _ => .error .JSONDecodeError⟩ }
    (runner.looped env "task").adapter.published.length = 2 ∧ runner.CleansUp env "task" (some "c") := by
  intro env runner
  have hroom : (runner.looped env "task").adapter.full = false := by decide +kernel
  exact ⟨by decide +kernel, (run_cleans_up (by decide)).mpr ⟨hroom, fun _ _ => rfl⟩⟩

/-- The sink refuses the first event of that call while the tool runs: the run
ends with what `emit` raised, and closes neither the client nor the sandbox. -/
theorem run_leaks :
    let env : Environment :=
      { respond := fun n => some (if n = 0 then [.tool_use "tool-1" "bash" .empty] else [])
        execute := fun _ => some { output := some "ok" }
        emits := fun _ => false
        schedule := fun _ => 2 }
    let runner : AnthropicAgentRunner := { decoder := ⟨.ok, fun _ => .error .JSONDecodeError⟩ }
    (runner.ended env "task" (some "c")).adapter.emitted.length = 1 ∧
      (runner.ended env "task" (some "c")).client_closed = false ∧
      (runner.ended env "task" (some "c")).sandbox_closed = false := by
  decide +kernel

end AnthropicAgentRunner

end anthropic

end session_manager
