import SessionManager.Agents.Script
import SessionManager.Library.Transition

open effect transition

namespace session_manager

namespace anthropic_callbacks

open remote_tools anthropic

/-- A call of one of the callbacks that publish. -/
inductive Callback
  | output_callback (block : Block)
  | tool_output_callback (result : ToolResult) (tool_use_id : String)

namespace Callback

def run : Callback → Agent Unit
  | .output_callback block => anthropic.output_callback block
  | .tool_output_callback result tool_use_id => anthropic.tool_output_callback result tool_use_id

/-- The events the callback puts one after the other. -/
def events : Callback → List Event
  | .output_callback (.text text) => [.ASSISTANT_MESSAGE text]
  | .output_callback (.tool_use id name input) => [.TOOL_STARTED id name input]
  | .output_callback (.other _) => []
  | .tool_output_callback result tool_use_id =>
    .TOOL_RESULT tool_use_id (truthy result.error) (result_output result) ::
      if truthy result.base64_image then [.SCREENSHOT_AVAILABLE tool_use_id] else []

end Callback

/-- Where the call of `close` is. -/
inductive Closing
  | not_called
  | awaiting
  | returned
  | raised
deriving DecidableEq, Repr

/-- An adapter in use, with the events whose put it has accepted. -/
structure Life where
  adapter : Adapter
  accepted : List Event := []
  closing : Closing := .not_called

/-- What happens next between the producer and the worker. -/
inductive Turn
  | callback (callback : Callback)
  | work
  | close
  /-- `close` goes on after `await self._worker`. -/
  | resume

namespace Life

/-- An adapter whose worker has been started. Puts from before the start are
those from before the first step of the worker. -/
def opened (queue_size : Int) : Life := { adapter := ({ maxsize := queue_size.toNat } : Adapter).start }

/-- The puts of a callback, which the first refused one ends. -/
def puts : List Event → Life → Life
  | [], s => s
  | event :: events, s =>
    if s.adapter.full then s
    else puts events { s with
      adapter := s.adapter.enqueue (.event event)
      accepted := s.accepted ++ [event] }

/-- The callbacks and `close` are one task, so nothing is put while `close`
waits; only the worker goes on. Its sink does not raise. -/
def step (s : Life) : Turn → Option Life
  | .callback callback => if s.closing = .not_called then some (s.puts callback.events) else none
  | .work => some { s with adapter := s.adapter.work fun _ => true }
  | .close =>
    if s.closing ≠ .not_called then none
    else if s.adapter.worker = none then some { s with closing := .returned }
    else if s.adapter.full then some { s with closing := .raised }
    else some { s with adapter := s.adapter.enqueue .STOP, closing := .awaiting }
  | .resume =>
    if s.closing = .awaiting ∧ s.adapter.worker = some .returned then
      some { s with adapter.worker := none, closing := .returned }
    else none

/-- Any order of turns. -/
def Turns (s t : Life) : Prop := Run step (fun _ _ => True) s t

/-- `close`, called now, does not raise, and returns once the worker has stopped
and emitted whatever was accepted, which the worker gets to. -/
structure ClosesCleanly (s : Life) : Prop where
  waits : ∀ t, s.step .close = some t → t.closing = .awaiting
  delivers : ∀ t u v, s.step .close = some t → Turns t u → u.step .resume = some v →
    u.adapter.worker = some .returned ∧ v.adapter.emitted = s.accepted
  returns : ∀ t u, s.step .close = some t → Turns t u → u.closing = .awaiting →
    ∃ w v, Turns u w ∧ w.step .resume = some v

/-- The events accepted reach the sink in the order of their puts, each once. -/
structure Ordered (s : Life) : Prop where
  order : s.adapter.emitted <+: s.accepted
  rest : ∃ t, Turns s t ∧ t.accepted = s.accepted ∧ t.adapter.emitted = s.accepted

end Life

namespace Adapter

variable {adapter : Adapter} {sure : Nat → Bool}

/-- The worker has been told to stop, after the events still in the queue. -/
inductive Stopping (adapter : Adapter) : Prop
  | later (events : List Event) (hworker : adapter.worker = some .getting ∨ adapter.worker = some .emitting)
      (hqueue : adapter.queue = events.map .event ++ [.STOP])
  | stopped (hworker : adapter.worker = some .returned) (hqueue : adapter.queue = [])

private theorem Live.stopping (h : adapter.Live) : (adapter.enqueue .STOP).Stopping := by
  refine .later (adapter.queue.filterMap Item.event?) h.1 ?_
  rw [Adapter.enqueue, ← eq_map_of_no_stop h.2]

private theorem Stopping.work (h : adapter.Stopping) (hsure : ∀ n, sure n = true) : (adapter.work sure).Stopping := by
  cases h with
  | stopped hworker hqueue =>
    have hwork : adapter.work sure = adapter := works_of_over hworker rfl 1
    rw [hwork]
    exact .stopped hworker hqueue
  | later events hworker hqueue =>
    rcases hworker with hgetting | hemitting
    · cases events with
      | nil => exact .stopped (by simp [Adapter.work, hgetting, hqueue]) (by simp [Adapter.work, hgetting, hqueue])
      | cons event events =>
        refine .later events ?_ ?_ <;> simp [Adapter.work, hgetting, hqueue]
    · refine .later events ?_ ?_
      · simp [Adapter.work, hemitting, hsure]
      · simp [Adapter.work, hemitting, hqueue]

@[simp] theorem work_maxsize : (adapter.work sure).maxsize = adapter.maxsize := by
  unfold Adapter.work
  split <;> rfl

/-- A worker that is to stop gets there, whatever it is at. -/
private theorem Stopping.stops (h : adapter.Stopping) (hsure : ∀ n, sure n = true) :
    ∃ n, (adapter.works sure n).worker = some .returned := by
  cases h with
  | stopped hworker => exact ⟨0, hworker⟩
  | later events hworker hqueue =>
    have hstop : ∀ adapter : Adapter, adapter.worker = some .getting →
        adapter.queue = events.map .event ++ [.STOP] →
        (adapter.works sure (2 * events.length + 1)).worker = some .returned := by
      intro adapter hgetting hqueue
      have hover := works_to_stop events hgetting (fun n _ => hsure n) hqueue le_rfl
      rcases hover.worker with ⟨hreturned, -⟩ | ⟨-, hraises⟩
      · exact hreturned
      · exact absurd (fun n _ => hsure n) hraises
    rcases hworker with hgetting | hemitting
    · exact ⟨_, hstop adapter hgetting hqueue⟩
    · have hwork : adapter.work sure = { adapter with worker := some .getting } := by
        simp [Adapter.work, hemitting, hsure]
      refine ⟨2 * events.length + 1 + 1, ?_⟩
      rw [works_succ, hwork]
      exact hstop _ rfl hqueue

/-- A worker in front of these events emits them. -/
private theorem works_to_empty (hsure : ∀ n, sure n = true) (events : List Event) {adapter : Adapter}
    (hworker : adapter.worker = some .getting) (hqueue : adapter.queue = events.map .event) :
    (adapter.works sure (2 * events.length)).emitted = adapter.emitted ++ events := by
  induction events generalizing adapter with
  | nil => simp [works]
  | cons event events ih =>
    have hlength : 2 * (event :: events).length = 2 * events.length + 1 + 1 := by simp; omega
    have hwork : (adapter.work sure).work sure =
        { adapter with
          queue := events.map .event
          worker := some .getting
          emitted := adapter.emitted ++ [event] } := by
      simp [Adapter.work, hworker, hqueue, hsure]
    rw [hlength, works_succ, works_succ, hwork]
    have hrest := @ih { adapter with
      queue := events.map .event
      worker := some .getting
      emitted := adapter.emitted ++ [event] } rfl rfl
    simpa using hrest

private theorem Live.empties (h : adapter.Live) (hsure : ∀ n, sure n = true) :
    ∃ n, (adapter.works sure n).emitted = adapter.published := by
  have hqueue := eq_map_of_no_stop h.2
  rcases h.1 with hgetting | hemitting
  · exact ⟨_, works_to_empty hsure _ hgetting hqueue⟩
  · have hwork : adapter.work sure = { adapter with worker := some .getting } := by
      simp [Adapter.work, hemitting, hsure]
    refine ⟨2 * (adapter.queue.filterMap Item.event?).length + 1, ?_⟩
    rw [works_succ, hwork]
    exact works_to_empty hsure _ rfl hqueue

end Adapter

namespace Life

variable {s t u v : Life} {queue_size : Int}

/-- What the turns keep: no accepted event is lost, and the worker is as far as
`close` is. -/
structure Sound (queue_size : Int) (s : Life) : Prop where
  maxsize : s.adapter.maxsize = queue_size.toNat
  published : s.adapter.published = s.accepted
  live : s.closing = .not_called ∨ s.closing = .raised → s.adapter.Live
  stopping : s.closing = .awaiting → s.adapter.Stopping
  drained : s.closing = .returned → s.adapter.worker = none ∧ s.adapter.queue = []

/-- A buffer that has just been opened is sound: it is empty, and its worker waits for
the first item. -/
theorem Sound.opened : Sound queue_size (opened queue_size) where
  maxsize := rfl
  published := rfl
  live _ := ⟨.inl rfl, by simp [Life.opened, Adapter.start]⟩
  stopping h := by cases h
  drained h := by cases h

@[simp] theorem puts_closing (events : List Event) : (s.puts events).closing = s.closing := by
  induction events generalizing s with
  | nil => rfl
  | cons event events ih =>
    rw [puts]
    split
    · rfl
    · exact ih

private theorem Sound.puts (h : s.Sound queue_size) (hopen : s.closing = .not_called) (events : List Event) :
    (s.puts events).Sound queue_size := by
  induction events generalizing s with
  | nil => exact h
  | cons event events ih =>
    rw [Life.puts]
    split
    · exact h
    · refine ih ⟨h.maxsize, ?_, fun _ => (h.live (.inl hopen)).enqueue, ?_, ?_⟩ hopen
      · rw [Adapter.published_enqueue, h.published]
      · exact fun hawaiting => by cases hopen.symm.trans hawaiting
      · exact fun hreturned => by cases hopen.symm.trans hreturned

/-- Every turn keeps the buffer sound, whether the producer, the worker or `close` has
it. -/
theorem Sound.step (h : s.Sound queue_size) {turn : Turn} (hstep : s.step turn = some t) :
    t.Sound queue_size := by
  cases turn with
  | callback callback =>
    simp only [Life.step] at hstep
    split at hstep
    · cases hstep
      exact h.puts ‹_› _
    · cases hstep
  | work =>
    cases hstep
    refine ⟨?_, ?_, ?_, ?_, ?_⟩
    · rw [Adapter.work_maxsize, h.maxsize]
    · rw [Adapter.published_work, h.published]
    · exact fun hlive => (h.live hlive).work fun _ => rfl
    · exact fun hstop => (h.stopping hstop).work fun _ => rfl
    · intro hreturned
      obtain ⟨hworker, hqueue⟩ := h.drained hreturned
      simp [Adapter.work, hworker, hqueue]
  | close =>
    simp only [Life.step] at hstep
    split at hstep
    · cases hstep
    rename_i hopen
    have hlive := h.live (.inl (not_not.mp hopen))
    split at hstep
    · rename_i hnone
      rcases hlive.1 with hworker | hworker <;> cases hnone.symm.trans hworker
    split at hstep
    · cases hstep
      exact ⟨h.maxsize, h.published, fun _ => hlive, (by simp), (by simp)⟩
    · cases hstep
      refine ⟨h.maxsize, ?_, ?_, fun _ => hlive.stopping, (by simp)⟩
      · rw [← h.published]
        simp [Adapter.published, Adapter.enqueue, Item.event?]
      · rintro (hclosing | hclosing) <;> cases hclosing
  | resume =>
    simp only [Life.step] at hstep
    split at hstep
    · rename_i hready
      cases hstep
      refine ⟨h.maxsize, h.published, ?_, (by simp), fun _ => ⟨rfl, ?_⟩⟩
      · rintro (hclosing | hclosing) <;> cases hclosing
      · cases h.stopping hready.1 with
        | stopped _ hqueue => exact hqueue
        | later _ hworker _ => rcases hworker with hworker | hworker <;> cases hready.2.symm.trans hworker
    · cases hstep

/-- All turns in a row, in any order, keep the buffer sound, whether they are callbacks
or turns of the worker. -/
theorem Sound.run (h : s.Sound queue_size) (hturns : Turns s t) : t.Sound queue_size :=
  hturns.invariant (I := Sound queue_size) (fun _ _ _ h _ hstep => h.step hstep) h

/-- Turns of the worker alone. -/
private theorem turns_works (s : Life) (n : Nat) :
    Turns s { s with adapter := s.adapter.works (fun _ => true) n } := by
  induction n with
  | zero => exact .refl
  | succ n ih =>
    refine .tail .work ih trivial ?_
    simp only [step, Adapter.works, Function.iterate_succ_apply']

/-- No more is accepted once `close` is called. -/
private theorem accepted_after (hclosing : s.closing ≠ .not_called) (hturns : Turns s t) :
    t.accepted = s.accepted ∧ t.closing ≠ .not_called := by
  refine hturns.invariant (I := fun t => t.accepted = s.accepted ∧ t.closing ≠ .not_called) ?_ ⟨rfl, hclosing⟩
  rintro t turn u ⟨haccepted, hclosing⟩ - hstep
  cases turn with
  | callback callback => simp [step, hclosing] at hstep
  | work =>
    cases hstep
    exact ⟨haccepted, hclosing⟩
  | close => simp [step, hclosing] at hstep
  | resume =>
    simp only [step] at hstep
    split at hstep
    · cases hstep
      exact ⟨haccepted, by simp⟩
    · cases hstep

private theorem Sound.emitted (h : s.Sound queue_size) (hqueue : s.adapter.queue = []) :
    s.adapter.emitted = s.accepted := by
  rw [← h.published]
  simp [Adapter.published, hqueue]

private theorem Sound.resumed (h : s.Sound queue_size) (hstep : s.step .resume = some t) :
    s.adapter.worker = some .returned ∧ t.adapter.emitted = s.accepted := by
  have hsound := h.step hstep
  simp only [Life.step] at hstep
  split at hstep
  · rename_i hready
    cases hstep
    exact ⟨hready.2, hsound.emitted (hsound.drained rfl).2⟩
  · cases hstep

/-- Once told to stop, the worker gets `close` to return. -/
private theorem Sound.returns (h : s.Sound queue_size) (hawaiting : s.closing = .awaiting) :
    ∃ u v, Turns s u ∧ u.step .resume = some v := by
  have hsure (n : Nat) : (fun _ : Nat => true) n = true := rfl
  obtain ⟨n, hreturned⟩ := (h.stopping hawaiting).stops hsure
  have hresume : ({ s with adapter := s.adapter.works (fun _ => true) n } : Life).step .resume =
      some { s with
        adapter := { s.adapter.works (fun _ => true) n with worker := none }
        closing := .returned } := if_pos ⟨hawaiting, hreturned⟩
  exact ⟨_, _, turns_works s n, hresume⟩

/-- The events emitted are the first of those accepted, and turns of the worker alone
bring the others. -/
theorem Sound.ordered (h : s.Sound queue_size) : s.Ordered := by
  refine ⟨?_, ?_⟩
  · rw [← h.published]
    exact List.prefix_append ..
  cases hclosing : s.closing with
  | not_called | raised =>
    have hsure (n : Nat) : (fun _ : Nat => true) n = true := rfl
    obtain ⟨n, hemitted⟩ := (h.live (by simp [hclosing])).empties hsure
    exact ⟨_, turns_works s n, rfl, hemitted.trans h.published⟩
  | awaiting =>
    obtain ⟨u, v, hturns, hresume⟩ := h.returns hclosing
    have haccepted := (accepted_after (by simp [hclosing]) hturns).1
    have hturns' : Turns s v := .tail .resume hturns trivial hresume
    have haccepted' := (accepted_after (by simp [hclosing]) hturns').1
    exact ⟨v, hturns', haccepted', ((h.run hturns).resumed hresume).2.trans haccepted⟩
  | returned => exact ⟨s, .refl, rfl, h.emitted (h.drained hclosing).2⟩

private theorem Sound.full_iff (h : s.Sound queue_size) :
    s.adapter.full = true ↔ ¬ (queue_size ≤ 0 ∨ s.adapter.queue.length < queue_size) := by
  simp only [Adapter.full, h.maxsize, Bool.and_eq_true, decide_eq_true_eq]
  omega

private theorem Sound.started (h : s.Sound queue_size) (hopen : s.closing = .not_called) :
    s.adapter.worker ≠ none := by
  rcases (h.live (.inl hopen)).1 with hworker | hworker <;> simp [hworker]

/-- Called while the worker runs, `close` raises at a full queue and else puts STOP
behind what is queued. -/
theorem Sound.step_close (h : s.Sound queue_size) (hopen : s.closing = .not_called) :
    s.step .close = some (if s.adapter.full then { s with closing := .raised }
      else { s with adapter := s.adapter.enqueue .STOP, closing := .awaiting }) := by
  simp only [Life.step, hopen, ne_eq, not_true, if_false, h.started hopen]
  split <;> rfl

/-- `close` is clean exactly when there is room for STOP in the queue. A queue without a
bound always has some. -/
theorem Sound.closes_cleanly_iff (h : s.Sound queue_size) (hopen : s.closing = .not_called) :
    s.ClosesCleanly ↔ queue_size ≤ 0 ∨ s.adapter.queue.length < queue_size := by
  have hclose := h.step_close hopen
  refine ⟨fun hclean => ?_, fun hroom => ?_⟩
  · by_contra hnoroom
    have hraised := hclean.waits _ hclose
    rw [if_pos (h.full_iff.mpr hnoroom)] at hraised
    cases hraised
  · rw [if_neg (fun hnoroom => h.full_iff.mp hnoroom hroom)] at hclose
    refine ⟨?_, ?_, ?_⟩
    · intro t hstep
      cases hclose.symm.trans hstep
      rfl
    · intro t u v hstep hturns hresume
      cases hclose.symm.trans hstep
      obtain ⟨hreturned, hemitted⟩ := ((h.step hclose).run hturns).resumed hresume
      exact ⟨hreturned, hemitted.trans (accepted_after (by simp) hturns).1⟩
    · intro t u hstep hturns hawaiting
      exact ((h.step hstep).run hturns).returns hawaiting

private theorem put_ensures {r : RunState} (hsame : r.adapter = s.adapter) (event : Event) :
    Ensures (_put (.event event)) r
      (fun _ r' => s.adapter.full = false ∧ r'.adapter = s.adapter.enqueue (.event event))
      (fun error r' => s.adapter.full = true ∧ error = .CallbackBufferFullError ∧ r'.adapter = s.adapter) := by
  apply Ensures.get
  rw [hsame]
  split
  · rename_i hfull
    exact .raise ⟨hfull, rfl, hsame⟩
  · rename_i hroom
    refine .modify ⟨by simpa using hroom, ?_⟩
    rw [hsame]

/-- A callback makes these puts, and raises if one of them is refused. This is what ties
the buffer of the model to the runner's. -/
theorem callback_ensures (callback : Callback) {r : RunState} (hsame : r.adapter = s.adapter) :
    Ensures callback.run r
      (fun _ r' => r'.adapter = (s.puts callback.events).adapter ∧
        (s.puts callback.events).accepted = s.accepted ++ callback.events)
      (fun error r' => error = .CallbackBufferFullError ∧
        r'.adapter = (s.puts callback.events).adapter) := by
  have hput : ∀ event, Ensures (_put (.event event)) r
      (fun _ r' => r'.adapter = (s.puts [event]).adapter ∧
        (s.puts [event]).accepted = s.accepted ++ [event])
      (fun error r' => error = .CallbackBufferFullError ∧ r'.adapter = (s.puts [event]).adapter) := by
    intro event
    apply (put_ensures hsame event).mono
    · rintro _ r' ⟨hroom, hadapter⟩
      simp [puts, hroom, hadapter]
    · rintro error r' ⟨hfull, rfl, hadapter⟩
      simp [puts, hfull, hadapter]
  cases callback with
  | output_callback block =>
    cases block with
    | text text => exact hput _
    | tool_use id name input => exact hput _
    | other type => exact .ret ⟨hsame, by simp [puts, Callback.events]⟩
  | tool_output_callback result tool_use_id =>
    apply Ensures.bind
    apply (put_ensures hsame _).mono
    · rintro _ r' ⟨hroom, hadapter⟩
      dsimp only [Callback.events]
      split
      · rename_i himage
        let next : Life := { s with
          adapter := s.adapter.enqueue (.event (.TOOL_RESULT tool_use_id (truthy result.error)
            (result_output result)))
          accepted := s.accepted ++ [.TOOL_RESULT tool_use_id (truthy result.error) (result_output result)] }
        apply (put_ensures (s := next) hadapter _).mono
        · rintro _ r'' ⟨hroom', hadapter'⟩
          simp [puts, hroom, hroom', next, hadapter']
        · rintro error r'' ⟨hfull, rfl, hadapter'⟩
          simp [puts, hroom, hfull, next, hadapter']
      · exact .ret (by simp [puts, hroom, hadapter])
    · rintro error r' ⟨hfull, rfl, hadapter⟩
      simp [Callback.events, puts, hfull, hadapter]

/-- The `close` of the runner is one of these orders: only the worker has turns until it
is over. So what is proved of turns is true of the runner. -/
theorem close_turns (h : s.Sound queue_size) (hopen : s.closing = .not_called) {env : Environment}
    (hemits : ∀ n, env.emits n = true) {r : RunState} (hsame : r.adapter = s.adapter) :
    Ensures env.close r
      (fun _ r' => ∃ t, Turns s t ∧ t.closing = .returned ∧ r'.adapter = t.adapter)
      (fun _ r' => ∃ t, s.step .close = some t ∧ t.closing = .raised ∧ r'.adapter = t.adapter) := by
  obtain ⟨hreturned, -⟩ := (h.live (.inl hopen)).drained hemits
  have hclose := h.step_close hopen
  apply close_rule
  · exact fun hworker => absurd (hsame ▸ hworker) (h.started hopen)
  · intro hfull
    rw [hsame] at hfull
    rw [if_pos hfull] at hclose
    exact ⟨_, hclose, rfl, hsame⟩
  · intro _ hraised
    rw [hsame, hreturned] at hraised
    cases hraised
  · intro hroom _
    rw [hsame] at hroom ⊢
    rw [if_neg (by simp [hroom])] at hclose
    have hsure : env.emits = fun _ => true := funext hemits
    rw [hsure] at hreturned ⊢
    have hworks := turns_works { s with adapter := s.adapter.enqueue .STOP, closing := .awaiting }
      (2 * (s.adapter.enqueue .STOP).queue.length + 1)
    exact ⟨_, .tail .resume ((Run.single trivial hclose).trans hworks) trivial (if_pos ⟨rfl, hreturned⟩),
      rfl, rfl⟩

/-- A producer that leaves the worker no turn fills the queue up to any length within
its bound. -/
theorem fills (maxsize : Nat) (n : Nat) (hn : n ≤ maxsize) :
    ∃ s, Turns (opened maxsize) s ∧ s.closing = .not_called ∧ s.adapter.queue.length = n ∧
      s.accepted.length = n ∧ s.adapter.emitted = [] := by
  induction n with
  | zero => exact ⟨_, .refl, rfl, rfl, rfl, rfl⟩
  | succ n ih =>
    obtain ⟨s, hturns, hopen, hlength, haccepted, hemitted⟩ := ih (by omega)
    have hroom : s.adapter.full = false := by
      simp [Adapter.full, (Sound.opened.run hturns).maxsize]
      omega
    let t : Life := { s with
      adapter := s.adapter.enqueue (.event (.ASSISTANT_MESSAGE ""))
      accepted := s.accepted ++ [.ASSISTANT_MESSAGE ""] }
    have hstep : s.step (.callback (.output_callback (.text ""))) = some t := by
      simp [Life.step, hopen, Callback.events, puts, hroom, t]
    refine ⟨t, .tail _ hturns trivial hstep, hopen, ?_, ?_, hemitted⟩
    · simp [t, Adapter.enqueue, hlength]
    · simp [t, haccepted]

/-- Whatever the order of callbacks and turns of the worker, the events accepted
arrive in order, and `close` is clean exactly when the queue has room for STOP. -/
theorem buffer_drained (queue_size : Int) (hturns : Turns (opened queue_size) s) :
    s.Ordered ∧ (s.closing = .not_called →
      (s.ClosesCleanly ↔ queue_size ≤ 0 ∨ s.adapter.queue.length < queue_size)) := by
  have hsound := Sound.opened.run hturns
  exact ⟨hsound.ordered, hsound.closes_cleanly_iff⟩

/-- With one event taken by the worker, a buffer of one has room for STOP. -/
theorem buffer_drained_text : ∃ s, Turns (opened 1) s ∧ s.accepted = [.ASSISTANT_MESSAGE "text"] ∧
    s.Ordered ∧ s.ClosesCleanly := by
  have hput : Turns (opened 1) ((opened 1).puts [.ASSISTANT_MESSAGE "text"]) :=
    .single (l := .callback (.output_callback (.text "text"))) trivial rfl
  have hturns := hput.trans (turns_works _ 1)
  obtain ⟨hordered, hclean⟩ := buffer_drained 1 hturns
  exact ⟨_, hturns, rfl, hordered, (hclean rfl).mpr (.inr (by decide))⟩

/-- `close` raises after 256 texts that the worker has had no turn for. -/
theorem buffer_full : ∃ s t, Turns (opened 256) s ∧ s.accepted.length = 256 ∧
    s.step .close = some t ∧ t.closing = .raised ∧ t.adapter.emitted = [] := by
  obtain ⟨s, hturns, hopen, hlength, haccepted, hemitted⟩ := fills 256 256 le_rfl
  have hsound := Sound.opened.run hturns
  have hfull : s.adapter.full = true := by simp [Adapter.full, hsound.maxsize, hlength]
  have hclose := hsound.step_close hopen
  rw [if_pos hfull] at hclose
  exact ⟨s, _, hturns, haccepted, hclose, rfl, hemitted⟩

end Life

end anthropic_callbacks

end session_manager
