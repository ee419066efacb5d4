import Mathlib.Logic.Function.Iterate
import SessionManager.Agents.RemoteTools
import SessionManager.Domain

namespace session_manager

namespace anthropic_callbacks

open remote_tools

/-- The events the adapter puts, with their payloads. -/
inductive Event
  | ASSISTANT_MESSAGE (text : String)
  | TOOL_STARTED (tool_use_id name : String) (input : ToolInput)
  | TOOL_RESULT (tool_use_id : String) (is_error : Bool) (output : String)
  | SCREENSHOT_AVAILABLE (tool_use_id : String)

inductive Item
  | event (event : Event)
  | STOP

def Item.event? : Item → Option Event
  | .event e => some e
  | .STOP => none

/-- Where `_drain` is: in `queue.get`, in `event_sink.emit`, or over. -/
inductive Worker
  | getting
  | emitting
  | returned
  | raised
deriving DecidableEq, Repr

def Worker.over : Worker → Bool
  | getting | emitting => false
  | returned | raised => true

/-- `AnthropicCallbackAdapter`, with the events handed to its sink so far. A
`maxsize` of zero means no bound. -/
structure Adapter where
  maxsize : Nat := 256
  queue : List Item := []
  worker : Option Worker := none
  emitted : List Event := []

namespace Adapter

def full (adapter : Adapter) : Bool :=
  0 < adapter.maxsize && adapter.maxsize ≤ adapter.queue.length

def start (adapter : Adapter) : Adapter :=
  { adapter with worker := adapter.worker.orElse fun _ => some .getting }

/-- `put_nowait` of a queue that is not full. -/
def enqueue (adapter : Adapter) (item : Item) : Adapter :=
  { adapter with queue := adapter.queue ++ [item] }

/-- What `_drain` does next. `emits n` tells whether the n-th emit returns. -/
def work (emits : Nat → Bool) (adapter : Adapter) : Adapter :=
  match adapter.worker, adapter.queue with
  | some .getting, .event event :: queue =>
    { adapter with
      queue := queue
      worker := some .emitting
      emitted := adapter.emitted ++ [event] }
  | some .getting, .STOP :: queue =>
    { adapter with queue := queue, worker := some .returned }
  | some .emitting, _ =>
    { adapter with worker := some (if emits (adapter.emitted.length - 1) then .getting else .raised) }
  | _, _ => adapter

/-- `n` steps of the worker. -/
def works (emits : Nat → Bool) (n : Nat) (adapter : Adapter) : Adapter := (work emits)^[n] adapter

/-- The worker until it is over: an item takes it two steps at most. -/
def drained (emits : Nat → Bool) (adapter : Adapter) : Adapter :=
  adapter.works emits (2 * adapter.queue.length + 1)

/-- The events handed to the sink, and after them those still in the queue. -/
def published (adapter : Adapter) : List Event :=
  adapter.emitted ++ adapter.queue.filterMap Item.event?

/-- The worker is on its way and has not been told to stop. -/
def Live (adapter : Adapter) : Prop :=
  (adapter.worker = some .getting ∨ adapter.worker = some .emitting) ∧ .STOP ∉ adapter.queue

variable {adapter : Adapter} {emits : Nat → Bool} {event : Event}

/-- An event that is put is published: it is emitted already, in the worker's hands, or
queued. -/
theorem published_enqueue : (adapter.enqueue (.event event)).published = adapter.published ++ [event] := by
  simp [published, enqueue, Item.event?]

/-- Starting the worker publishes nothing. -/
@[simp] theorem published_start : adapter.start.published = adapter.published := rfl

/-- The worker changes nothing of what has been published: it moves an event from the
queue to those emitted. -/
theorem published_work : (adapter.work emits).published = adapter.published := by
  unfold work
  split <;> simp_all [published, Item.event?, List.filterMap_cons]

/-- Any number of the worker's turns publishes the same events, only further along the
way. -/
theorem published_works (n : Nat) : (adapter.works emits n).published = adapter.published := by
  induction n with
  | zero => rfl
  | succ n ih => rw [works, Function.iterate_succ_apply', published_work, ← works, ih]

/-- A live worker stays live when an event is put, as an event is no STOP. -/
theorem Live.enqueue (h : adapter.Live) : (adapter.enqueue (.event event)).Live := by
  refine ⟨h.1, ?_⟩
  simp [Adapter.enqueue, h.2]

/-- A live worker stays live over a turn, as long as the sink takes what it emits. -/
theorem Live.work (h : adapter.Live) (hemits : ∀ n, emits n = true) : (adapter.work emits).Live := by
  obtain ⟨hworker, hqueue⟩ := h
  unfold Adapter.work
  split <;> simp_all [Live]

/-- A live worker stays live over any number of turns, as long as the sink takes what it
emits. -/
theorem Live.works (h : adapter.Live) (hemits : ∀ n, emits n = true) (n : Nat) :
    (adapter.works emits n).Live := by
  induction n with
  | zero => exact h
  | succ n ih =>
    rw [Adapter.works, Function.iterate_succ_apply', ← Adapter.works]
    exact ih.work hemits

/-- Turns are taken one after the other, and the induction on a number of turns goes by
the first of them. -/
theorem works_succ (n : Nat) : adapter.works emits (n + 1) = (adapter.work emits).works emits n := rfl

/-- A worker that is over does nothing more: no item is taken from the queue, and
nothing is emitted. -/
theorem works_of_over {worker : Worker} (hworker : adapter.worker = some worker)
    (hover : worker.over = true) (n : Nat) : adapter.works emits n = adapter := by
  have hwork : adapter.work emits = adapter := by
    cases worker with
    | getting | emitting => cases hover
    | returned | raised => simp [work, hworker]
  induction n with
  | zero => rfl
  | succ n ih => rw [works_succ, hwork, ih]

/-- How a worker ends that is told to stop after these events: they are emitted,
or one of them could not be. -/
inductive Over (emits : Nat → Bool) (events : List Event) (adapter : Adapter) : Prop
  | returned (hworker : adapter.worker = some .returned) (hemitted : adapter.emitted = events)
      (hemits : ∀ n < events.length, emits n = true)
  | raised (hworker : adapter.worker = some .raised) (n : Nat) (hn : n < events.length)
      (hemits : emits n = false)

/-- A worker that is over has returned with everything emitted, or has raised at an
emit. -/
theorem Over.worker {events : List Event} (h : adapter.Over emits events) :
    adapter.worker = some .returned ∧ adapter.emitted = events ∧ (∀ n < events.length, emits n = true) ∨
      adapter.worker = some .raised ∧ ¬ ∀ n < events.length, emits n = true := by
  cases h with
  | returned hworker hemitted hemits => exact .inl ⟨hworker, hemitted, hemits⟩
  | raised hworker n hn hemits => exact .inr ⟨hworker, fun hall => by simp [hall n hn] at hemits⟩

/-- A worker hands over the queue up to STOP, or up to an emit that raises. Two turns
for each event are enough: one to get it and one to emit it. -/
theorem works_to_stop (events : List Event) {adapter : Adapter} {n : Nat}
    (hworker : adapter.worker = some .getting) (hemits : ∀ n < adapter.emitted.length, emits n = true)
    (hqueue : adapter.queue = events.map .event ++ [.STOP]) (hn : 2 * events.length + 1 ≤ n) :
    (adapter.works emits n).Over emits (adapter.emitted ++ events) := by
  induction events generalizing adapter n with
  | nil =>
    obtain ⟨n, rfl⟩ := Nat.exists_eq_succ_of_ne_zero (Nat.ne_of_gt hn)
    have hwork : adapter.work emits = { adapter with queue := [], worker := some .returned } := by
      simp [work, hworker, hqueue]
    rw [Nat.succ_eq_add_one, works_succ, hwork, works_of_over rfl rfl]
    refine .returned rfl (by simp) ?_
    simpa using hemits
  | cons event events ih =>
    obtain ⟨n, rfl⟩ : ∃ m, n = m + 2 := ⟨n - 2, by simp at hn; omega⟩
    have hwork : (adapter.work emits).work emits =
        { adapter with
          queue := events.map .event ++ [.STOP]
          worker := some (if emits adapter.emitted.length then .getting else .raised)
          emitted := adapter.emitted ++ [event] } := by
      simp [work, hworker, hqueue]
    rw [works_succ, works_succ, hwork]
    cases hemit : emits adapter.emitted.length with
    | false =>
      rw [if_neg (by simp), works_of_over rfl rfl]
      exact .raised rfl adapter.emitted.length (by simp) hemit
    | true =>
      rw [if_pos rfl]
      have hrest := @ih { adapter with
          queue := events.map .event ++ [.STOP]
          worker := some .getting
          emitted := adapter.emitted ++ [event] } n rfl (by
        intro m hm
        rw [List.length_append, List.length_singleton] at hm
        rcases Nat.lt_succ_iff_lt_or_eq.mp hm with hm | rfl
        · exact hemits m hm
        · exact hemit) rfl (by simp at hn; omega)
      simpa using hrest

/-- A queue without STOP holds events only, so it can be read off as a list of events. -/
theorem eq_map_of_no_stop {queue : List Item} (h : .STOP ∉ queue) :
    queue = (queue.filterMap Item.event?).map .event := by
  induction queue with
  | nil => rfl
  | cons item queue ih =>
    simp only [List.mem_cons, not_or] at h
    cases item with
    | event event => simpa [Item.event?] using ih h.2
    | STOP => exact absurd rfl h.1

/-- `close` awaits a worker that has handed over everything that was put, in the order
in which it was put. -/
theorem Live.drained (h : adapter.Live) (hemits : ∀ n, emits n = true) :
    ((adapter.enqueue .STOP).drained emits).worker = some .returned ∧
      ((adapter.enqueue .STOP).drained emits).emitted = adapter.published := by
  obtain ⟨hworker, hqueue⟩ := h
  have hevents := eq_map_of_no_stop hqueue
  generalize adapter.queue.filterMap Item.event? = events at hevents
  have hstop : (adapter.enqueue .STOP).queue = events.map .event ++ [.STOP] := by
    rw [Adapter.enqueue, ← hevents]
  have hlength : (adapter.enqueue .STOP).queue.length = events.length + 1 := by simp [hstop]
  have hpublished : adapter.published = adapter.emitted ++ events := by
    simp [published, hevents, List.filterMap_map, Function.comp_def, Item.event?]
  have hover : ((adapter.enqueue .STOP).drained emits).Over emits adapter.published := by
    rw [Adapter.drained, hlength, hpublished]
    rcases hworker with hgetting | hemitting
    · exact @works_to_stop emits events (adapter.enqueue .STOP) _ hgetting (fun n _ => hemits n) hstop
        (by omega)
    · have hwork : (adapter.enqueue .STOP).work emits =
          { adapter.enqueue .STOP with worker := some .getting } := by
        simp [Adapter.work, Adapter.enqueue, hemitting, hemits]
      have hn : 2 * (events.length + 1) + 1 = 2 * (events.length + 1) + 0 + 1 := rfl
      rw [hn, works_succ, hwork]
      exact @works_to_stop emits events { adapter.enqueue .STOP with worker := some .getting } _ rfl
        (fun n _ => hemits n) hstop (by omega)
  rcases hover.worker with ⟨hreturned, hemitted, -⟩ | ⟨-, hraises⟩
  · exact ⟨hreturned, hemitted⟩
  · exact absurd (fun n _ => hemits n) hraises

end Adapter

/-- `str(error or output or "")[:10000]` -/
def result_output (result : ToolResult) : String :=
  let text := if truthy result.error then result.error.getD "" else result.output.getD ""
  String.ofList (text.toList.take 10000)

end anthropic_callbacks

end session_manager
