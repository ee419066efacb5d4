import SessionManager.Services.EventStream

open transition

namespace session_manager.event_stream

open broker

namespace State

variable {config : Config} {s s' : State} {l : Label}

/-- One page event, or the end of the page. -/
inductive Paged (s : State) : List SessionEvent → Bool → State → Prop
  | event {event : SessionEvent} {rest : List SessionEvent} {full : Bool} :
    Paged s (event :: rest) full
      { s with
        phase := .replay rest full
        last_sent_id := event.id
        frames := s.frames ++ [.event (event_to_envelope event)] }
  | full : Paged s [] true { s with phase := .list_after }
  | last : Paged s [] false { s with phase := .live, pump := .running }

/-- What `replay` does with a page is what `Paged` says: it sends the next event, reads
another page, or goes live. -/
theorem paged (s : State) (rest : List SessionEvent) (full : Bool) :
    Paged s rest full (s.replay rest full) := by
  cases rest with
  | cons event rest => exact .event
  | nil =>
    cases full
    · exact .last
    · exact .full

/-- What the live loop makes of an item. -/
inductive Delivered (s : State) : Item → State → Prop
  | reset {marker : StreamOverflow} :
    Delivered s (.overflow marker)
      ({ s with frames := s.frames ++ [Frame.reset marker.reason] }.finish .reset)
  | unreadable {item : EventEnvelope} (hid : item.id = none) :
    Delivered s (.envelope item) (s.finish .closed)
  | old {item : EventEnvelope} {event_id : Int} (hid : item.id = some event_id)
      (hold : event_id ≤ s.last_sent_id) : Delivered s (.envelope item) s
  | sent {item : EventEnvelope} {event_id : Int} (hid : item.id = some event_id)
      (hnew : s.last_sent_id < event_id) (hencodes : item.encodes = true) :
    Delivered s (.envelope item)
      { s with last_sent_id := event_id, frames := s.frames ++ [.event item] }
  | unencodable {item : EventEnvelope} {event_id : Int} (hid : item.id = some event_id)
      (hnew : s.last_sent_id < event_id) (hencodes : item.encodes = false) :
    Delivered s (.envelope item) ({ s with last_sent_id := event_id }.finish Phase.closed)

/-- What `deliver` does with an item of the queue is what `Delivered` says: it sends it,
drops it as old, or ends the stream. -/
theorem delivered (s : State) (item : Item) : Delivered s item (s.deliver item) := by
  cases item with
  | overflow marker => exact .reset
  | envelope item =>
    simp only [deliver]
    cases hid : item.id with
    | none => exact .unreadable hid
    | some event_id =>
      simp only
      split_ifs with hold hencodes
      · exact .old hid hold
      · exact .sent hid (Int.not_le.mp hold) hencodes
      · exact .unencodable hid (Int.not_le.mp hold) (Bool.eq_false_iff.mpr hencodes)

/-- What the pump makes of an answer. -/
inductive Pumped (config : Config) (s : State) :
    Except broker.Error (Option EventEnvelope) → State → Prop
  | raised {error : broker.Error} : Pumped config s (.error error) { s with pump := .raised }
  | nothing : Pumped config s (.ok none) s
  | overflow {item : EventEnvelope} (hpositive : 0 < config.queue_size)
      (hfull : config.queue_size ≤ s.live_queue.length) :
    Pumped config s (.ok (some item)) { s with live_queue := [.overflow {}], pump := .returned }
  | put {item : EventEnvelope} :
    Pumped config s (.ok (some item)) { s with live_queue := s.live_queue ++ [.envelope item] }

/-- What one turn of `_pump` does with the subscription's answer is what `Pumped` says:
it queues it, passes over it, or stops. -/
theorem pumped (config : Config) (s : State) (result : Except broker.Error (Option EventEnvelope)) :
    Pumped config s result (s.pump_subscription config result) := by
  rcases result with error | _ | item
  · exact .raised
  · exact .nothing
  · unfold pump_subscription
    split_ifs with hfull
    · exact .overflow hfull.1 hfull.2
    · exact .put

/-- What one step does, by the label and the branch of the source it takes. -/
inductive Stepped (config : Config) (s : State) : Label → State → Prop
  | flush {event : SessionEvent} (hid : event.id = s.next_event_id) :
    Stepped config s (.flush event) (s.flush event)
  | commit {event : SessionEvent} (hevent : event ∈ s.appending) :
    Stepped config s (.commit event) (s.commit config event)
  | rollback {event : SessionEvent} (hevent : event ∈ s.appending) :
    Stepped config s (.rollback event) { s with appending := s.appending.erase event }
  | publish {event : SessionEvent} {outcome : Publish} (hevent : event ∈ s.publishing) :
    Stepped config s (.publish event outcome) (s.publish event outcome)
  | connect {count : Nat} (hended : s.phase.ended = true) :
    Stepped config s (.stream_events count) (s.stream_events config count)
  | subscribed (hphase : s.phase = .subscribe) :
    Stepped config s (.subscribe true) { s with phase := .retry, frames := s.frames ++ [.retry] }
  | unsubscribed (hphase : s.phase = .subscribe) :
    Stepped config s (.subscribe false) (s.finish .closed)
  | retried (hphase : s.phase = .retry) : Stepped config s .anext { s with phase := .list_after }
  | next {rest : List SessionEvent} {full : Bool} {t : State} (hphase : s.phase = .replay rest full)
      (hpaged : Paged s rest full t) : Stepped config s .anext t
  | returned (hphase : s.phase = .reset) : Stepped config s .anext { s with phase := .closed }
  | page {rest : List SessionEvent} {full : Bool} {t : State} (hphase : s.phase = .list_after)
      (hrest : EventRepository.list_after s.events config.session_id s.last_sent_id 1000 = rest)
      (hfull : decide (1000 ≤ rest.length) = full)
      (hpaged : Paged { s with replayed := s.events } rest full t) :
    Stepped config s (.list_after true) t
  | unread (hphase : s.phase = .list_after) : Stepped config s (.list_after false) (s.finish .closed)
  | pumped {answer : Answer} {result : Except broker.Error (Option EventEnvelope)} {t : State}
      (hpump : s.pump = .running) (hresult : RedisEventSubscription.get answer = result)
      (hpumped : Pumped config { s with buffer := hand_over answer s.buffer } result t) :
    Stepped config s (.get answer) t
  | taken {item : Item} {queue : List Item} {t : State} (hphase : s.phase = .live)
      (hqueue : s.live_queue = item :: queue)
      (hdelivered : Delivered { s with live_queue := queue } item t) : Stepped config s .queue_get t
  | heartbeat (hphase : s.phase = .live) :
    Stepped config s .timeout { s with frames := s.frames ++ [.heartbeat] }
  | left (hended : s.phase.ended = false) : Stepped config s .aclose (s.finish .closed)

/-- The inversion of `step`: every step of the stream is one of the cases of `Stepped`.
The lemmas about runs split these and never unfold the step itself. -/
theorem stepped (hstep : s.step config l = some s') : Stepped config s l s' := by
  cases l with
  | flush event =>
    obtain ⟨hid, rfl⟩ := by simpa [step] using hstep
    exact .flush hid
  | commit event =>
    obtain ⟨hevent, rfl⟩ := by simpa [step] using hstep
    exact .commit hevent
  | rollback event =>
    obtain ⟨hevent, rfl⟩ := by simpa [step] using hstep
    exact .rollback hevent
  | publish event outcome =>
    obtain ⟨hevent, rfl⟩ := by simpa [step] using hstep
    exact .publish hevent
  | stream_events count =>
    obtain ⟨hended, rfl⟩ := by simpa [step] using hstep
    exact .connect hended
  | subscribe ok =>
    obtain ⟨hphase, rfl⟩ := by simpa [step] using hstep
    cases ok
    · exact .unsubscribed hphase
    · exact .subscribed hphase
  | anext =>
    simp only [step] at hstep
    split at hstep <;> cases hstep
    · exact .retried ‹_›
    · exact .next ‹_› (paged s _ _)
    · exact .returned ‹_›
  | list_after ok =>
    obtain ⟨hphase, rfl⟩ := by simpa [step] using hstep
    cases ok
    · exact .unread hphase
    · exact .page hphase rfl rfl (paged _ _ _)
  | get answer =>
    obtain ⟨hpump, rfl⟩ := by simpa [step] using hstep
    exact .pumped hpump rfl (pumped config _ _)
  | queue_get =>
    simp only [step] at hstep
    split at hstep <;> cases hstep
    exact .taken ‹_› ‹_› (delivered _ _)
  | timeout =>
    obtain ⟨hphase, rfl⟩ := by simpa [step] using hstep
    exact .heartbeat hphase
  | aclose =>
    obtain ⟨hended, rfl⟩ := by simpa [step] using hstep
    exact .left hended

end State

end session_manager.event_stream
