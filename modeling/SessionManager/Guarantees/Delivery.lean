import SessionManager.Stream.Chain
import SessionManager.Stream.Order

open transition cursor

namespace session_manager.event_stream.State

open broker

variable {config : Config} {s s' : State} {l : Label}

private theorem first_of_page (h : InOrder config s) {event : SessionEvent} {rest : List SessionEvent}
    {full : Bool} (hphase : s.phase = .replay (event :: rest) full) :
    event ∈ (after SessionEvent.position s.last_sent_id (s.log config)).head? := by
  obtain ⟨tail, htail⟩ := h.page hphase
  simp [← htail]

private theorem first_of_queue (h : InOrder config s) (hreplaying : Replaying config s)
    (hpumping : s.Pumping) (hphase : s.phase = .live) {item : EventEnvelope} {queue : List Item}
    (hqueue : s.live_queue = .envelope item :: queue) :
    ∃ event ∈ s.log config, item = event_to_envelope event ∧
      ∀ e ∈ s.log config, s.last_sent_id < e.id → event.id ≤ e.id := by
  obtain ⟨event, hitem⟩ := h.genuine (.envelope item) (hqueue ▸ List.mem_cons_self) rfl
  cases hitem
  have hpending : s.pending = event :: { s with live_queue := queue }.pending := by
    simp [pending, hqueue, Item.event?, event_to_envelope]
  have hclear : s.clear := by
    intro item hitem
    cases item with
    | envelope => rfl
    | overflow => cases hqueue.symm.trans (hpumping.overflow hitem).1
  refine ⟨event, h.listed (hpending ▸ List.mem_cons_self), rfl, fun e he hunsent => ?_⟩
  have hlate : e ∉ s.replayed := fun hmem =>
    Int.not_le.mpr hunsent (hreplaying.caught_up hphase hmem (mem_log.mp he).2)
  have hmem := h.tracked (by simp [hphase, Phase.reading]) hclear he hlate hunsent
  rw [hpending] at hmem
  rcases List.mem_cons.mp hmem with rfl | hmem
  · exact Nat.le_refl _
  · exact Int.ofNat_le.mp (Int.le_of_lt ((List.pairwise_cons.mp (hpending ▸ h.sorted)).1 e hmem))

/-- Events appended in turn are never passed over: whatever the stream sends next, no
committed event above its cursor comes before it. -/
theorem InOrder.gapless (h : InOrder config s) (hreplaying : Replaying config s) (hpumping : s.Pumping)
    (hone : OneAppend config s) (hchain : Chain config s) (hstep : s.step config l = some s') :
    s.gapless config l := by
  constructor
  case left =>
    intro event hevent hsession
    cases stepped hstep <;> cases hevent
    rename_i happending
    obtain ⟨-, hlast, -⟩ := hone event happending hsession
    rcases hchain.anchored with horigin | ⟨e, he, hid⟩
    · omega
    · exact .inr (hid ▸ Int.ofNat_lt.mpr (hlast e he))
  case right =>
    have hhead : ∀ event ∈ (after SessionEvent.position s.last_sent_id (s.log config)).head?,
        ∃ event' ∈ s.log config, event_to_envelope event = event_to_envelope event' ∧
          ∀ e ∈ s.log config, s.last_sent_id < e.id → event'.id ≤ e.id := fun event hevent => by
      obtain ⟨hmem, -, hnext⟩ := head_after hevent
      exact ⟨event, hmem, rfl, fun e he hunsent => Int.ofNat_le.mp (hnext e he hunsent)⟩
    intro item hitem
    cases l with
    | anext =>
      simp only [sends] at hitem
      split at hitem <;> cases hitem
      exact hhead _ (first_of_page h ‹_›)
    | list_after ok =>
      cases ok
      · cases hitem
      · simp only [sends, list_after_eq] at hitem
        split at hitem
        · obtain ⟨event, hevent, rfl⟩ := Option.map_eq_some_iff.mp hitem
          rw [List.head?_take, if_neg (by decide)] at hevent
          exact hhead event hevent
        · cases hitem
    | queue_get =>
      simp only [sends] at hitem
      split at hitem
      · rename_i hphase hqueue
        split at hitem <;> cases hitem
        exact first_of_queue h hreplaying hpumping hphase hqueue
      · cases hitem
    | _ => cases hitem

/-- The items are the first committed events of the session above the cursor, with
no gap, each one once, in the order of their ids. -/
def first_events (config : Config) (s : State) (cursor : Int) (items : List EventEnvelope) : Prop :=
  ∃ events, items = events.map event_to_envelope ∧
    (events.map SessionEvent.position).Pairwise (· < ·) ∧
    ∃ k, events = (after SessionEvent.position cursor (s.log config)).take k

private theorem first_events_between (hkeys : ((s.log config).map SessionEvent.position).Nodup) {o c : Int}
    (hoc : o ≤ c) : s.first_events config o
      ((between SessionEvent.position o c (s.log config)).map event_to_envelope) := by
  refine ⟨_, rfl, List.pairwise_map.mpr (between_strict hkeys),
    (between SessionEvent.position o c (s.log config)).length, ?_⟩
  exact List.prefix_iff_eq_take.mp (between_prefix_after hkeys hoc)

/-- What a run of appends in turn keeps. -/
private structure Delivering (config : Config) (s : State) : Prop where
  sequenced : s.Sequenced
  replaying : Replaying config s
  pumping : s.Pumping
  one_append : OneAppend config s
  in_order : InOrder config s
  chain : Chain config s

private theorem Delivering.initial : Delivering config (initial config.origin) where
  sequenced := .initial _
  replaying := .initial _
  pumping := .initial _
  one_append := .initial _
  in_order := .initial _
  chain := .initial

private theorem Delivering.step (h : Delivering config s) (hturn : s.in_turn config l)
    (hstep : s.step config l = some s') : Delivering config s' where
  sequenced := h.sequenced.step hstep
  replaying := h.replaying.step h.sequenced hstep
  pumping := h.pumping.step hstep
  one_append := h.one_append.step h.sequenced hturn hstep
  in_order := h.in_order.step h.sequenced h.one_append h.pumping hturn hstep
  chain := by
    have hgapless := h.in_order.gapless h.replaying h.pumping h.one_append h.chain hstep
    exact h.chain.step h.sequenced h.replaying hgapless hstep

/-- When the events are appended in turn and the subscription hands over what is
published, a stream has at every moment sent the first events above its cursor,
and the streams of a client, each resumed from the last event received, have
together brought it the first events above the cursor of the first one. -/
theorem streams_deliver (hrun : Run (State.step config) (in_turn config) (initial config.origin) s) :
    s.first_events config s.after_id s.sent ∧
    s.first_events config config.origin (s.received ++ s.sent) := by
  have h := hrun.invariant (I := Delivering config) (fun _ _ _ h => h.step) .initial
  have hkeys := h.sequenced.unique config
  have hchain := h.chain
  obtain ⟨events, hjoined, rfl, -⟩ := hchain.joined h.sequenced
  constructor
  · rw [hchain.sent]
    exact first_events_between hkeys hchain.after_le
  · rw [hjoined]
    exact first_events_between hkeys (Int.le_trans hchain.origin_le hchain.after_le)

/-- Event 1 is replayed, event 2 is delivered live, and a queue of one item
overflows with events 3 and 4. The next stream, resumed from event 2, brings them. -/
theorem streams_deliver_overflow :
    let config : Config := ⟨7, 1, 0⟩
    let event (id : EventId) : SessionEvent := ⟨id, 7, none, .SESSION_STATUS, []⟩
    ∃ s : State, s.sent = [event_to_envelope (event 3), event_to_envelope (event 4)] ∧
      s.first_events config 2 s.sent ∧ s.first_events config 0 (s.received ++ s.sent) := by
  intro config event
  let hears (id : EventId) : List Label := [.flush (event id), .commit (event id), .publish (event id) .heard]
  let hands (id : EventId) : Label := .get (.message (.object (event_to_envelope (event id))))
  obtain ⟨s, hrun, hafter, hsent⟩ : ∃ s, Run (State.step config) (in_turn config) (initial 0) s ∧
      s.after_id = 2 ∧ s.sent = [event_to_envelope (event 3), event_to_envelope (event 4)] :=
    Run.exists_of_execIf ([.flush (event 1), .commit (event 1), .publish (event 1) .missed, .stream_events 0,
      .subscribe true, .anext, .list_after true, .anext] ++ hears 2 ++ [hands 2, .queue_get] ++
      hears 3 ++ [hands 3] ++ hears 4 ++ [hands 4, .queue_get, .stream_events 4, .subscribe true,
      .anext, .list_after true, .anext]) _ (by decide)
  have h := streams_deliver hrun
  exact ⟨s, hsent, hafter ▸ h.1, h.2⟩

end session_manager.event_stream.State
