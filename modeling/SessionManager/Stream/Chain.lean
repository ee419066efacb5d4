import SessionManager.Stream.Replay

open transition cursor

namespace session_manager.event_stream

open broker

/-- The event a commit of `append` adds. -/
def Label.committed : Label → Option SessionEvent
  | commit event => some event
  | _ => none

namespace State

variable {config : Config} {s s' : State} {l : Label}

/-- The envelope a step of the stream is about to send. -/
def sends (config : Config) (s : State) : Label → Option EventEnvelope
  | .anext =>
    match s.phase with
    | .replay (event :: _) _ => some (event_to_envelope event)
    | _ => none
  | .list_after true =>
    if s.phase = .list_after then
      (EventRepository.list_after s.events config.session_id s.last_sent_id 1000).head?.map
        event_to_envelope
    else none
  | .queue_get =>
    match s.phase, s.live_queue with
    | .live, .envelope item :: _ => if item.id.any (s.last_sent_id < ·) then some item else none
    | _, _ => none
  | _ => none

/-- The session gets its events above what the client has been sent, and nothing
is sent that passes over a committed event. -/
def gapless (config : Config) (s : State) (l : Label) : Prop :=
  (∀ event ∈ l.committed, event.session_id = config.session_id →
    event.id ≤ config.origin ∨ s.last_sent_id < event.id) ∧
  ∀ item ∈ s.sends config l, ∃ event ∈ s.log config,
    item = event_to_envelope event ∧ ∀ e ∈ s.log config, s.last_sent_id < e.id → event.id ≤ e.id

instance (config : Config) (s : State) (l : Label) : Decidable (s.gapless config l) :=
  inferInstanceAs (Decidable (_ ∧ _))

/-- The streams of a client, joined, are an excerpt of the log without gaps: the
earlier ones from the origin to the cursor of the current one, and that one from
there to `last_sent_id`, the last event of them. -/
structure Chain (config : Config) (s : State) : Prop where
  origin_le : config.origin ≤ s.after_id
  after_le : s.after_id ≤ s.last_sent_id
  anchored : s.last_sent_id = config.origin ∨ ∃ e ∈ s.log config, s.last_sent_id = e.id
  received : s.received =
    (between SessionEvent.position config.origin s.after_id (s.log config)).map event_to_envelope
  sent : s.sent =
    (between SessionEvent.position s.after_id s.last_sent_id (s.log config)).map event_to_envelope

/-- Resuming after a list of delivered events starts at the id of the last one, or where
the chain started when none was delivered. -/
theorem resume_map (origin : Int) (events : List SessionEvent) :
    resume origin (events.map event_to_envelope) =
      cursor.position SessionEvent.position origin events := by
  rcases List.eq_nil_or_concat' events with rfl | ⟨init, event, rfl⟩
  · rfl
  · simp [resume]

/-- A stream that has delivered nothing is a chain of one, with nothing received before
it. -/
theorem Chain.initial : Chain config (initial config.origin) where
  origin_le := Int.le_refl _
  after_le := Int.le_refl _
  anchored := .inl rfl
  received := by simp [State.initial]
  sent := by simp [State.initial, State.sent]

/-- What `Chain` reads. -/
private def bookmarks (s : State) :=
  (s.events, s.after_id, s.last_sent_id, s.received, s.sent)

private theorem Chain.same (h : Chain config s) (hsame : s'.bookmarks = s.bookmarks) :
    Chain config s' := by
  obtain ⟨hevents, hafter, hlast, hreceived, hsent⟩ : s'.events = s.events ∧
      s'.after_id = s.after_id ∧ s'.last_sent_id = s.last_sent_id ∧ s'.received = s.received ∧
      s'.sent = s.sent := by simpa [bookmarks] using hsame
  have hlog : s'.log config = s.log config := by rw [log, log, hevents]
  constructor
  case origin_le => rw [hafter]; exact h.origin_le
  case after_le => rw [hafter, hlast]; exact h.after_le
  case anchored => rw [hlast, hlog]; exact h.anchored
  case received => rw [hreceived, hafter, hlog]; exact h.received
  case sent => rw [hsent, hafter, hlast, hlog]; exact h.sent

private theorem Chain.commit (h : Chain config s) {event : SessionEvent}
    (hplace : event.session_id = config.session_id →
      event.id ≤ config.origin ∨ s.last_sent_id < event.id) :
    Chain config (s.commit config event) := by
  by_cases hsession : event.session_id = config.session_id
  · have hlog := commit_log (s := s) hsession
    have horigin := h.origin_le
    have hafter := h.after_le
    have hplace : event.position ≤ config.origin ∨ s.last_sent_id < event.position := hplace hsession
    constructor
    case origin_le => exact h.origin_le
    case after_le => exact h.after_le
    case anchored =>
      rw [hlog]
      rcases h.anchored with hlast | ⟨e, he, hlast⟩
      · exact .inl hlast
      · exact .inr ⟨e, List.mem_append_left _ he, hlast⟩
    case received =>
      rw [hlog]
      exact h.received.trans (congrArg _ (between_insert (by omega)).symm)
    case sent =>
      rw [hlog]
      exact h.sent.trans (congrArg _ (between_insert (by omega)).symm)
  · have hlog := commit_log_of_ne (s := s) hsession
    constructor
    case origin_le => exact h.origin_le
    case after_le => exact h.after_le
    case anchored => exact hlog ▸ h.anchored
    case received => exact hlog ▸ h.received
    case sent => exact hlog ▸ h.sent

private theorem Chain.send (h : Chain config s)
    (hkeys : ((s.log config).map SessionEvent.position).Nodup) {event : SessionEvent}
    (hmem : event ∈ s.log config) (hnew : s.last_sent_id < event.id)
    (hnext : ∀ e ∈ s.log config, s.last_sent_id < e.id → event.id ≤ e.id)
    (hevents : s'.events = s.events) (hafter : s'.after_id = s.after_id)
    (hlast : s'.last_sent_id = event.id) (hreceived : s'.received = s.received)
    (hsent : s'.sent = s.sent ++ [event_to_envelope event]) : Chain config s' := by
  have hlog : s'.log config = s.log config := by rw [log, log, hevents]
  constructor
  case origin_le => rw [hafter]; exact h.origin_le
  case after_le => rw [hafter, hlast]; exact Int.le_of_lt (Int.lt_of_le_of_lt h.after_le hnew)
  case anchored => exact .inr ⟨event, hlog ▸ hmem, hlast⟩
  case received => rw [hreceived, hafter, hlog]; exact h.received
  case sent =>
    have hnext' : ∀ e ∈ s.log config, s.last_sent_id < e.position → event.position ≤ e.position :=
      fun e he hlater => Int.ofNat_le.mpr (hnext e he hlater)
    have hextends := between_next hkeys h.after_le hmem hnew hnext'
    rw [hsent, hafter, hlast, hlog, ← hextends, List.map_append, h.sent, List.map_singleton]

private theorem Chain.connect (h : Chain config s) (hsequenced : s.Sequenced) (count : Nat) :
    Chain config (s.stream_events config count) := by
  have hkeys := hsequenced.unique config
  have htake := List.take_prefix count s.frames
  have hbegins : (s.frames.take count).filterMap Frame.event? <+: s.sent :=
    htake.filterMap Frame.event?
  rw [h.sent] at hbegins
  obtain ⟨part, hpart, htaken⟩ := List.prefix_map_iff.mp hbegins
  -- What the client has now is again an excerpt, which ends where the client resumes.
  have hread : between SessionEvent.position config.origin s.after_id (s.log config) ++ part <+:
      between SessionEvent.position config.origin s.last_sent_id (s.log config) := by
    rw [← between_append hkeys h.origin_le h.after_le]
    exact (List.prefix_append_right_inj _).mpr hpart
  have hreceived : s.received ++ (s.frames.take count).filterMap Frame.event? =
      (between SessionEvent.position config.origin s.after_id (s.log config) ++ part).map
        event_to_envelope := by
    rw [List.map_append, h.received, htaken]
  generalize between SessionEvent.position config.origin s.after_id (s.log config) ++ part = read
    at hread hreceived
  have hafter : (s.stream_events config count).after_id =
      cursor.position SessionEvent.position config.origin read := by
    rw [← resume_map, ← hreceived]
    rfl
  constructor
  case origin_le =>
    rw [hafter]
    rcases position_cases SessionEvent.position config.origin read with ⟨-, heq⟩ | ⟨event, hmem, heq⟩
    · exact Int.le_of_eq heq.symm
    · rw [heq]
      exact Int.le_of_lt (mem_between.mp (hread.subset hmem)).2.1
  case after_le => exact Int.le_refl _
  case anchored =>
    rw [show (s.stream_events config count).last_sent_id = _ from hafter]
    rcases position_cases SessionEvent.position config.origin read with ⟨-, heq⟩ | ⟨event, hmem, heq⟩
    · exact .inl heq
    · exact .inr ⟨event, (mem_between.mp (hread.subset hmem)).1, heq⟩
  case received =>
    rw [hafter]
    exact hreceived.trans (congrArg _ (eq_between_position hkeys hread))
  case sent => simp [State.stream_events, State.sent]

private theorem Chain.turn (h : Chain config s)
    (hkeys : ((s.log config).map SessionEvent.position).Nodup) {rest : List SessionEvent}
    {full : Bool} {t : State} (hpage : Page config s rest full)
    (hnext : ∀ event ∈ rest.head?, event ∈ s.log config ∧
      ∀ e ∈ s.log config, s.last_sent_id < e.id → event.id ≤ e.id)
    (hpaged : Paged s rest full t) : Chain config t := by
  cases hpaged with
  | @event event rest full =>
    obtain ⟨hmem, hnext⟩ := hnext event rfl
    have hnew := (List.pairwise_cons.mp hpage.sorted).1 event.position List.mem_cons_self
    exact h.send hkeys hmem hnew hnext rfl rfl rfl rfl (by simp [State.sent, Frame.event?])
  | full | last => exact h.same rfl

/-- The streams of a client stay free of gaps when no step makes one: what was received
and sent so far is the log between two cursors. -/
theorem Chain.step (h : Chain config s) (hsequenced : s.Sequenced) (hreplaying : Replaying config s)
    (hgapless : s.gapless config l) (hstep : s.step config l = some s') : Chain config s' := by
  have hkeys := hsequenced.unique config
  obtain ⟨hcommits, hsends⟩ := hgapless
  cases stepped hstep with
  | @commit event => exact h.commit (hcommits event rfl)
  | connect => exact h.connect hsequenced _
  | flush | rollback | publish | unsubscribed | retried | returned | unread | left => exact h.same rfl
  | subscribed | heartbeat => exact h.same (by simp [bookmarks, State.sent, Frame.event?])
  | pumped _ _ hpumped => cases hpumped <;> exact h.same rfl
  | @next rest full _ hphase hpaged =>
    refine h.turn hkeys (hreplaying.page hphase) (fun event hevent => ?_) hpaged
    cases rest with
    | nil => cases hevent
    | cons first rest =>
      cases hevent
      obtain ⟨next, hmem, heq, hnext⟩ := hsends (event_to_envelope event) (by simp [sends, hphase])
      rw [event_to_envelope_inj] at heq
      exact heq ▸ ⟨hmem, hnext⟩
  | page hphase hrest hfull hpaged =>
    have hsame : Chain config { s with replayed := s.events } := h.same rfl
    refine hsame.turn hkeys (list_after_page hsequenced hrest hfull) (fun first hfirst => ?_) hpaged
    obtain ⟨event, hmem, heq, hnext⟩ := hsends (event_to_envelope first)
      (by simpa [sends, hphase, hrest] using hfirst)
    rw [event_to_envelope_inj] at heq
    exact heq ▸ ⟨hmem, hnext⟩
  | taken hphase hqueue hdelivered =>
    cases hdelivered with
    | reset => exact h.same (by simp [bookmarks, State.sent, Frame.event?, finish])
    | unreadable | old => exact h.same rfl
    | @sent item _ hid hnew =>
      obtain ⟨event, hmem, rfl, hnext⟩ := hsends item (by simpa [sends, hphase, hqueue, hid] using hnew)
      cases hid
      exact h.send hkeys hmem hnew hnext rfl rfl rfl rfl (by simp [State.sent, Frame.event?])
    | @unencodable item _ hid hnew hencodes =>
      obtain ⟨event, -, rfl, -⟩ := hsends item (by simpa [sends, hphase, hqueue, hid] using hnew)
      cases hencodes

/-- What a client has received, its current stream included, begins like the log
above its origin. -/
theorem Chain.joined (h : Chain config s) (hsequenced : s.Sequenced) :
    ∃ events, s.received ++ s.sent = events.map event_to_envelope ∧
      events = between SessionEvent.position config.origin s.last_sent_id (s.log config) ∧
      events <+: after SessionEvent.position config.origin (s.log config) := by
  have hkeys := hsequenced.unique config
  refine ⟨_, ?_, rfl, between_prefix_after hkeys (Int.le_trans h.origin_le h.after_le)⟩
  rw [h.received, h.sent, ← List.map_append, between_append hkeys h.origin_le h.after_le]

/-- The route arrives at the same cursor for a client that sends the id of the last
event it received and repeats the `after_id` of its first stream. -/
theorem Chain.cursor_eq_resume (h : Chain config s) (horigin : 0 ≤ config.origin) :
    stream_events.cursor (s.received.getLast?.bind EventEnvelope.id) (some config.origin) =
      resume config.origin s.received := by
  cases hlast : (between SessionEvent.position config.origin s.after_id (s.log config)).getLast? with
  | none => simp [h.received, hlast, resume, stream_events.cursor, horigin]
  | some event =>
    have hbeyond := (mem_between.mp (List.mem_of_getLast? hlast)).2.1
    have hposition : config.origin ≤ event.id := Int.le_of_lt hbeyond
    simp [h.received, hlast, resume, stream_events.cursor, hposition]

end State

end session_manager.event_stream
