import SessionManager.Stream.Replay
import SessionManager.Stream.Pump

open transition cursor

namespace session_manager.event_stream

open broker

def Phase.reading : Phase → Bool
  | replay .. | live => true
  | subscribe | retry | list_after | reset | closed => false

def Item.event? : Item → Option SessionEvent
  | envelope (.of_event event) => some event
  | _ => none

namespace State

variable {config : Config} {s s' : State} {l : Label}

/-- The events of the session are appended one after another, each one committed and
published successfully before the next, and the subscription hands over, in order,
what is published once `subscribe` has returned. -/
def in_turn (config : Config) (s : State) : Label → Prop
  | .flush event => event.session_id = config.session_id →
    s.publishing = [] ∧ ∀ e ∈ s.appending, e.session_id ≠ config.session_id
  | .publish _ outcome => outcome ≠ .raised ∧ (s.phase.subscribed = true → outcome = .heard)
  | .get (.message (.object envelope)) => s.buffer.head?.map event_to_envelope = some envelope
  | _ => True

instance (config : Config) (s : State) : (l : Label) → Decidable (s.in_turn config l)
  | .flush _ => inferInstanceAs (Decidable (_ → _))
  | .publish .. => inferInstanceAs (Decidable (_ ∧ _))
  | .get (.message (.object _)) => inferInstanceAs (Decidable (_ = _))
  | .get .timeout | .get .lost | .get (.message .bytes) | .get (.message .malformed)
  | .get (.message .scalar) | .commit _ | .rollback _ | .stream_events _ | .subscribe _ | .anext
  | .list_after _ | .queue_get | .timeout | .aclose => isTrue trivial

/-- An event of the session that is inserted and not committed is the only one, and
comes after all those that are. -/
def OneAppend (config : Config) (s : State) : Prop :=
  ∀ event ∈ s.appending, event.session_id = config.session_id →
    s.publishing = [] ∧ (∀ e ∈ s.log config, e.id < event.id) ∧
    ∀ e ∈ s.appending.erase event, e.session_id ≠ config.session_id

/-- Nothing is being appended yet. -/
theorem OneAppend.initial (origin : Int) : OneAppend config (initial origin) :=
  fun _ hevent => by cases hevent

private theorem OneAppend.flush (h : OneAppend config s) (hsequenced : s.Sequenced)
    {event : SessionEvent} (hturn : s.in_turn config (.flush event))
    (hid : event.id = s.next_event_id) : OneAppend config (s.flush event) := by
  intro e he hsession
  by_cases hown : event.session_id = config.session_id
  · obtain ⟨hpublished, hothers⟩ := hturn hown
    have hnew : event ∉ s.appending := fun hmem => hothers event hmem hown
    obtain rfl : e = event := by
      have hmem : e ∈ s.appending ∨ e = event := by simpa [State.flush] using he
      exact hmem.resolve_left fun hmem => hothers e hmem hsession
    refine ⟨hpublished, fun e' he' => ?_, ?_⟩
    · exact hid ▸ hsequenced.below (List.mem_append_left _ (mem_log.mp he').1)
    · simpa [State.flush, List.erase_append_right _ hnew] using hothers
  · have hmem : e ∈ s.appending := by
      have hmem : e ∈ s.appending ∨ e = event := by simpa [State.flush] using he
      exact hmem.resolve_right fun heq => hown (heq ▸ hsession)
    obtain ⟨hpublished, hlast, hothers⟩ := h e hmem hsession
    refine ⟨hpublished, hlast, fun e' he' => ?_⟩
    rw [State.flush, List.erase_append_left _ hmem, List.mem_append, List.mem_singleton] at he'
    rcases he' with he' | rfl
    · exact hothers e' he'
    · exact hown

/-- An event that leaves the others alone. -/
private theorem OneAppend.erase (h : OneAppend config s) {event : SessionEvent}
    (happending : s'.appending = s.appending.erase event) (hpublishing : s'.publishing = s.publishing)
    (hlog : s'.log config = s.log config) : OneAppend config s' := by
  intro e he hsession
  rw [happending] at he
  obtain ⟨hpublished, hlast, hothers⟩ := h e (List.mem_of_mem_erase he) hsession
  refine ⟨hpublishing ▸ hpublished, hlog ▸ hlast, fun e' he' => hothers e' ?_⟩
  rw [happending, List.erase_comm] at he'
  exact List.mem_of_mem_erase he'

private theorem OneAppend.commit (h : OneAppend config s) {event : SessionEvent}
    (hevent : event ∈ s.appending) : OneAppend config (s.commit config event) := by
  by_cases hown : event.session_id = config.session_id
  · obtain ⟨-, -, hothers⟩ := h event hevent hown
    exact fun e he hsession => absurd hsession (hothers e he)
  · exact h.erase rfl (by simp [State.commit, hown]) (commit_log_of_ne hown)

private theorem OneAppend.same (h : OneAppend config s)
    (hsame : (s'.appending, s'.publishing, s'.events) = (s.appending, s.publishing, s.events)) :
    OneAppend config s' := by
  obtain ⟨happending, hpublishing, hevents⟩ : s'.appending = s.appending ∧
      s'.publishing = s.publishing ∧ s'.events = s.events := by simpa using hsame
  unfold OneAppend log
  rw [happending, hpublishing, hevents]
  exact h

/-- Steps in turn keep at most one append of the session under way: a flush waits until
the last one is committed and published. -/
theorem OneAppend.step (h : OneAppend config s) (hsequenced : s.Sequenced)
    (hturn : s.in_turn config l) (hstep : s.step config l = some s') : OneAppend config s' := by
  cases stepped hstep with
  | flush hid => exact h.flush hsequenced hturn hid
  | commit hevent => exact h.commit hevent
  | rollback => exact h.erase rfl rfl rfl
  | publish hevent =>
    intro e he hsession
    rw [(h e he hsession).1] at hevent
    cases hevent
  | next _ hpaged | page _ _ _ hpaged => cases hpaged <;> exact h.same rfl
  | pumped _ _ hpumped => cases hpumped <;> exact h.same rfl
  | taken _ _ hdelivered => cases hdelivered <;> exact h.same rfl
  | _ => exact h.same rfl

/-- The events on their way to the live loop. -/
def pending (s : State) : List SessionEvent :=
  s.live_queue.filterMap Item.event? ++ s.buffer ++ s.publishing

/-- Nothing in the queue tells of an overflow. -/
def clear (s : State) : Prop := ∀ item ∈ s.live_queue, item.is_overflow = false

/-- What is on its way are committed events in order, a page is where the log goes
on, and an event that neither the last page read can hold nor the stream has sent
is on its way. -/
structure InOrder (config : Config) (s : State) : Prop where
  genuine : ∀ item ∈ s.live_queue, item.is_overflow = false →
    ∃ event, item = .envelope (event_to_envelope event)
  listed : s.pending ⊆ s.log config
  sorted : s.pending.Pairwise fun e e' => e.position < e'.position
  single : s.publishing.length ≤ 1
  page {rest : List SessionEvent} {full : Bool} (hphase : s.phase = .replay rest full) :
    rest <+: after SessionEvent.position s.last_sent_id (s.log config)
  tracked (hreading : s.phase.reading = true) (hclear : s.clear) {e : SessionEvent}
    (he : e ∈ s.log config) (hlate : e ∉ s.replayed) (hunsent : s.last_sent_id < e.id) :
    e ∈ s.pending

/-- Nothing has been sent yet. -/
theorem InOrder.initial (origin : Int) : InOrder config (initial origin) where
  genuine _ hitem := by cases hitem
  listed := List.nil_subset _
  sorted := .nil
  single := Nat.zero_le 1
  page hphase := by cases hphase
  tracked hreading := by cases hreading

section Steps

private theorem pending_sublist (hqueue : s'.live_queue.Sublist s.live_queue)
    (hbuffer : s'.buffer.Sublist s.buffer) (hpublishing : s'.publishing.Sublist s.publishing) :
    s'.pending.Sublist s.pending :=
  ((hqueue.filterMap _).append hbuffer).append hpublishing

/-- Losing some of what is on its way keeps the rest in order. -/
private theorem InOrder.fewer (h : InOrder config s) (hlog : s'.log config = s.log config)
    (hqueue : ∀ item ∈ s'.live_queue, item.is_overflow = false → item ∈ s.live_queue)
    (hpending : s'.pending.Sublist s.pending) (hpublishing : s'.publishing.length ≤ s.publishing.length)
    (hpage : ∀ {rest full}, s'.phase = .replay rest full →
      rest <+: after SessionEvent.position s'.last_sent_id (s.log config))
    (htracked : s'.phase.reading = true → s'.clear → ∀ e ∈ s.log config, e ∉ s'.replayed →
      s'.last_sent_id < e.id → e ∈ s'.pending) : InOrder config s' where
  genuine item hitem hclear := h.genuine item (hqueue item hitem hclear) hclear
  listed := hlog ▸ fun _ he => h.listed (hpending.subset he)
  sorted := h.sorted.sublist hpending
  single := Nat.le_trans hpublishing h.single
  page hphase := hlog ▸ hpage hphase
  tracked hreading hclear e he := htracked hreading hclear e (hlog ▸ he)

/-- A step of a stream that is reading neither a page nor its queue. -/
private theorem InOrder.idle (h : InOrder config s) (hreading : s'.phase.reading = false)
    (hevents : s'.events = s.events) (hqueue : s'.live_queue.Sublist s.live_queue)
    (hbuffer : s'.buffer.Sublist s.buffer) (hpublishing : s'.publishing.Sublist s.publishing) :
    InOrder config s' := by
  refine h.fewer (by rw [log, log, hevents]) (fun item hitem _ => hqueue.subset hitem)
    (pending_sublist hqueue hbuffer hpublishing) hpublishing.length_le ?_ ?_
  · intro rest full hphase
    rw [hphase] at hreading
    cases hreading
  · intro htrue
    rw [hreading] at htrue
    cases htrue

/-- What `InOrder` reads. -/
private def traffic (s : State) :=
  (s.events, s.live_queue, s.buffer, s.publishing, s.phase, s.last_sent_id, s.replayed)

private theorem InOrder.same (h : InOrder config s) (hsame : s'.traffic = s.traffic) :
    InOrder config s' := by
  obtain ⟨hevents, hqueue, hbuffer, hpublishing, hphase, hlast, hreplayed⟩ :
      s'.events = s.events ∧ s'.live_queue = s.live_queue ∧ s'.buffer = s.buffer ∧
      s'.publishing = s.publishing ∧ s'.phase = s.phase ∧ s'.last_sent_id = s.last_sent_id ∧
      s'.replayed = s.replayed := by simpa [traffic] using hsame
  have hpending : s'.pending = s.pending := by rw [pending, hqueue, hbuffer, hpublishing, pending]
  refine h.fewer (by rw [log, log, hevents]) (fun item hitem _ => hqueue ▸ hitem)
    (hpending ▸ List.Sublist.refl _) (by rw [hpublishing]) ?_ ?_
  · intro rest full hrest
    rw [hlast]
    exact h.page (hphase ▸ hrest)
  · rw [hphase, clear, hqueue, hlast, hreplayed, hpending]
    exact fun hreading hclear e he => h.tracked hreading hclear he

private theorem InOrder.commit (h : InOrder config s) (hone : OneAppend config s)
    {event : SessionEvent} (hevent : event ∈ s.appending) :
    InOrder config (s.commit config event) := by
  by_cases hsession : event.session_id = config.session_id
  · obtain ⟨hnone, hlast, -⟩ := hone event hevent hsession
    have hlog := commit_log (s := s) hsession
    have hpending : (s.commit config event).pending = s.pending ++ [event] := by
      simp [pending, State.commit, hsession]
    have hlast : ∀ e ∈ s.log config, e.position < event.position := fun e he =>
      Int.ofNat_lt.mpr (hlast e he)
    constructor
    case genuine => exact h.genuine
    case listed =>
      rw [hlog, hpending]
      exact List.append_subset.mpr ⟨fun e he => List.mem_append_left _ (h.listed he), by simp⟩
    case sorted =>
      rw [hpending]
      refine List.pairwise_append.mpr ⟨h.sorted, List.pairwise_singleton _ _, fun e he e' he' => ?_⟩
      rw [List.mem_singleton.mp he']
      exact hlast e (h.listed he)
    case single => simp [State.commit, hsession, hnone]
    case page =>
      intro rest full hphase
      rw [hlog]
      exact (h.page hphase).trans (after_append fun e he => Int.le_of_lt (hlast e he))
    case tracked =>
      intro hreading hclear e he hlate hunsent
      rw [hlog] at he
      rw [hpending]
      rcases List.mem_append.mp he with he | he
      · exact List.mem_append_left _ (h.tracked hreading hclear he hlate hunsent)
      · exact List.mem_append_right _ he
  · have hlog := commit_log_of_ne (s := s) hsession
    have hpending : (s.commit config event).pending = s.pending := by
      simp [pending, State.commit, hsession]
    exact h.fewer hlog (fun item hitem _ => hitem) (hpending ▸ List.Sublist.refl _)
      (by simp [State.commit, hsession]) h.page
      (fun hreading hclear e he hlate hunsent => hpending ▸ h.tracked hreading hclear he hlate hunsent)

private theorem InOrder.publish (h : InOrder config s) {event : SessionEvent} {outcome : Publish}
    (hevent : event ∈ s.publishing) (hturn : s.in_turn config (.publish event outcome)) :
    InOrder config (s.publish event outcome) := by
  obtain ⟨e, hone⟩ : ∃ e, s.publishing = [e] := by
    have hlength := Nat.le_antisymm h.single (List.length_pos_of_mem hevent)
    exact List.length_eq_one_iff.mp hlength
  obtain rfl : event = e := by simpa [hone] using hevent
  have hsublist : (s.publish event outcome).pending.Sublist s.pending := by
    by_cases hheard : outcome = .heard ∧ s.phase.ended = false <;>
      simp [pending, State.publish, hone, hheard]
  refine h.fewer rfl (fun item hitem _ => hitem) hsublist (by simp [State.publish, hone]) h.page ?_
  intro hreading hclear e he hlate hunsent
  have hheard : outcome = .heard ∧ s.phase.ended = false := by
    have hphase : s.phase.subscribed = true ∧ s.phase.ended = false := by
      revert hreading
      change s.phase.reading = true → _
      cases s.phase <;> simp [Phase.reading, Phase.subscribed, Phase.ended]
    exact ⟨hturn.2 hphase.1, hphase.2⟩
  have hpending : (s.publish event outcome).pending = s.pending := by
    simp [pending, State.publish, hone, hheard]
  exact hpending ▸ h.tracked hreading hclear he hlate hunsent

private theorem InOrder.turn (h : InOrder config s)
    (hkeys : ((s.log config).map SessionEvent.position).Nodup) {rest : List SessionEvent}
    {full : Bool} (hrest : rest <+: after SessionEvent.position s.last_sent_id (s.log config))
    (htracked : s.clear → ∀ e ∈ s.log config, e ∉ s.replayed → s.last_sent_id < e.id → e ∈ s.pending)
    (hpaged : Paged s rest full s') : InOrder config s' := by
  cases hpaged with
  | event =>
    obtain ⟨hnew, hrest⟩ := begins_after_cons hkeys hrest
    refine h.fewer rfl (fun item hitem _ => hitem) (List.Sublist.refl _) (Nat.le_refl _) ?_ ?_
    · rintro _ _ ⟨⟩
      exact hrest
    · exact fun _ hclear e he hlate hunsent => htracked hclear e he hlate (Int.lt_trans hnew hunsent)
  | full =>
    exact h.idle rfl rfl (List.Sublist.refl _) (List.Sublist.refl _) (List.Sublist.refl _)
  | last =>
    refine h.fewer rfl (fun item hitem _ => hitem) (List.Sublist.refl _) (Nat.le_refl _) ?_ ?_
    · rintro _ _ ⟨⟩
    · exact fun _ => htracked

private theorem hand_over_turn {answer : Answer} (hturn : s.in_turn config (.get answer)) :
    (∃ event, answer = .message (.object (event_to_envelope event)) ∧
      s.buffer = event :: hand_over answer s.buffer) ∨
    (∀ envelope, answer ≠ .message (.object envelope)) ∧ hand_over answer s.buffer = s.buffer := by
  by_cases hobject : ∃ envelope, answer = .message (.object envelope)
  · obtain ⟨envelope, rfl⟩ := hobject
    obtain ⟨event, hhead, rfl⟩ := Option.map_eq_some_iff.mp hturn
    obtain ⟨rest, hbuffer⟩ := List.head?_eq_some_iff.mp hhead
    exact .inl ⟨event, rfl, by simp [hand_over, hbuffer]⟩
  · have hobject := not_exists.mp hobject
    refine .inr ⟨hobject, ?_⟩
    cases hbuffer : s.buffer with
    | nil => rfl
    | cons event rest => simp [hand_over, hobject (event_to_envelope event)]

private theorem InOrder.pump (h : InOrder config s) (hlive : s.phase = .live) {answer : Answer}
    {result : Except broker.Error (Option EventEnvelope)} (hturn : s.in_turn config (.get answer))
    (hresult : RedisEventSubscription.get answer = result)
    (hpumped : Pumped config { s with buffer := hand_over answer s.buffer } result s') :
    InOrder config s' := by
  have hpage : ∀ {rest full}, s.phase ≠ .replay rest full := by simp [hlive]
  rcases hand_over_turn hturn with ⟨event, rfl, hbuffer⟩ | ⟨hobject, hbuffer⟩
  · subst hresult
    generalize hand_over _ s.buffer = rest at hbuffer hpumped
    have hsublist : rest.Sublist s.buffer := hbuffer ▸ List.sublist_cons_self _ _
    cases hpumped with
    | overflow =>
      refine h.fewer rfl (fun item hitem hclear => ?_) ?_ (Nat.le_refl _)
        (fun hphase => absurd hphase hpage) ?_
      · obtain rfl := List.mem_singleton.mp hitem
        cases hclear
      · exact ((List.nil_sublist _).append hsublist).append (List.Sublist.refl _)
      · intro _ hclear
        cases hclear _ List.mem_cons_self
    | put =>
      have hpending :
          State.pending
            { s with
              buffer := rest
              live_queue := s.live_queue ++ [.envelope (event_to_envelope event)] } = s.pending := by
        simp [pending, hbuffer, Item.event?, event_to_envelope]
      constructor
      case genuine =>
        intro item hitem hclear
        rcases List.mem_append.mp hitem with hitem | hitem
        · exact h.genuine item hitem hclear
        · exact ⟨event, List.mem_singleton.mp hitem⟩
      case listed => exact hpending ▸ h.listed
      case sorted => exact hpending ▸ h.sorted
      case single => exact h.single
      case page => exact fun hphase => absurd hphase hpage
      case tracked =>
        intro hreading hclear e he hlate hunsent
        rw [hpending]
        exact h.tracked hreading (fun item hitem => hclear item (List.mem_append_left _ hitem)) he hlate
          hunsent
  · rw [hbuffer] at hpumped
    cases hpumped with
    | raised | nothing => exact h.same rfl
    | overflow | put => exact absurd (RedisEventSubscription.get_envelope hresult) (hobject _)

private theorem InOrder.take (h : InOrder config s) (hlive : s.phase = .live) {item : Item}
    {queue : List Item} (hqueue : s.live_queue = item :: queue)
    (hdelivered : Delivered { s with live_queue := queue } item s') : InOrder config s' := by
  have hsublist : queue.Sublist s.live_queue := hqueue ▸ List.sublist_cons_self _ _
  have hpage : ∀ {rest full}, s.phase ≠ .replay rest full := by simp [hlive]
  have hidle {t : State} (hreading : t.phase.reading = false) (hevents : t.events = s.events)
      (hqueue : t.live_queue = queue) (hbuffer : t.buffer = [])
      (hpublishing : t.publishing = s.publishing) : InOrder config t :=
    h.idle hreading hevents (hqueue ▸ hsublist) (hbuffer ▸ List.nil_sublist _)
      (hpublishing ▸ List.Sublist.refl _)
  -- An envelope that leaves the queue is not above the new `last_sent_id`.
  have hkept {t : State} {envelope : EventEnvelope} {event_id : Int}
      (hitem : item = .envelope envelope) (hid : envelope.id = some event_id)
      (hreached : event_id ≤ t.last_sent_id) (hle : s.last_sent_id ≤ t.last_sent_id)
      (hevents : t.events = s.events) (hqueue' : t.live_queue = queue) (hbuffer : t.buffer = s.buffer)
      (hpublishing : t.publishing = s.publishing) (hphase : t.phase = s.phase)
      (hreplayed : t.replayed = s.replayed) : InOrder config t := by
    subst hitem
    obtain ⟨event, hgenuine⟩ := h.genuine _ (hqueue ▸ List.mem_cons_self) rfl
    cases hgenuine
    cases hid
    have hpending : s.pending = event :: t.pending := by
      simp [pending, hqueue, hqueue', hbuffer, hpublishing, Item.event?, event_to_envelope]
    refine h.fewer (by rw [log, log, hevents]) (fun item hmem _ => hsublist.subset (hqueue' ▸ hmem))
      (hpending ▸ List.sublist_cons_self _ _) (by rw [hpublishing])
      (fun hrest => absurd (hphase ▸ hrest) hpage) ?_
    intro hreading hclear e he hlate hunsent
    have hclear' : s.clear := by
      intro item hmem
      rw [hqueue, List.mem_cons] at hmem
      rcases hmem with rfl | hmem
      · rfl
      · exact hclear item (hqueue' ▸ hmem)
    have hunsent' := Int.lt_of_le_of_lt hle hunsent
    have hmem := h.tracked (hphase ▸ hreading) hclear' he (hreplayed ▸ hlate) hunsent'
    rw [hpending] at hmem
    refine (List.mem_cons.mp hmem).resolve_left ?_
    rintro rfl
    exact Int.not_le.mpr hunsent hreached
  cases hdelivered with
  | reset | unreadable | unencodable => exact hidle rfl rfl rfl rfl rfl
  | old hid hold => exact hkept rfl hid hold (Int.le_refl _) rfl rfl rfl rfl rfl rfl
  | sent hid hnew =>
    exact hkept rfl hid (Int.le_refl _) (Int.le_of_lt hnew) rfl rfl rfl rfl rfl rfl

/-- Every step in turn keeps what is on its way in the order of the log, and loses track
of no event. The cases follow `Stepped`. -/
theorem InOrder.step (h : InOrder config s) (hsequenced : s.Sequenced) (hone : OneAppend config s)
    (hpumping : s.Pumping) (hturn : s.in_turn config l) (hstep : s.step config l = some s') : InOrder config s' := by
  have hself {α : Type} (l : List α) : l.Sublist l := List.Sublist.refl l
  cases stepped hstep with
  | commit hevent => exact h.commit hone hevent
  | publish hevent => exact h.publish hevent hturn
  | connect => exact h.idle rfl rfl (List.nil_sublist _) (List.nil_sublist _) (hself _)
  | subscribed | retried | returned => exact h.idle rfl rfl (hself _) (hself _) (hself _)
  | unsubscribed | unread | left => exact h.idle rfl rfl (hself _) (List.nil_sublist _) (hself _)
  | flush | rollback | heartbeat => exact h.same rfl
  | next hphase hpaged =>
    refine h.turn (hsequenced.unique config) (h.page hphase) ?_ hpaged
    exact fun hclear e he => h.tracked (by simp [hphase, Phase.reading]) hclear he
  | page hphase hrest _ hpaged =>
    have hsame : InOrder config { s with replayed := s.events } :=
      h.fewer rfl (fun item hitem _ => hitem) (hself _) (Nat.le_refl _)
        (fun h => by cases hphase.symm.trans h) (fun h => by rw [hphase] at h; cases h)
    refine hsame.turn (hsequenced.unique config) ?_ ?_ hpaged
    · rw [← hrest, list_after_eq]
      exact List.take_prefix _ _
    · exact fun _ e he hlate => absurd (mem_log.mp he).1 hlate
  | pumped hpump hresult hpumped => exact h.pump (hpumping.running hpump) hturn hresult hpumped
  | taken hphase hqueue hdelivered => exact h.take hphase hqueue hdelivered

end Steps

end State

end session_manager.event_stream
