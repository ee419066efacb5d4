import SessionManager.Stream.Log

open transition cursor

namespace session_manager.event_stream.State

variable {config : Config} {s s' : State} {l : Label}

/-- What is left of a page: committed events above `last_sent_id`, in order, and
all of those the page was read from unless the page was a full one. -/
structure Page (config : Config) (s : State) (rest : List SessionEvent) (full : Bool) : Prop where
  listed : rest ⊆ s.log config
  sorted : (s.last_sent_id :: rest.map SessionEvent.position).Pairwise (· < ·)
  complete : full = false → ∀ e ∈ s.replayed, e.session_id = config.session_id →
    s.last_sent_id < e.id → e ∈ rest

/-- The page that `list_after` returns is a page as the replay wants it: sorted, above
the cursor, and complete unless it is a full one. -/
theorem list_after_page (hsequenced : s.Sequenced) {rest : List SessionEvent} {full : Bool}
    (hrest : EventRepository.list_after s.events config.session_id s.last_sent_id 1000 = rest)
    (hfull : decide (1000 ≤ rest.length) = full) :
    Page config { s with replayed := s.events } rest full := by
  rw [list_after_eq] at hrest
  have hmem : ∀ e ∈ rest, e ∈ s.log config ∧ s.last_sent_id < e.position := fun e he =>
    mem_after.mp (List.mem_of_mem_take (hrest ▸ he))
  constructor
  case listed => exact fun e he => (hmem e he).1
  case sorted =>
    refine List.pairwise_cons.mpr ⟨?_, ?_⟩
    · intro p hp
      obtain ⟨e, he, rfl⟩ := List.mem_map.mp hp
      exact (hmem e he).2
    · exact List.pairwise_map.mpr (hrest ▸ (after_strict (hsequenced.unique config)).take)
  case complete =>
    intro hshort e he hsession hlast
    have hlength : rest.length < 1000 := by simpa [← hfull] using hshort
    rw [← hrest, List.length_take] at hlength
    rw [← hrest, List.take_of_length_le (by omega)]
    exact mem_after.mpr ⟨mem_log.mpr ⟨he, hsession⟩, hlast⟩

/-- Where the replay of a stream stands. -/
structure Replaying (config : Config) (s : State) : Prop where
  listed : s.replayed ⊆ s.events
  page {rest : List SessionEvent} {full : Bool} (hphase : s.phase = .replay rest full) :
    Page config s rest full
  caught_up (hphase : s.phase = .live) {e : SessionEvent} (he : e ∈ s.replayed)
    (hsession : e.session_id = config.session_id) : e.id ≤ s.last_sent_id

/-- Before the first page nothing has been listed. -/
theorem Replaying.initial (origin : Int) : Replaying config (initial origin) where
  listed := List.Subset.refl _
  page hphase := by cases hphase
  caught_up hphase := by cases hphase

/-- A stream that is neither at a page nor live has nothing to show. -/
private theorem Replaying.idle (hlisted : s.replayed ⊆ s.events)
    (hpage : ∀ rest full, s.phase ≠ .replay rest full) (hlive : s.phase ≠ .live) :
    Replaying config s where
  listed := hlisted
  page hphase := absurd hphase (hpage _ _)
  caught_up hphase := absurd hphase hlive

/-- A step that neither reads a page nor sends anything. -/
private theorem Replaying.same (h : Replaying config s) (hevents : s.events ⊆ s'.events)
    (hsame : (s'.phase, s'.last_sent_id, s'.replayed) = (s.phase, s.last_sent_id, s.replayed)) :
    Replaying config s' := by
  obtain ⟨hphase, hlast, hreplayed⟩ : s'.phase = s.phase ∧ s'.last_sent_id = s.last_sent_id ∧
      s'.replayed = s.replayed := by simpa using hsame
  constructor
  case listed => exact fun e he => hevents (h.listed (hreplayed ▸ he))
  case caught_up =>
    intro hlive e he hsession
    rw [hlast]
    exact h.caught_up (hphase ▸ hlive) (hreplayed ▸ he) hsession
  case page =>
    intro rest full hrest
    have hpage := h.page (hphase ▸ hrest)
    constructor
    case listed =>
      intro e he
      obtain ⟨hmem, hsession⟩ := mem_log.mp (hpage.listed he)
      exact mem_log.mpr ⟨hevents hmem, hsession⟩
    case sorted => exact hlast ▸ hpage.sorted
    case complete =>
      rw [hlast, hreplayed]
      exact hpage.complete

/-- Turning a page to its next event, to the next page, or to the live loop. -/
private theorem Page.turn {rest : List SessionEvent} {full : Bool} {t : State}
    (h : Page config s rest full) (hlisted : s.replayed ⊆ s.events) (hpaged : Paged s rest full t) :
    Replaying config t := by
  cases hpaged with
  | @event event rest full =>
    obtain ⟨hlast, hsorted⟩ := List.pairwise_cons.mp h.sorted
    constructor
    case listed => exact hlisted
    case caught_up => exact fun hphase => by cases hphase
    case page =>
      rintro _ _ ⟨⟩
      constructor
      case listed => exact fun e he => h.listed (List.mem_cons_of_mem event he)
      case sorted => exact hsorted
      case complete =>
        intro hshort e he hsession hafter
        have hlater : event.position < e.position := hafter
        have hbefore := lt_trans (hlast event.position List.mem_cons_self) hlater
        refine (List.mem_cons.mp (h.complete hshort e he hsession hbefore)).resolve_left ?_
        rintro rfl
        exact lt_irrefl _ hlater
  | full => exact .idle hlisted (by simp) (by simp)
  | last =>
    constructor
    case listed => exact hlisted
    case page => exact fun hphase => by cases hphase
    case caught_up =>
      intro _ e he hsession
      by_contra hlater
      cases h.complete rfl e he hsession (Int.not_le.mp hlater)

/-- Every step keeps the page and what it was read from together; commits made meanwhile
change neither. -/
theorem Replaying.step (h : Replaying config s) (hsequenced : s.Sequenced)
    (hstep : s.step config l = some s') : Replaying config s' := by
  have hself := List.Subset.refl s.events
  cases stepped hstep with
  | commit => exact h.same (List.subset_append_left _ _) rfl
  | flush | rollback | publish | heartbeat => exact h.same hself rfl
  | pumped _ _ hpumped => cases hpumped <;> exact h.same hself rfl
  | next hphase hpaged => exact (h.page hphase).turn h.listed hpaged
  | page _ hrest hfull hpaged => exact (list_after_page hsequenced hrest hfull).turn hself hpaged
  | connect => exact .idle (List.nil_subset _) (by simp [stream_events]) (by simp [stream_events])
  | subscribed | retried | returned => exact .idle h.listed (by simp) (by simp)
  | unread | unsubscribed | left => exact .idle h.listed (by simp [finish]) (by simp [finish])
  | taken hphase _ hdelivered =>
    cases hdelivered with
    | reset | unreadable | unencodable => exact .idle h.listed (by simp [finish]) (by simp [finish])
    | old => exact h.same hself rfl
    | sent _ hnew =>
      constructor
      case listed => exact h.listed
      case page => exact fun hphase' => by cases hphase.symm.trans hphase'
      case caught_up =>
        intro _ e he hsession
        exact Int.le_of_lt (Int.lt_of_le_of_lt (h.caught_up hphase he hsession) hnew)

end session_manager.event_stream.State
