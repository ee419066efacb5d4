import SessionManager.Stream.Pump

open transition

namespace session_manager.event_stream

open broker

/-- What `subscription.get` does in a step of the pump. -/
def Label.answer : Label → Option Answer
  | get answer => some answer
  | _ => none

namespace State

/-- `subscription.get` does not raise in the step. -/
def fed (_ : State) (l : Label) : Prop := ∀ answer ∈ l.answer, answer.raises = false

instance (s : State) (l : Label) : Decidable (s.fed l) := inferInstanceAs (Decidable (∀ _ ∈ _, _))

/-- The marker of an overflow waits in the queue. -/
def overflowed (s : State) : Prop := ∃ marker, .overflow marker ∈ s.live_queue

variable {config : Config} {s s' : State} {l : Label}

private theorem watched_step (hpumping : s.Pumping) (hfed : s.fed l)
    (hstep : s.step config l = some s') (h : s.phase = .live → s.pump = .running ∨ s.overflowed)
    (hlive : s'.phase = .live) : s'.pump = .running ∨ s'.overflowed := by
  cases stepped hstep with
  | flush | commit | rollback | publish | heartbeat => exact h hlive
  | connect | subscribed | unsubscribed | retried | returned | unread | left => cases hlive
  | next _ hpaged | page _ _ _ hpaged =>
    cases hpaged with
    | event | full => cases hlive
    | last => exact .inl rfl
  | @pumped answer _ _ hpump hresult hpumped =>
    cases hpumped with
    | raised =>
      have hraises := RedisEventSubscription.get_error_iff.mp ⟨_, hresult⟩
      rw [hfed answer rfl] at hraises
      cases hraises
    | nothing | put => exact .inl hpump
    | overflow => exact .inr ⟨{}, List.mem_cons_self⟩
  | taken hphase hqueue hdelivered =>
    cases hdelivered with
    | reset | unreadable | unencodable => cases hlive
    | old | sent =>
      rcases h hphase with hrunning | ⟨marker, hmarker⟩
      · exact .inl hrunning
      · cases hqueue.symm.trans (hpumping.overflow hmarker).1

/-- An exception of `subscription.get` goes unnoticed by the stream: the pump is gone,
and the stream stays live with no marker. -/
theorem raised_pump_unnoticed (hpumping : s.Pumping) {answer : Answer} (hraises : answer.raises = true)
    (hstep : s.step config (.get answer) = some s') :
    s'.pump = .raised ∧ s'.phase = .live ∧ ¬ s'.overflowed := by
  obtain ⟨error, herror⟩ := RedisEventSubscription.get_error_iff.mpr hraises
  cases stepped hstep with
  | pumped hpump hresult hpumped =>
    rw [herror] at hresult
    subst hresult
    cases hpumped with
    | raised =>
      have hclear : ¬ s.overflowed := fun ⟨_, hmarker⟩ => (hpumping.overflow hmarker).2 hpump
      exact ⟨rfl, hpumping.running hpump, hclear⟩

/-- As long as `subscription.get` does not raise, a pump that has stopped leaves
an ended stream or the marker of an overflow behind, and no heartbeat is sent
without one of the pump and the marker. -/
theorem stopped_pump_noticed (hrun : Run (State.step config) fed (initial config.origin) s) :
    (s.pump.stopped = true → s.phase.ended = true ∨ s.overflowed) ∧
    ∀ s', s.step config .timeout = some s' → s.pump = .running ∨ s.overflowed := by
  obtain ⟨hpumping, hwatched⟩ := hrun.invariant
    (I := fun s : State => s.Pumping ∧ (s.phase = .live → s.pump = .running ∨ s.overflowed))
    (fun _ _ _ h hfed hstep => ⟨h.1.step hstep, watched_step h.1 hfed hstep h.2⟩)
    ⟨.initial _, fun hlive => by cases hlive⟩
  constructor
  · intro hstopped
    by_contra hnot
    obtain ⟨hended, hclear⟩ := not_or.mp hnot
    by_cases hlive : s.phase = .live
    · have hrunning := (hwatched hlive).resolve_right hclear
      rw [hrunning] at hstopped
      cases hstopped
    · have hidle := (hpumping.waiting (Bool.eq_false_iff.mpr hended) hlive).2
      rw [hidle] at hstopped
      cases hstopped
  · intro s' hstep
    cases stepped hstep with
    | heartbeat hlive => exact hwatched hlive

/-- A slow client: the pump meets a full queue and stops, and the marker waits. -/
theorem stopped_pump_noticed_overflow :
    ∃ s : State, s.pump.stopped = true ∧ s.phase.ended = false ∧ s.overflowed := by
  let item : Answer := .message (.object (.foreign (some 1) true))
  obtain ⟨s, hrun, hpump, hlive⟩ : ∃ s, Run (State.step ⟨7, 1, 0⟩) fed (initial 0) s ∧
      s.pump.stopped = true ∧ s.phase.ended = false :=
    Run.exists_of_execIf [.stream_events 0, .subscribe true, .anext, .list_after true, .get item,
      .get item] _ (by decide)
  have hnoticed := (stopped_pump_noticed hrun).1 hpump
  exact ⟨s, hpump, hlive, hnoticed.resolve_left (by simp [hlive])⟩

/-- The connection is lost: the pump has ended with an exception, and the stream
goes on with its heartbeats. -/
theorem lost_pump_unnoticed : ∃ s : State,
    Run (State.step ⟨7, 100, 0⟩) (fun _ _ => True) (initial 0) s ∧
    s.pump = .raised ∧ s.phase = .live ∧ s.live_queue = [] ∧
    s.frames = [.retry, .heartbeat, .heartbeat] :=
  Run.exists_of_exec (fun _ _ => trivial) [.stream_events 0, .subscribe true, .anext, .list_after true,
    .get .lost, .timeout, .timeout] _ (by decide)

end State

end session_manager.event_stream
