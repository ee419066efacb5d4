import SessionManager.Stream.Chain

open transition cursor

namespace session_manager.event_stream.State

variable {config : Config} {s s' : State} {l : Label}

/-- What a run of gapless steps keeps: ids in sequence, the replay in step with its
pages, and the chain of streams without a gap. -/
theorem chain_of_run (hrun : Run (State.step config) (gapless config) (initial config.origin) s) :
    s.Sequenced ∧ Replaying config s ∧ Chain config s := by
  refine hrun.invariant (I := fun s => s.Sequenced ∧ Replaying config s ∧ Chain config s) ?_
    ⟨.initial _, .initial _, .initial⟩
  rintro s l t ⟨hsequenced, hreplaying, hchain⟩ hgapless hstep
  exact ⟨hsequenced.step hstep, hreplaying.step hsequenced hstep,
    hchain.step hsequenced hreplaying hgapless hstep⟩

/-- Once the replay of a stream is over, the client has every event of the session
that was committed when its last page was read, whatever publishes failed, as
long as no event was sent that passed over a committed one. -/
theorem replay_completes (hrun : Run (State.step config) (gapless config) (initial config.origin) s)
    (hlive : s.phase = .live) {event : SessionEvent} (hevent : event ∈ s.replayed)
    (hsession : event.session_id = config.session_id) (horigin : config.origin < event.id) :
    event_to_envelope event ∈ s.received ++ s.sent := by
  obtain ⟨hsequenced, hreplaying, hchain⟩ := chain_of_run hrun
  obtain ⟨events, hjoined, rfl, -⟩ := hchain.joined hsequenced
  rw [hjoined]
  refine List.mem_map_of_mem (mem_between.mpr ⟨?_, horigin, hreplaying.caught_up hlive hevent hsession⟩)
  exact mem_log.mpr ⟨hreplaying.listed hevent, hsession⟩

/-- An event whose publish failed while nobody listened is received by replay. -/
theorem replay_completes_failed_publish :
    let config : Config := ⟨7, 100, 0⟩
    let event : SessionEvent := ⟨1, 7, none, .SESSION_STATUS, []⟩
    ∃ s, Run (State.step config) (gapless config) (initial 0) s ∧
      event_to_envelope event ∈ s.received ++ s.sent := by
  intro config event
  obtain ⟨s, hrun, hlive, hevent⟩ : ∃ s, Run (State.step config) (gapless config) (initial 0) s ∧
      s.phase = .live ∧ event ∈ s.replayed :=
    Run.exists_of_execIf [.flush event, .commit event, .publish event .raised, .stream_events 0, .subscribe true,
      .anext, .list_after true, .anext] _ (by decide)
  exact ⟨s, hrun, replay_completes hrun hlive hevent rfl (by decide)⟩

/-- The publish of event 1 fails, and event 2 is delivered live. The client comes
back with Last-Event-ID 2, and event 1 is never replayed. -/
theorem failed_publish_lost :
    let event (id : EventId) : SessionEvent := ⟨id, 7, none, .SESSION_STATUS, []⟩
    ∃ s : State, Run (State.step ⟨7, 100, 0⟩) (fun _ _ => True) (initial 0) s ∧ s.phase = .live ∧
      event 1 ∈ s.replayed ∧ s.received ++ s.sent = [event_to_envelope (event 2)] := by
  intro event
  exact Run.exists_of_exec (fun _ _ => trivial) [.stream_events 0, .subscribe true, .anext,
    .list_after true, .flush (event 1), .commit (event 1), .publish (event 1) .raised, .flush (event 2),
    .commit (event 2), .publish (event 2) .heard, .get (.message (.object (event_to_envelope (event 2)))), .queue_get,
    .aclose, .stream_events 2, .subscribe true, .anext, .list_after true] _ (by decide)

end session_manager.event_stream.State
