import SessionManager.Stream.Steps

open transition cursor

namespace session_manager

/-- The position of an event in the log. -/
abbrev SessionEvent.position (event : SessionEvent) : Int := event.id

namespace event_stream.State

variable {config : Config} {s s' : State} {l : Label}

/-- The events of the session that are committed. -/
def log (config : Config) (s : State) : List SessionEvent :=
  s.events.filter fun event => event.session_id = config.session_id

/-- The log of the stream's session holds the committed events of that session and no
others. -/
theorem mem_log {event : SessionEvent} :
    event ∈ s.log config ↔ event ∈ s.events ∧ event.session_id = config.session_id := by
  simp [log]

/-- Committing an event of the session appends it to the log, behind all events that
were committed before. -/
theorem commit_log {event : SessionEvent} (hsession : event.session_id = config.session_id) :
    (s.commit config event).log config = s.log config ++ [event] := by
  simp [log, commit, hsession]

/-- Committing an event of another session leaves the log as it is, although the two
share one sequence of ids. -/
theorem commit_log_of_ne {event : SessionEvent} (hsession : event.session_id ≠ config.session_id) :
    (s.commit config event).log config = s.log config := by
  simp [log, commit, hsession]

/-- `list_after` reads on from a cursor: it is the first part of what comes after it in
the log. -/
theorem list_after_eq (events : List SessionEvent) (session_id : SessionId) (after_id : Int)
    (limit : Nat) :
    EventRepository.list_after events session_id after_id limit =
      (after SessionEvent.position after_id
        (events.filter fun event => event.session_id = session_id)).take limit := by
  have hfilter : (events.filter fun event => event.session_id = session_id ∧ after_id < event.id) =
      (events.filter fun event => event.session_id = session_id).filter
        fun event => after_id < event.id := by
    rw [List.filter_filter]
    exact List.filter_congr fun event _ => by rw [Bool.decide_and, Bool.and_comm]
  rw [EventRepository.list_after, hfilter, after, ← ordered_filter]
  rfl

/-- The ids of the events inserted so far, committed or not, are distinct and come
from the sequence. -/
structure Sequenced (s : State) : Prop where
  distinct : ((s.events ++ s.appending).map SessionEvent.id).Nodup
  below {event : SessionEvent} (hevent : event ∈ s.events ++ s.appending) :
    event.id < s.next_event_id

/-- No event is committed yet. -/
theorem Sequenced.initial (origin : Int) : Sequenced (initial origin) where
  distinct := List.nodup_nil
  below hevent := by cases hevent

/-- No event of the session is committed twice, so the log can be ordered strictly by
ids. -/
theorem Sequenced.unique (h : s.Sequenced) (config : Config) :
    ((s.log config).map SessionEvent.position).Nodup := by
  have hlog : (s.log config).Sublist (s.events ++ s.appending) :=
    List.filter_sublist.trans (List.sublist_append_left _ _)
  have hids := h.distinct.sublist (hlog.map _)
  have hpositions := hids.map (f := Int.ofNat) fun _ _ => Int.ofNat.inj
  rwa [List.map_map] at hpositions

private theorem Sequenced.flush (h : s.Sequenced) {event : SessionEvent}
    (hid : event.id = s.next_event_id) : (s.flush event).Sequenced := by
  have hfresh : ∀ e ∈ s.events ++ s.appending, e.id < event.id := fun e he => hid ▸ h.below he
  constructor
  case distinct =>
    rw [State.flush, ← List.append_assoc, List.map_append, List.nodup_append]
    refine ⟨h.distinct, List.nodup_singleton _, fun id hid' id' hid'' => ?_⟩
    obtain ⟨e, he, rfl⟩ := List.mem_map.mp hid'
    obtain rfl := List.mem_singleton.mp hid''
    exact Nat.ne_of_lt (hfresh e he)
  case below =>
    intro e he
    rw [State.flush, ← List.append_assoc, List.mem_append, List.mem_singleton] at he
    rcases he with he | rfl
    · exact Nat.lt_succ_of_lt (h.below he)
    · exact hid ▸ Nat.lt_succ_self _

private theorem Sequenced.commit (h : s.Sequenced) {event : SessionEvent}
    (hevent : event ∈ s.appending) : (s.commit config event).Sequenced := by
  have hperm : ((s.commit config event).events ++ (s.commit config event).appending).Perm
      (s.events ++ s.appending) := by
    rw [State.commit, List.append_assoc]
    exact (List.perm_cons_erase hevent).symm.append_left s.events
  constructor
  case distinct => exact (hperm.map _).nodup_iff.mpr h.distinct
  case below => exact fun he => h.below (hperm.mem_iff.mp he)

private theorem Sequenced.same (h : s.Sequenced) (hid : s'.next_event_id = s.next_event_id)
    (hevents : (s'.events ++ s'.appending).Sublist (s.events ++ s.appending)) : s'.Sequenced where
  distinct := h.distinct.sublist (hevents.map _)
  below he := hid ▸ h.below (hevents.subset he)

/-- Ids come from the sequence alone: a flush takes a new one, and a commit or a
rollback moves an event without changing its id. -/
theorem Sequenced.step (h : s.Sequenced) (hstep : s.step config l = some s') : s'.Sequenced := by
  have hself := List.Sublist.refl (s.events ++ s.appending)
  cases stepped hstep with
  | flush hid => exact h.flush hid
  | commit hevent => exact h.commit hevent
  | rollback => exact h.same rfl (List.Sublist.append_left List.erase_sublist _)
  | next _ hpaged | page _ _ _ hpaged => cases hpaged <;> exact h.same rfl hself
  | pumped _ _ hpumped => cases hpumped <;> exact h.same rfl hself
  | taken _ _ hdelivered => cases hdelivered <;> exact h.same rfl hself
  | _ => exact h.same rfl hself

end event_stream.State

end session_manager
