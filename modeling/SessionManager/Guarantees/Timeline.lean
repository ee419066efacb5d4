import SessionManager.Dashboard.Feed

open transition cursor

namespace session_manager.dashboard

/-- The task neither loads a session nor reloads its history. -/
def Task.neutral : Task → Prop
  | .selectSession .. | .streamReset .. => False
  | _ => True

/-- The events of a session come in the order of their ids, which count from 1. -/
structure Numbered (log : List SessionEvent) : Prop where
  pos : ∀ event ∈ log, 0 < event.id
  sorted : ∀ sessionId, (chronicle log sessionId).Pairwise fun event event' => event.id < event'.id

/-- A new event is the last one of its session, as its id is the greatest one so far. -/
theorem Numbered.append {log : List SessionEvent} {event : SessionEvent} (h : Numbered log) (hpos : 0 < event.id)
    (hlast : ∀ earlier ∈ chronicle log event.session_id, earlier.id < event.id) : Numbered (log ++ [event]) where
  pos other hmem := by
    rcases List.mem_append.mp hmem with hmem | hmem
    · exact h.pos other hmem
    · rwa [List.mem_singleton.mp hmem]
  sorted sessionId := by
    rw [chronicle, List.filter_append, List.pairwise_append]
    refine ⟨h.sorted sessionId, ?_, ?_⟩
    · exact (List.pairwise_singleton _ event).sublist List.filter_sublist
    · intro earlier hearlier other hother
      obtain ⟨hother, hsession⟩ := List.mem_filter.mp hother
      obtain rfl := List.mem_singleton.mp hother
      obtain rfl : other.session_id = sessionId := of_decide_eq_true hsession
      exact hlast earlier hearlier

private theorem Numbered.nodup {log : List SessionEvent} (h : Numbered log) (sessionId : SessionId) :
    ((chronicle log sessionId).map SessionEvent.id).Nodup :=
  List.pairwise_map.mpr ((h.sorted sessionId).imp fun hlt => ne_of_lt hlt)

private theorem Numbered.pos_of_mem {log : List SessionEvent} (h : Numbered log) {sessionId : SessionId}
    {event : SessionEvent} (hmem : event ∈ chronicle log sessionId) : 0 < event.id :=
  h.pos event (List.mem_of_mem_filter hmem)

/-- Of an earlier log the history route answers with the beginning of what follows the
cursor. So an answer may be old, but has no gap. -/
theorem list_after_reads {earlier log : List SessionEvent} (h : Numbered log) (hearlier : earlier <+: log)
    (sessionId : SessionId) (after_id limit : Nat) :
    EventRepository.list_after earlier sessionId after_id limit <+:
      after SessionEvent.id after_id (chronicle log sessionId) := by
  have hstart : chronicle earlier sessionId <+: chronicle log sessionId := hearlier.filter _
  have hrows : (earlier.filter fun event => event.session_id = sessionId ∧ (after_id : Int) < event.id) =
      (chronicle earlier sessionId).filter fun event => after_id < event.id := by
    rw [chronicle, List.filter_filter]
    refine List.filter_congr fun event _ => ?_
    rw [Bool.decide_and, Bool.and_comm]
    simp
  have hstrict : ((chronicle earlier sessionId).filter fun event => after_id < event.id).Pairwise
      fun event event' => event.id < event'.id := ((h.sorted sessionId).sublist hstart.sublist).filter _
  have hsorted := hstrict.imp fun (hlt : _ < _) => Int.ofNat_le.mpr (le_of_lt hlt)
  rw [EventRepository.list_after, hrows, hsorted.insertionSort_eq, after, ordered_of_strict (h.sorted sessionId)]
  exact (List.take_prefix _ _).trans (hstart.filter _)

namespace State

variable {log : List SessionEvent} {received : Nat → Option EventId} {s t : State} {task : Task}

/-- The page shows the events of the current session up to `lastEventId`, and an
open source goes on from there. A reload of the history starts nowhere above, as
long as it may be answered in time. -/
structure Shown (log : List SessionEvent) (received : Nat → Option EventId) (s : State) : Prop extends
    Selected s where
  shown : ∀ current, s.currentId = some current →
    s.events = between SessionEvent.id 0 s.lastEventId (chronicle log current)
  last : s.lastEventId = position SessionEvent.id 0 s.events
  unheard : ∀ i, s.sources.length ≤ i → received i = none
  heard : ∀ i source, s.sources[i]? = some source → source.closed = false →
    Feed.cursor received i source = s.lastEventId ∧ s.selecting s.selectionVersion = 0
  once : s.selecting s.selectionVersion ≤ 1
  later : ∀ version, s.selectionVersion < version → s.selecting version = 0
  resets : ∀ sessionId version currentId after_id, .streamReset sessionId version currentId after_id ∈ s.tasks →
    version ≤ s.selectionVersion ∧ (version = s.selectionVersion →
      s.selecting version = 0 ∧ (s.currentId = some currentId → after_id ≤ s.lastEventId))

/-- The page starts with an empty log and an empty list, and no source has received
anything. -/
theorem initial_shown : initial.Shown [] fun _ => none where
  toSelected := .initial
  shown current hcurrent := by cases hcurrent
  last := rfl
  unheard _ _ := rfl
  heard i source hget := by cases hget
  once := by decide
  later version _ := rfl
  resets sessionId version currentId after_id hmem := by cases List.mem_singleton.mp hmem

/-- A step that leaves alone what the invariant speaks of, and starts neither a load nor
a reload, keeps it. -/
theorem Shown.keep (h : s.Shown log received) (hselected : t.Selected)
    (hsame : (t.currentId, t.events, t.sources, t.selectionVersion, t.lastEventId) =
      (s.currentId, s.events, s.sources, s.selectionVersion, s.lastEventId))
    (htasks : ∀ task ∈ t.tasks, task ∈ s.tasks ∨ task.neutral)
    (hselecting : ∀ version, t.selecting version ≤ s.selecting version) : t.Shown log received := by
  simp only [Prod.mk.injEq] at hsame
  obtain ⟨hcurrent, hevents, hsources, hversion, hlast⟩ := hsame
  have hnone (version : Nat) (hnone : s.selecting version = 0) : t.selecting version = 0 :=
    Nat.le_zero.mp (hnone ▸ hselecting version)
  refine ⟨hselected, ?_, ?_, ?_, ?_, ?_, ?_, ?_⟩
  · rw [hcurrent, hevents, hlast]
    exact h.shown
  · rw [hevents, hlast]
    exact h.last
  · rw [hsources]
    exact h.unheard
  · rw [hsources, hlast, hversion]
    exact fun i source hget hopen => (h.heard i source hget hopen).imp_right (hnone _)
  · rw [hversion]
    exact (hselecting _).trans h.once
  · rw [hversion]
    exact fun version hlater => hnone version (h.later version hlater)
  · intro sessionId version currentId after_id hmem
    rw [hversion, hcurrent, hlast]
    rcases htasks _ hmem with hmem | hneutral
    · exact (h.resets sessionId version currentId after_id hmem).imp_right
        fun hreset heq => (hreset heq).imp_left (hnone version)
    · exact hneutral.elim

/-- Such a step also leaves the page coherent if the messages stay as they are. -/
theorem Shown.same (h : s.Shown log received) (hsame : (t.currentId, t.messages, t.events, t.sources,
      t.eventSource, t.selectionVersion, t.lastEventId) =
    (s.currentId, s.messages, s.events, s.sources, s.eventSource, s.selectionVersion, s.lastEventId))
    (htasks : ∀ task ∈ t.tasks, task ∈ s.tasks ∨ task.neutral)
    (hselecting : ∀ version, t.selecting version ≤ s.selecting version) : t.Shown log received := by
  simp only [Prod.mk.injEq] at hsame
  obtain ⟨hcurrent, hmessages, hevents, hsources, heventSource, hversion, hlast⟩ := hsame
  refine h.keep (h.toSelected.same ?_ fun task hmem => (htasks task hmem).imp_right fun hneutral => ?_) ?_
    htasks hselecting
  · rw [hcurrent, hmessages, hevents, hsources, heventSource, hversion]
  · cases task <;> trivial
  · rw [hcurrent, hevents, hsources, hversion, hlast]

private theorem Shown.erase (h : s.Shown log received) (task : Task) :
    { s with tasks := s.tasks.erase task }.Shown log received :=
  h.same rfl (fun _ hmem => .inl (List.mem_of_mem_erase hmem)) fun _ => List.Sublist.countP_le List.erase_sublist

private theorem Shown.await (h : s.Shown log received) (hneutral : task.neutral) : (s.await task).Shown log received := by
  refine h.same (t := s.await task) rfl (fun other hmem => ?_) fun version => ?_
  · rcases List.mem_append.mp hmem with hmem | hmem
    · exact .inl hmem
    · exact .inr (List.mem_singleton.mp hmem ▸ hneutral)
  · have hselects : task.selects version = false := by
      cases task <;> first | rfl | exact hneutral.elim
    simp [selecting, State.await, hselects]

private theorem Shown.clearDesktop (h : s.Shown log received) : s.clearDesktop.Shown log received :=
  h.same rfl (fun _ => .inl) fun _ => le_rfl

/-- With every source closed the invariant does not speak of sources: only the list and
the cursor have to fit. -/
theorem Shown.of_closed (h : s.Shown log received) (hselected : t.Selected)
    (hclosed : ∀ source ∈ t.sources, source.closed = true)
    (hsame : (t.currentId, t.events, t.sources.length, t.selectionVersion, t.lastEventId, t.tasks) =
      (s.currentId, s.events, s.sources.length, s.selectionVersion, s.lastEventId, s.tasks)) :
    t.Shown log received := by
  simp only [Prod.mk.injEq] at hsame
  obtain ⟨hcurrent, hevents, hlength, hversion, hlast, htasks⟩ := hsame
  have hselecting (version : Nat) : t.selecting version = s.selecting version := by
    rw [selecting, htasks, selecting]
  refine ⟨hselected, ?_, ?_, ?_, ?_, ?_, ?_, ?_⟩
  · rw [hcurrent, hevents, hlast]
    exact h.shown
  · rw [hevents, hlast]
    exact h.last
  · rw [hlength]
    exact h.unheard
  · intro i source hget hopen
    simp [hclosed source (List.mem_of_getElem? hget)] at hopen
  · rw [hversion, hselecting]
    exact h.once
  · rw [hversion]
    exact fun version hlater => (hselecting version).trans (h.later version hlater)
  · intro sessionId version currentId after_id hmem
    rw [hversion, hselecting, hcurrent, hlast]
    exact h.resets sessionId version currentId after_id (htasks ▸ hmem)

private theorem closeEventStream_length (s : State) : s.closeEventStream.sources.length = s.sources.length := by
  unfold State.closeEventStream
  cases s.eventSource <;> simp

/-- Closing the stream takes nothing off the list of events, and leaves the cursor where
it is. -/
theorem Shown.closeEventStream (h : s.Shown log received) : s.closeEventStream.Shown log received := by
  refine h.of_closed h.toSelected.closeEventStream (closeEventStream_closed h.only) ?_
  simp only [closeEventStream_length]
  rfl

/-- Closing one source takes nothing off the list either. What it has received stays
received. -/
theorem Shown.close_source (h : s.Shown log received) (i : Nat) :
    { s with sources := s.sources.modify i EventSource.close }.Shown log received := by
  refine ⟨h.toSelected.close_source i, h.shown, h.last, ?_, ?_, h.once, h.later, h.resets⟩
  · rw [List.length_modify]
    exact h.unheard
  · exact fun j source hget hopen => h.heard j source (open_of_close hget hopen).1 hopen

/-- A selection starts a load under a new version, the only one with it. What earlier
loads bring is out of date. -/
theorem Shown.selectSession (h : s.Shown log received) (sessionId : SessionId) :
    (s.selectSession sessionId).Shown log received := by
  have hselecting (version : Nat) : (s.selectSession sessionId).selecting version =
      s.selecting version + if s.selectionVersion + 1 = version then 1 else 0 := by
    change (s.tasks ++ [Task.selectSession sessionId (s.selectionVersion + 1)]).countP _ = _
    rw [List.countP_append, selecting, List.countP_singleton]
    simp [Task.selects]
  have hclosed := closeEventStream_closed h.only
  refine ⟨h.toSelected.selectSession sessionId, h.shown, h.last, ?_, ?_, ?_, ?_, ?_⟩
  · change ∀ i, s.closeEventStream.sources.length ≤ i → received i = none
    rw [closeEventStream_length]
    exact h.unheard
  · intro i source hget hopen
    have hmem : source ∈ s.closeEventStream.sources := List.mem_of_getElem? hget
    simp [hclosed source hmem] at hopen
  · change (s.selectSession sessionId).selecting (s.selectionVersion + 1) ≤ 1
    rw [hselecting, h.later _ (Nat.lt_succ_self _), if_pos rfl]
  · intro version hlater
    replace hlater : s.selectionVersion + 1 < version := hlater
    rw [hselecting, h.later version (by omega), if_neg (by omega)]
  · intro sessionId' version currentId after_id hmem
    rcases List.mem_append.mp hmem with hmem | hmem
    · have hle := (h.resets sessionId' version currentId after_id hmem).1
      refine ⟨Nat.le_succ_of_le hle, fun heq => ?_⟩
      replace heq : version = s.selectionVersion + 1 := heq
      omega
    · cases List.mem_singleton.mp hmem

/-- A new source goes on from `lastEventId`, so what it brings comes behind what is
shown. -/
theorem Shown.of_connected {s t : State} {sessionId : SessionId} (h : s.Shown log received) (hselected : t.Selected)
    (hsources : t.sources = s.closeEventStream.sources ++ [⟨sessionId, s.selectionVersion, t.lastEventId, false⟩])
    (hshown : ∀ current, t.currentId = some current →
      t.events = between SessionEvent.id 0 t.lastEventId (chronicle log current))
    (hlast : t.lastEventId = position SessionEvent.id 0 t.events)
    (hversion : t.selectionVersion = s.selectionVersion) (htasks : t.tasks = s.tasks)
    (hidle : s.selecting s.selectionVersion = 0)
    (hresets : ∀ sessionId currentId after_id,
      .streamReset sessionId s.selectionVersion currentId after_id ∈ s.tasks →
        t.currentId = some currentId → after_id ≤ t.lastEventId) :
    t.Shown log received := by
  have hselecting (version : Nat) : t.selecting version = s.selecting version := by
    rw [selecting, htasks, selecting]
  refine ⟨hselected, hshown, hlast, ?_, ?_, ?_, ?_, ?_⟩
  · rw [hsources, List.length_append, closeEventStream_length]
    exact fun i hi => h.unheard i (le_trans (Nat.le_add_right _ _) hi)
  · intro i source hget hopen
    rw [hsources, List.getElem?_append] at hget
    rw [hversion, hselecting]
    split at hget
    · simp [closeEventStream_closed h.only source (List.mem_of_getElem? hget)] at hopen
    · rename_i hlength
      obtain ⟨hi, rfl⟩ := List.getElem?_eq_some_iff.mp hget
      rw [closeEventStream_length, not_lt] at hlength
      rw [Feed.cursor, h.unheard i hlength]
      refine ⟨?_, hidle⟩
      simp
  · rw [hversion, hselecting]
    exact h.once
  · rw [hversion]
    exact fun version hlater => (hselecting version).trans (h.later version hlater)
  · intro sessionId' version currentId after_id hmem
    rw [htasks] at hmem
    rw [hversion, hselecting]
    refine ⟨(h.resets sessionId' version currentId after_id hmem).1, ?_⟩
    rintro rfl
    exact ⟨hidle, hresets sessionId' currentId after_id hmem⟩

section Adding

variable {entries : List SessionEvent} {event : SessionEvent}

/-- An event that is shown already is not added, so a replay changes nothing. -/
theorem addEvent_known (hshown : s.events = between SessionEvent.id 0 s.lastEventId entries) (hmem : event ∈ entries)
    (hpos : 0 < event.id) (hle : event.id ≤ s.lastEventId) : s.addEvent event = s := by
  have hknown : event ∈ s.events := by
    rw [hshown, mem_between]
    exact ⟨hmem, hpos, hle⟩
  have hany : s.events.any (fun item => item.id = event.id) = true :=
    List.any_eq_true.mpr ⟨event, hknown, decide_eq_true rfl⟩
  rw [State.addEvent, if_pos ⟨Nat.ne_of_gt hpos, hany⟩]

/-- The next event is added at the end, and the cursor moves to it. -/
theorem addEvent_next (hshown : s.events = between SessionEvent.id 0 s.lastEventId entries)
    (hkeys : (entries.map SessionEvent.id).Nodup) (hmem : event ∈ entries) (hlt : s.lastEventId < event.id)
    (hnext : ∀ other ∈ entries, s.lastEventId < other.id → event.id ≤ other.id) :
    s.events ++ [event] = between SessionEvent.id 0 event.id entries ∧
      s.addEvent event = { s with events := s.events ++ [event], lastEventId := event.id } := by
  have hnew : ¬ (event.id ≠ 0 ∧ s.events.any (fun item => item.id = event.id) = true) := by
    rintro ⟨-, hany⟩
    obtain ⟨item, hitem, hid⟩ := List.any_eq_true.mp hany
    rw [hshown, mem_between] at hitem
    replace hid : item.id = event.id := of_decide_eq_true hid
    exact absurd hitem.2.2 (not_le.mpr (hid ▸ hlt))
  have hadded : s.events ++ [event] = between SessionEvent.id 0 event.id entries := by
    rw [hshown, between_next hkeys (Nat.zero_le _) hmem hlt hnext]
  refine ⟨hadded, ?_⟩
  rw [State.addEvent, if_neg hnew, Nat.max_eq_right (le_of_lt hlt)]
  congr 1
  rw [hadded]
  exact ordered_of_strict (between_strict hkeys)

/-- A reload from an event that is shown leaves no gap: what is shown already is passed
over, and the rest comes in order. -/
theorem addEvents_between {items : List SessionEvent} {after_id : EventId}
    (hshown : s.events = between SessionEvent.id 0 s.lastEventId entries)
    (hlast : s.lastEventId = position SessionEvent.id 0 s.events)
    (hkeys : (entries.map SessionEvent.id).Nodup) (hpos : ∀ event ∈ entries, 0 < event.id)
    (hitems : items <+: after SessionEvent.id after_id entries) (hle : after_id ≤ s.lastEventId) :
    ∃ events lastEventId, s.lastEventId ≤ lastEventId ∧ events = between SessionEvent.id 0 lastEventId entries ∧
      lastEventId = position SessionEvent.id 0 events ∧
      items.foldl State.addEvent s = { s with events := events, lastEventId := lastEventId } := by
  induction items generalizing s after_id with
  | nil => exact ⟨s.events, s.lastEventId, le_rfl, hshown, hlast, rfl⟩
  | cons event items ih =>
    obtain ⟨hlt, hrest⟩ := begins_after_cons hkeys hitems
    have hhead : event ∈ (after SessionEvent.id after_id entries).head? := by
      obtain ⟨rest, hrest⟩ := hitems
      rw [← hrest]
      rfl
    obtain ⟨hmem, -, hnext⟩ := head_after hhead
    rw [List.foldl_cons]
    rcases Nat.lt_or_ge s.lastEventId event.id with hnew | hknown
    · obtain ⟨hadded, hadd⟩ := addEvent_next hshown hkeys hmem hnew fun other hother hlater =>
        hnext other hother (lt_of_le_of_lt hle hlater)
      rw [hadd]
      obtain ⟨events, lastEventId, hlater, hevents, hposition, hfold⟩ := ih
        (s := { s with events := s.events ++ [event], lastEventId := event.id }) hadded
        (position_append SessionEvent.id 0 s.events event).symm hrest le_rfl
      exact ⟨events, lastEventId, le_trans (le_of_lt hnew) hlater, hevents, hposition, hfold⟩
    · rw [addEvent_known hshown hmem (hpos event hmem) hknown]
      exact ih hshown hlast hrest hknown

end Adding

section Handlers

private theorem Shown.loadVnc (h : s.Shown log received) (version : Nat) : (s.loadVnc version).Shown log received := by
  unfold State.loadVnc
  split
  · exact h
  · split
    · exact h.await trivial
    · exact h

private theorem Shown.refreshCurrentData (h : s.Shown log received) (repeated : Bool) :
    (s.refreshCurrentData repeated).Shown log received := by
  unfold State.refreshCurrentData
  split
  · exact h
  · exact h.await trivial

/-- Whatever the user does keeps what is shown. -/
theorem Shown.act (h : s.Shown log received) (action : Action) : (s.act action).Shown log received := by
  cases action with
  | select sessionId => exact h.selectSession sessionId
  | refresh =>
    simp only [State.act]
    split
    · exact h
    · exact h.selectSession _
  | reloadVnc => exact h.loadVnc _
  | create => exact h.await trivial
  | submit | stop | delete =>
    simp only [State.act]
    split
    · exact h
    · exact h.await trivial
  | unload => exact h.closeEventStream

private theorem Shown.returnTo (h : s.Shown log received) (caller : Caller) : (s.returnTo caller).Shown log received := by
  cases caller with
  | start | deleteCurrentSession =>
    simp only [State.returnTo]
    split
    · exact h
    · exact h.selectSession _
  | createSession sessionId => exact h.selectSession sessionId
  | stopCurrentSession => exact h

private theorem Shown.loadSessions (h : s.Shown log received) (items : List Session) (caller : Caller) :
    ({ s with sessions := items, current := s.current.map (updated items) }.returnTo caller).Shown log received := by
  apply Shown.returnTo
  refine h.same ?_ (fun _ => .inl) fun _ => le_rfl
  simp [State.currentId, Function.comp_def, updated_id]

/-- The answer of a load shows the beginning of the session's events, and the new source
goes on from the last of them. -/
theorem Shown.selected {sessionId : SessionId} {version : Nat} {session : Session} {messages : List ChatMessage}
    {history : List SessionEvent} (hlog : Numbered log) (h : s.Shown log received)
    (hanswers : (Answer.selected session messages history).answers (.selectSession sessionId version))
    (hversion : version = s.selectionVersion)
    (hhistory : history <+: after SessionEvent.id 0 (chronicle log sessionId))
    (hidle : s.selecting s.selectionVersion = 0)
    (hresets : ∀ sessionId currentId after_id,
      .streamReset sessionId s.selectionVersion currentId after_id ∉ s.tasks) :
    ({ s with
      current := some session
      messages := messages
      events := history
      lastEventId := history.foldl (fun last (event : SessionEvent) => max last event.id) 0
      }.connectEventStream sessionId version).Shown log received := by
  have hselected := h.toSelected.selected hanswers hversion
    (history.foldl (fun last (event : SessionEvent) => max last event.id) 0)
  have hkeys := hlog.nodup sessionId
  have hlast : history.foldl (fun last (event : SessionEvent) => max last event.id) 0 =
      position SessionEvent.id 0 history :=
    foldl_max_eq_position ((after_strict hkeys).sublist hhistory.sublist) fun _ _ => Nat.zero_le _
  refine h.of_connected hselected (by rw [hversion]; rfl) ?_ hlast rfl rfl hidle
    fun sessionId currentId after_id hmem => absurd hmem (hresets sessionId currentId after_id)
  intro current hcurrent
  obtain rfl : sessionId = current := hanswers.1.symm.trans (Option.some.inj hcurrent)
  have hread := eq_between_of_after hkeys hhistory
  rwa [← hlast] at hread

/-- The answer of a reload adds what has come since. Events that are shown already are
not added again. -/
theorem Shown.reloaded {sessionId currentId : SessionId} {version : Nat} {after_id : EventId}
    {items : List SessionEvent} (hlog : Numbered log) (h : s.Shown log received)
    (hfollows : (Task.streamReset sessionId version currentId after_id).follows)
    (hanswers : (Answer.events items).answers (.streamReset sessionId version currentId after_id))
    (hcurrent : s.currentId = some sessionId) (hversion : version = s.selectionVersion)
    (hitems : items <+: after SessionEvent.id after_id (chronicle log currentId))
    (hidle : s.selecting s.selectionVersion = 0) (hle : after_id ≤ s.lastEventId) :
    ((items.foldl State.addEvent s).connectEventStream sessionId version).Shown log received := by
  have hselected := h.toSelected.reloaded hfollows hanswers ⟨hcurrent, hversion⟩
  obtain rfl : currentId = sessionId := hfollows
  obtain ⟨events, lastEventId, hlater, hevents, hlast, hfold⟩ := addEvents_between
    (h.shown currentId hcurrent) h.last (hlog.nodup currentId) (fun _ => hlog.pos_of_mem) hitems hle
  rw [hfold] at hselected ⊢
  refine h.of_connected hselected (by rw [hversion]; rfl) ?_ hlast rfl rfl hidle ?_
  · intro current hcurrent'
    obtain rfl : currentId = current := Option.some.inj (hcurrent.symm.trans hcurrent')
    exact hevents
  · intro sessionId' currentId' after_id' hmem hcurrent'
    exact le_trans (((h.resets _ _ _ _ hmem).2 rfl).2 hcurrent') hlater

/-- A refresh of the current session leaves its events alone, whatever session and
messages it brings. -/
theorem Shown.refreshed {currentId : SessionId} {repeated : Bool} {session : Session} {messages : List ChatMessage}
    (h : s.Shown log received)
    (hanswers : (Answer.refreshed session messages).answers (.refreshCurrentData currentId repeated))
    (hcurrent : s.currentId = some currentId) :
    { s with current := some session, messages := messages }.Shown log received := by
  have hselected := h.toSelected.refreshed hanswers hcurrent
  obtain ⟨rfl, -⟩ := hanswers
  refine h.keep hselected ?_ (fun _ => .inl) fun _ => le_rfl
  rw [hcurrent]
  rfl

/-- The answer of a stop closes the stream of the session and keeps its events. -/
theorem Shown.stopped {sessionId : SessionId} {session : Session} (h : s.Shown log received)
    (hanswers : (Answer.stored session).answers (.stopCurrentSession sessionId))
    (hcurrent : s.currentId = some sessionId) :
    ({ s with current := some session }.closeEventStream).Shown log received := by
  have hselected := h.toSelected.stopped hanswers (.inl hcurrent)
  obtain rfl : session.id = sessionId := hanswers
  refine h.of_closed hselected (closeEventStream_closed h.only) ?_
  simp only [closeEventStream_length]
  rw [hcurrent]
  rfl

/-- A deletion empties the list of events and sets the cursor back. -/
theorem Shown.deleted (h : s.Shown log received) : { s.closeEventStream with
    current := none, messages := [], events := [], lastEventId := 0 }.Shown log received := by
  refine ⟨h.toSelected.deleted, ?_, rfl, ?_, ?_, h.once, h.later, ?_⟩
  · exact fun current hcurrent => by cases hcurrent
  · change ∀ i, s.closeEventStream.sources.length ≤ i → received i = none
    rw [closeEventStream_length]
    exact h.unheard
  · intro i source hget hopen
    simp [closeEventStream_closed h.only source (List.mem_of_getElem? hget)] at hopen
  · intro sessionId version currentId after_id hmem
    refine (h.resets sessionId version currentId after_id hmem).imp_right fun hreset heq => ?_
    exact ⟨(hreset heq).1, fun hcurrent => by cases hcurrent⟩

/-- The load of the current version is the only one, and is answered once: no other load
is left under its version. -/
theorem Shown.load_answered {sessionId : SessionId} (h : s.Shown log received)
    (hmem : .selectSession sessionId s.selectionVersion ∈ s.tasks) :
    { s with tasks := s.tasks.erase (.selectSession sessionId s.selectionVersion) }.selecting s.selectionVersion = 0 ∧
      ∀ sessionId' currentId after_id, .streamReset sessionId' s.selectionVersion currentId after_id ∉ s.tasks := by
  have hselects : (Task.selectSession sessionId s.selectionVersion).selects s.selectionVersion = true :=
    decide_eq_true rfl
  have hpos : 0 < s.selecting s.selectionVersion := List.countP_pos_iff.mpr ⟨_, hmem, hselects⟩
  refine ⟨?_, fun sessionId' currentId after_id hreset => ?_⟩
  · have hcount := (List.perm_cons_erase hmem).countP_eq (Task.selects s.selectionVersion)
    rw [List.countP_cons_of_pos hselects] at hcount
    have honce : s.tasks.countP (Task.selects s.selectionVersion) ≤ 1 := h.once
    change (s.tasks.erase (.selectSession sessionId s.selectionVersion)).countP _ = 0
    omega
  · have hnone := ((h.resets _ _ _ _ hreset).2 rfl).1
    omega

/-- The session that the load of the current version answers with is shown from the
beginning, and its stream goes on from there. -/
theorem Shown.load {sessionId : SessionId} {version : Nat} {session : Session} {messages : List ChatMessage}
    {history : List SessionEvent} (hlog : Numbered log) (h : s.Shown log received)
    (hmem : .selectSession sessionId version ∈ s.tasks)
    (hanswers : (Answer.selected session messages history).answers (.selectSession sessionId version))
    (hread : history <+: after SessionEvent.id 0 (chronicle log sessionId)) (hversion : version = s.selectionVersion) :
    (({ s with tasks := s.tasks.erase (.selectSession sessionId version) }.selected session messages
      history).connectEventStream sessionId version).Shown log received := by
  subst hversion
  obtain ⟨hidle, hresets⟩ := h.load_answered hmem
  exact (h.erase _).selected hlog hanswers rfl hread hidle fun sessionId' currentId after_id hreset =>
    hresets sessionId' currentId after_id (List.mem_of_mem_erase hreset)

/-- What a handler does with its answer keeps what is shown, if the answer comes in
time. -/
theorem Shown.resume {answer : Answer} (hlog : Numbered log) (h : s.Shown log received) (hmem : task ∈ s.tasks)
    (hanswers : answer.answers task) (htimely : s.timely (.response task answer))
    (hstops : ∀ sessionId ∈ Feed.stopped task answer, s.currentId = some sessionId)
    (hreads : Feed.reads log task answer)
    (hresumes : { s with tasks := s.tasks.erase task }.Resumes task answer t) : t.Shown log received := by
  have hrest := h.erase task
  have hfollows := h.follows task hmem
  cases hresumes with
  | start | created => exact hrest.await trivial
  | listed => exact hrest.loadSessions _ _
  | active hversion => exact (h.load hlog hmem hanswers (hreads _ rfl) hversion).loadVnc _
  | inactive hversion => exact (h.load hlog hmem hanswers (hreads _ rfl) hversion).clearDesktop
  | reloaded =>
    obtain ⟨hcurrent, rfl⟩ := htimely
    obtain ⟨hidle, hle⟩ := (h.resets _ _ _ _ hmem).2 rfl
    cases hfollows
    refine hrest.reloaded hlog rfl hanswers hcurrent rfl (hreads _ rfl) (Nat.le_zero.mp (hidle ▸ ?_)) (hle hcurrent)
    exact List.Sublist.countP_le List.erase_sublist
  | refreshed hcurrent =>
    exact (hrest.refreshed hanswers hcurrent).same rfl (fun _ => .inl) fun _ => le_rfl
  | repeats | submitted => exact hrest.refreshCurrentData _
  | desktop => exact hrest.same rfl (fun _ => .inl) fun _ => le_rfl
  | no_desktop => exact hrest.clearDesktop
  | stopped => exact (hrest.stopped hanswers (hstops _ rfl)).clearDesktop.await trivial
  | deleted => exact hrest.deleted.clearDesktop.await trivial
  | superseded | outdated | late | select_failed | load_failed | reload_failed | refresh_failed | create_failed
  | stop_failed | delete_failed => exact hrest

/-- The next event of an open source is added, and is the next one of the session as
well. -/
theorem Shown.added {i : Nat} {source : EventSource} {event : SessionEvent} (hlog : Numbered log)
    (h : s.Shown log received) (hsource : s.sources[i]? = some source) (hopen : source.closed = false)
    (hevent : event ∈
      (after SessionEvent.id (Feed.cursor received i source) (chronicle log source.sessionId)).head?) :
    (s.addEvent event).Shown log (Function.update received i (some event.id)) := by
  obtain ⟨hcurrent, -⟩ := h.source source (List.mem_of_getElem? hsource) hopen
  obtain ⟨hcursor, hidle⟩ := h.heard i source hsource hopen
  rw [hcursor] at hevent
  obtain ⟨hmem, hlt, hnext⟩ := head_after hevent
  obtain ⟨hadded, hadd⟩ := addEvent_next (h.shown _ hcurrent) (hlog.nodup _) hmem hlt hnext
  have hsession : event.session_id = source.sessionId := of_decide_eq_true (List.mem_filter.mp hmem).2
  have hselected : ([event].foldl State.addEvent s).Selected :=
    h.toSelected.addEvents (by simpa [hsession] using hcurrent)
  rw [List.foldl_cons, List.foldl_nil] at hselected
  rw [hadd] at hselected ⊢
  refine ⟨hselected, ?_, (position_append SessionEvent.id 0 s.events event).symm, ?_, ?_, h.once, h.later, ?_⟩
  · intro current hcurrent'
    obtain rfl : source.sessionId = current := Option.some.inj (hcurrent.symm.trans hcurrent')
    exact hadded
  · intro j hj
    have hi : i < s.sources.length := (List.getElem?_eq_some_iff.mp hsource).1
    rw [Function.update_of_ne (Nat.ne_of_gt (lt_of_lt_of_le hi hj))]
    exact h.unheard j hj
  · intro j other hget hopen'
    obtain rfl : i = j :=
      Option.some.inj ((h.only i source hsource hopen).symm.trans (h.only j other hget hopen'))
    refine ⟨?_, hidle⟩
    simp [Feed.cursor]
  · intro sessionId version currentId after_id hreset
    refine (h.resets sessionId version currentId after_id hreset).imp_right fun hbelow heq => ?_
    exact (hbelow heq).imp_right fun hle hcurrent' => le_trans (hle hcurrent') (le_of_lt hlt)

/-- The message of an open source is its next event, which may have the page refreshed
as well. -/
theorem Shown.handleStreamMessage {i : Nat} {source : EventSource} {event : SessionEvent} (hlog : Numbered log)
    (h : s.Shown log received) (hsource : s.sources[i]? = some source) (hopen : source.closed = false)
    (hevent : event ∈
      (after SessionEvent.id (Feed.cursor received i source) (chronicle log source.sessionId)).head?) :
    (s.handleStreamMessage source.version (some event)).Shown log (Function.update received i (some event.id)) := by
  obtain ⟨-, hversion⟩ := h.source source (List.mem_of_getElem? hsource) hopen
  have hshown := h.added hlog hsource hopen hevent
  rw [State.handleStreamMessage, if_neg (not_not.mpr hversion)]
  dsimp only
  split
  · exact hshown.refreshCurrentData false
  · exact hshown

/-- The reload of a reset stream starts from what is shown, so its events continue the
list. -/
theorem Shown.streamReset {i : Nat} {source : EventSource} (h : s.Shown log received)
    (hsource : s.sources[i]? = some source) (hopen : source.closed = false) :
    (s.streamReset i source.sessionId source.version).Shown log received := by
  obtain ⟨hcurrent, hversion⟩ := h.source source (List.mem_of_getElem? hsource) hopen
  obtain ⟨-, hidle⟩ := h.heard i source hsource hopen
  have hselected := h.toSelected.streamReset i source.version hcurrent
  have hclosed := h.close_source i
  rw [State.streamReset, if_neg (not_not.mpr hversion)] at hselected ⊢
  dsimp only at hselected ⊢
  split at hselected
  · rename_i hnone
    rw [currentId, hnone] at hcurrent
    cases hcurrent
  · rename_i current hsome
    have hselecting (version : Nat) : ({ s with sources := s.sources.modify i EventSource.close }.await
        (.streamReset source.sessionId source.version current.id s.lastEventId)).selecting version =
          s.selecting version := by
      simp [selecting, State.await, Task.selects]
    refine ⟨hselected, hclosed.shown, hclosed.last, hclosed.unheard, ?_, ?_, ?_, ?_⟩
    · intro j other hget hopen'
      obtain ⟨hcursor, hnone⟩ := hclosed.heard j other hget hopen'
      exact ⟨hcursor, (hselecting _).trans hnone⟩
    · exact (hselecting _).trans_le h.once
    · exact fun version hlater => (hselecting version).trans (h.later version hlater)
    · intro sessionId version currentId after_id hmem
      rw [hselecting]
      rcases List.mem_append.mp hmem with hmem | hmem
      · exact h.resets sessionId version currentId after_id hmem
      · cases List.mem_singleton.mp hmem
        exact ⟨le_of_eq hversion, fun heq => ⟨heq ▸ hidle, fun _ => le_rfl⟩⟩

end Handlers

/-- An event that is only appended to the log is not shown yet, and leaves no gap below
what is. -/
theorem Shown.append {event : SessionEvent} (h : s.Shown log received)
    (hlast : ∀ earlier ∈ chronicle log event.session_id, earlier.id < event.id) (hpos : 0 < event.id) :
    s.Shown (log ++ [event]) received := by
  refine ⟨h.toSelected, fun current hcurrent => ?_, h.last, h.unheard, h.heard, h.once, h.later, h.resets⟩
  have hshown := h.shown current hcurrent
  by_cases hsession : event.session_id = current
  · subst hsession
    have hchronicle : chronicle (log ++ [event]) event.session_id = chronicle log event.session_id ++ [event] := by
      rw [chronicle, List.filter_append, List.filter_singleton, decide_eq_true rfl]
      rfl
    rw [hchronicle, between_insert, ← hshown]
    rintro ⟨-, hle⟩
    rw [h.last] at hle
    rcases position_cases SessionEvent.id 0 s.events with ⟨-, hposition⟩ | ⟨earlier, hearlier, hposition⟩
    · exact absurd (hposition ▸ hle) (not_le.mpr hpos)
    · rw [hshown, mem_between] at hearlier
      exact absurd (hposition ▸ hle) (not_le.mpr (hlast earlier hearlier.1))
  · have hchronicle : chronicle (log ++ [event]) current = chronicle log current := by
      rw [chronicle, List.filter_append, List.filter_singleton, decide_eq_false hsession]
      exact List.append_nil _
    rw [hchronicle, ← hshown]

end State

namespace Feed

variable {feed feed' : Feed}

/-- The log is numbered, and the page shows what it should. -/
structure Follows (feed : Feed) : Prop where
  numbered : Numbered feed.log
  shown : feed.page.Shown feed.log feed.received

/-- The page follows the empty log. -/
theorem Follows.initial : Follows {} where
  numbered := ⟨List.forall_mem_nil _, fun _ => .nil⟩
  shown := State.initial_shown

/-- The page follows the log, whoever takes the next step: the server, the user, or an
answer that comes in time. -/
theorem Follows.step {l : Label} (h : feed.Follows) (hserved : feed.Served l) (hstep : feed.step l = some feed') :
    feed'.Follows := by
  cases l with
  | append event =>
    cases hstep
    exact ⟨h.numbered.append hserved.1 hserved.2, h.shown.append hserved.2 hserved.1⟩
  | page label =>
    obtain ⟨page, hpage, rfl⟩ := Option.map_eq_some_iff.mp hstep
    refine ⟨h.numbered, ?_⟩
    cases State.stepped hpage with
    | act action => exact h.shown.act action
    | answered hmem hanswers hresumes =>
      obtain ⟨htimely, hstops, hreads⟩ := hserved
      exact h.shown.resume h.numbered hmem hanswers htimely hstops hreads hresumes
    | @received _ source frame hsource hopen =>
      cases frame with
      | message data =>
        obtain ⟨hsome, hevent⟩ := hserved source hsource
        obtain ⟨event, rfl⟩ := Option.isSome_iff_exists.mp hsome
        exact h.shown.handleStreamMessage h.numbered hsource hopen hevent.symm
      | reset => exact h.shown.streamReset hsource hopen
      | closed => exact h.shown.close_source _

/-- Whatever the user does and in whatever order answers, events and resets arrive,
the page shows the first events of the current session, none of them twice and
none missing, up to the one with `lastEventId`. -/
theorem shown_without_gap {current : SessionId} (hrun : Run step Served {} feed)
    (hcurrent : feed.page.currentId = some current) :
    feed.page.events <+: chronicle feed.log current ∧
      feed.page.lastEventId = position SessionEvent.id 0 feed.page.events ∧
      ∀ event ∈ chronicle feed.log current, event.id ≤ feed.page.lastEventId → event ∈ feed.page.events := by
  have h : feed.Follows := hrun.invariant (fun _ _ _ h hserved hstep => h.step hserved hstep) .initial
  have hshown := h.shown.shown current hcurrent
  refine ⟨?_, h.shown.last, fun event hevent hle => ?_⟩
  · have hall : after SessionEvent.id 0 (chronicle feed.log current) = chronicle feed.log current := by
      rw [after, ordered_of_strict (h.numbered.sorted current), List.filter_eq_self]
      exact fun event hevent => decide_eq_true (h.numbered.pos_of_mem hevent)
    have hstart := between_prefix_after (h.numbered.nodup current) (Nat.zero_le feed.page.lastEventId)
    rwa [hall, ← hshown] at hstart
  · rw [hshown, mem_between]
    exact ⟨hevent, h.numbered.pos_of_mem hevent, hle⟩

/-- The second event comes by the stream, which is then reset, and the third one by the
reload of the history. -/
theorem shown_without_gap_reset : ∃ feed : Feed, feed.page.events.map SessionEvent.id = [4, 6, 7] ∧
    feed.page.events <+: chronicle feed.log 1 := by
  let event (id : EventId) (sessionId : SessionId) : SessionEvent := ⟨id, sessionId, some 9, .TOOL_RESULT, []⟩
  obtain ⟨feed, hrun, hevents, hcurrent⟩ : ∃ feed, Run step Served {} feed ∧
      feed.page.events.map SessionEvent.id = [4, 6, 7] ∧ feed.page.currentId = some 1 :=
    Run.exists_of_execIf [.append (event 4 1), .page (.response .start .done),
      .page (.response (.loadSessions .start) (.listed [⟨1, .READY⟩])),
      .page (.response (.selectSession 1 1) (.selected ⟨1, .READY⟩ [] [event 4 1])),
      .append (event 5 2), .append (event 6 1), .page (.stream 0 (.message (some (event 6 1)))),
      .append (event 7 1), .page (.stream 0 .reset), .append (event 8 1),
      .page (.response (.streamReset 1 1 1 6) (.events [event 7 1]))] _ (by decide +kernel)
  exact ⟨feed, hevents, (shown_without_gap hrun hcurrent).1⟩

end Feed

end session_manager.dashboard
