import SessionManager.Dashboard.Steps
import SessionManager.Services.EventStream

open transition

namespace session_manager.dashboard

/-- A reload of the history asks for the session whose stream was reset. -/
def Task.follows : Task → Prop
  | .streamReset sessionId _ currentId _ => currentId = sessionId
  | _ => True

/-- The history route answers with the events of its session, so the log it reads from
may hold those of any other. -/
theorem list_after_answers (log : List SessionEvent) (sessionId currentId : SessionId)
    (version limit : Nat) (after_id : EventId) :
    (Answer.events (EventRepository.list_after log currentId after_id limit)).answers
      (.streamReset sessionId version currentId after_id) := by
  intro event hmem
  have hsorted := List.mem_of_mem_take hmem
  rw [List.mem_insertionSort] at hsorted
  have hkept := List.of_mem_filter hsorted
  simp only [decide_eq_true_eq] at hkept
  exact hkept.1

namespace State

variable {s t : State} {l : Label} {task : Task} {answer : Answer}

/-- The messages and events shown are the current session's, and a source that is
not closed is its source, under the current version. -/
structure Coherent (s : State) : Prop where
  messages : ∀ message ∈ s.messages, s.currentId = some message.session_id
  events : ∀ event ∈ s.events, s.currentId = some event.session_id
  source : ∀ source ∈ s.sources, source.closed = false →
    s.currentId = some source.sessionId ∧ source.version = s.selectionVersion

/-- What the handlers keep of a coherent page: `eventSource` is the only source
that may be open. -/
structure Selected (s : State) : Prop extends Coherent s where
  only : ∀ i source, s.sources[i]? = some source → source.closed = false → s.eventSource = some i
  follows : ∀ task ∈ s.tasks, task.follows

section Sources

/-- A source that is open after one was closed is another one, and was open before. The
page never opens a source again. -/
theorem open_of_close {sources : List EventSource} {i j : Nat} {source : EventSource}
    (hget : (sources.modify i EventSource.close)[j]? = some source) (hopen : source.closed = false) :
    sources[j]? = some source ∧ j ≠ i := by
  rw [List.getElem?_modify] at hget
  obtain ⟨before, hbefore, rfl⟩ := Option.map_eq_some_iff.mp hget
  split at hopen
  · cases hopen
  · rename_i hne
    exact ⟨by rw [if_neg hne]; exact hbefore, fun heq => hne heq.symm⟩

/-- Closing the stream of the page leaves no source open, because the page has never
more than the one it closes. -/
theorem closeEventStream_closed (honly : ∀ i source, s.sources[i]? = some source →
      source.closed = false → s.eventSource = some i) :
    ∀ source ∈ s.closeEventStream.sources, source.closed = true := by
  intro source hmem
  obtain ⟨i, hget⟩ := List.mem_iff_getElem?.mp hmem
  by_contra hnot
  have hopen : source.closed = false := by simpa using hnot
  unfold closeEventStream at hget
  cases heventSource : s.eventSource with
  | none =>
    simp only [heventSource] at hget
    have heq := honly i source hget hopen
    rw [heventSource] at heq
    cases heq
  | some j =>
    simp only [heventSource] at hget
    obtain ⟨hbefore, hne⟩ := open_of_close hget hopen
    have heq := honly i source hbefore hopen
    rw [heventSource] at heq
    exact hne (Option.some.inj heq).symm

/-- With every source closed only what is shown has to agree: the messages and the
events are the current session's. -/
theorem Selected.of_closed (hmessages : ∀ message ∈ s.messages, s.currentId = some message.session_id)
    (hevents : ∀ event ∈ s.events, s.currentId = some event.session_id)
    (hclosed : ∀ source ∈ s.sources, source.closed = true) (hfollows : ∀ task ∈ s.tasks, task.follows) :
    s.Selected where
  messages := hmessages
  events := hevents
  source source hmem hopen := by simp [hclosed source hmem] at hopen
  only i source hget hopen := by simp [hclosed source (List.mem_of_getElem? hget)] at hopen
  follows := hfollows

/-- Closing a source, as a reset or an error of it does, leaves the rest of the page as
it is. -/
theorem Selected.close_source (h : s.Selected) (i : Nat) :
    { s with sources := s.sources.modify i EventSource.close }.Selected := by
  constructor
  case only => exact fun j source hget hopen => h.only j source (open_of_close hget hopen).1 hopen
  case follows => exact h.follows
  refine ⟨h.messages, h.events, fun source hmem hopen => ?_⟩
  obtain ⟨j, hget⟩ := List.mem_iff_getElem?.mp hmem
  exact h.source source (List.mem_of_getElem? (open_of_close hget hopen).1) hopen

/-- Closing the stream of the page keeps it coherent: no source is open then. -/
theorem Selected.closeEventStream (h : s.Selected) : s.closeEventStream.Selected :=
  .of_closed h.messages h.events (closeEventStream_closed h.only) h.follows

/-- A new source is the only one that is open, so it alone has to agree with what is
shown. -/
theorem Selected.of_connected {closed : List EventSource} {source : EventSource}
    (hmessages : ∀ message ∈ s.messages, s.currentId = some message.session_id)
    (hevents : ∀ event ∈ s.events, s.currentId = some event.session_id)
    (hsources : s.sources = closed ++ [source]) (heventSource : s.eventSource = some closed.length)
    (hclosed : ∀ source ∈ closed, source.closed = true) (hcurrent : s.currentId = some source.sessionId)
    (hversion : source.version = s.selectionVersion) (hfollows : ∀ task ∈ s.tasks, task.follows) :
    s.Selected where
  messages := hmessages
  events := hevents
  source other hmem hopen := by
    rw [hsources, List.mem_append, List.mem_singleton] at hmem
    rcases hmem with hmem | rfl
    · simp [hclosed other hmem] at hopen
    · exact ⟨hcurrent, hversion⟩
  only i other hget hopen := by
    rw [hsources, List.getElem?_append] at hget
    split at hget
    · simp [hclosed other (List.mem_of_getElem? hget)] at hopen
    · rename_i hlength
      obtain ⟨hi, -⟩ := List.getElem?_eq_some_iff.mp hget
      rw [List.length_singleton] at hi
      rw [heventSource]
      congr
      omega
  follows := hfollows

/-- The stream is opened for the current session, under the version of the last
selection. -/
theorem Selected.connectEventStream {sessionId : SessionId} (h : s.Selected)
    (hcurrent : s.currentId = some sessionId) :
    (s.connectEventStream sessionId s.selectionVersion).Selected :=
  .of_connected h.messages h.events rfl rfl (closeEventStream_closed h.only) hcurrent rfl h.follows

end Sources

section Handlers

/-- A step that leaves alone what the invariant speaks of, and starts no reload, keeps
it whatever else it changes. -/
theorem Selected.same (h : s.Selected) (hsame : (t.currentId, t.messages, t.events, t.sources,
      t.eventSource, t.selectionVersion) =
    (s.currentId, s.messages, s.events, s.sources, s.eventSource, s.selectionVersion))
    (htasks : ∀ task ∈ t.tasks, task ∈ s.tasks ∨ task.follows) : t.Selected := by
  simp only [Prod.mk.injEq] at hsame
  obtain ⟨hcurrent, hmessages, hevents, hsources, heventSource, hversion⟩ := hsame
  constructor
  case follows => exact fun task hmem => (htasks task hmem).elim (h.follows task) id
  case only => rw [hsources, heventSource]; exact h.only
  constructor
  · rw [hmessages, hcurrent]; exact h.messages
  · rw [hevents, hcurrent]; exact h.events
  · rw [hsources, hcurrent, hversion]; exact h.source

private theorem Selected.await (h : s.Selected) (htask : task.follows) : (s.await task).Selected := by
  refine h.same (t := s.await task) rfl ?_
  intro other hmem
  rcases List.mem_append.mp hmem with hmem | hmem
  · exact .inl hmem
  · exact .inr (List.mem_singleton.mp hmem ▸ htask)

private theorem Selected.clearDesktop (h : s.Selected) : s.clearDesktop.Selected :=
  h.same rfl fun _ => .inl

/-- A selection closes the stream and takes a new version; what is shown stays until the
answer arrives. -/
theorem Selected.selectSession (h : s.Selected) (sessionId : SessionId) :
    (s.selectSession sessionId).Selected := by
  refine Selected.await (Selected.clearDesktop ?_) trivial
  exact .of_closed h.messages h.events (closeEventStream_closed h.only) h.follows

private theorem Selected.loadVnc (h : s.Selected) (version : Nat) : (s.loadVnc version).Selected := by
  unfold State.loadVnc
  split
  · exact h
  · split
    · exact h.await trivial
    · exact h

private theorem Selected.refreshCurrentData (h : s.Selected) (repeated : Bool) :
    (s.refreshCurrentData repeated).Selected := by
  unfold State.refreshCurrentData
  split
  · exact h
  · exact h.await trivial

/-- An event that is added changes nothing else that the invariant speaks of. -/
private theorem addEvent_cases (s : State) (event : SessionEvent) : ∃ events lastEventId,
    s.addEvent event = { s with events := events, lastEventId := lastEventId } ∧
      ∀ other ∈ events, other ∈ s.events ∨ other = event := by
  unfold State.addEvent
  split
  · exact ⟨s.events, s.lastEventId, rfl, fun _ => .inl⟩
  · exact ⟨_, _, rfl, fun other hmem => by simpa using hmem⟩

private theorem addEvents_cases (items : List SessionEvent) (s : State) : ∃ events lastEventId,
    items.foldl State.addEvent s = { s with events := events, lastEventId := lastEventId } ∧
      ∀ other ∈ events, other ∈ s.events ∨ other ∈ items := by
  induction items generalizing s with
  | nil => exact ⟨s.events, s.lastEventId, rfl, fun _ => .inl⟩
  | cons event items ih =>
    obtain ⟨events, lastEventId, hevent, hmem⟩ := addEvent_cases s event
    obtain ⟨events', lastEventId', hitems, hmem'⟩ := ih (s.addEvent event)
    refine ⟨events', lastEventId', ?_, ?_⟩
    · rw [List.foldl_cons, hitems, hevent]
    · intro other hother
      rw [hevent] at hmem'
      rcases hmem' other hother with hother | hother
      · rcases hmem other hother with hother | rfl
        · exact .inl hother
        · exact .inr List.mem_cons_self
      · exact .inr (List.mem_cons_of_mem event hother)

/-- Events of the current session may be added in any order and more than once. -/
theorem Selected.addEvents {items : List SessionEvent} (h : s.Selected)
    (hitems : ∀ event ∈ items, s.currentId = some event.session_id) :
    (items.foldl State.addEvent s).Selected := by
  obtain ⟨events, lastEventId, heq, hmem⟩ := addEvents_cases items s
  rw [heq]
  constructor
  case only => exact h.only
  case follows => exact h.follows
  exact ⟨h.messages, fun event hevent => (hmem event hevent).elim (h.events event) (hitems event), h.source⟩

end Handlers

section Steps

/-- Whatever the user does keeps the page coherent: every action closes the stream,
awaits an answer, or changes nothing. -/
theorem Selected.act (h : s.Selected) (action : Action) : (s.act action).Selected := by
  cases action with
  | select sessionId => exact h.selectSession sessionId
  | refresh =>
    simp only [State.act]
    split
    · exact h
    · exact h.selectSession _
  | reloadVnc => exact h.loadVnc _
  | create => exact h.await trivial
  | submit | stop | delete =>
    simp only [State.act]
    split
    · exact h
    · exact h.await trivial
  | unload => exact h.closeEventStream

private theorem Selected.returnTo (h : s.Selected) (caller : Caller) : (s.returnTo caller).Selected := by
  cases caller with
  | start | deleteCurrentSession =>
    simp only [State.returnTo]
    split
    · exact h
    · exact h.selectSession _
  | createSession sessionId => exact h.selectSession sessionId
  | stopCurrentSession => exact h

/-- A new list of sessions renews the current session, but not its id. -/
theorem updated_id (items : List Session) (current : Session) :
    (updated items current).id = current.id := by
  unfold updated
  cases hfind : items.find? fun session => session.id = current.id with
  | none => rfl
  | some session => simpa using List.find?_some hfind

private theorem Selected.loadSessions (h : s.Selected) (items : List Session) (caller : Caller) :
    ({ s with sessions := items, current := s.current.map (updated items) }.returnTo caller).Selected := by
  apply Selected.returnTo
  refine h.same ?_ fun _ => .inl
  simp [State.currentId, Function.comp_def, updated_id]

/-- The answer of the last selection shows its session, its messages and its history
together. That of an earlier one is dropped by the check of the version. -/
theorem Selected.selected {sessionId : SessionId} {version : Nat} {session : Session}
    {messages : List ChatMessage} {history : List SessionEvent} (h : s.Selected)
    (hanswers : (Answer.selected session messages history).answers (.selectSession sessionId version))
    (hversion : version = s.selectionVersion) (lastEventId : EventId) :
    ({ s with
      current := some session
      messages := messages
      events := history
      lastEventId := lastEventId }.connectEventStream sessionId version).Selected := by
  obtain ⟨rfl, hmessages, hhistory⟩ := hanswers
  refine .of_connected ?_ ?_ rfl rfl (closeEventStream_closed h.only) rfl hversion h.follows
  · exact fun message hmem => congrArg some (hmessages message hmem).symm
  · exact fun event hmem => congrArg some (hhistory event hmem).symm

/-- What a handler writes unchecked comes in time: the session that was stopped is
still the current one, or nothing is shown, and the one whose stream was reset is
the current one, with no other selected since. -/
def timely (s : State) : Label → Prop
  | .response (.stopCurrentSession sessionId) (.stored _) =>
    s.currentId = some sessionId ∨ s.messages = [] ∧ s.events = []
  | .response (.streamReset sessionId version _ _) (.events _) =>
    s.currentId = some sessionId ∧ version = s.selectionVersion
  | _ => True

instance (s : State) (l : Label) : Decidable (s.timely l) := by
  unfold timely
  split <;> infer_instance

/-- The answer of a stop makes its session current again, which agrees with what is
shown as long as that session still is, or nothing is shown. -/
theorem Selected.stopped {sessionId : SessionId} {session : Session} (h : s.Selected)
    (hanswers : (Answer.stored session).answers (.stopCurrentSession sessionId))
    (htimely : s.timely (.response (.stopCurrentSession sessionId) (.stored session))) :
    ({ s with current := some session }.closeEventStream).Selected := by
  cases hanswers
  rcases htimely with hcurrent | ⟨hmessages, hevents⟩
  · refine .of_closed ?_ ?_ (closeEventStream_closed h.only) h.follows
    · exact fun message hmem => hcurrent.symm.trans (h.messages message hmem)
    · exact fun event hmem => hcurrent.symm.trans (h.events event hmem)
  · refine .of_closed ?_ ?_ (closeEventStream_closed h.only) h.follows
    · change ∀ message ∈ s.messages, _
      rw [hmessages]
      exact List.forall_mem_nil _
    · change ∀ event ∈ s.events, _
      rw [hevents]
      exact List.forall_mem_nil _

/-- The answer of a reload adds events of the session it was asked for, and opens a
source for the session of the reset stream. -/
theorem Selected.reloaded {sessionId currentId : SessionId} {version : Nat} {after_id : EventId}
    {items : List SessionEvent} (h : s.Selected)
    (hfollows : (Task.streamReset sessionId version currentId after_id).follows)
    (hanswers : (Answer.events items).answers (.streamReset sessionId version currentId after_id))
    (htimely : s.timely (.response (.streamReset sessionId version currentId after_id) (.events items))) :
    ((items.foldl State.addEvent s).connectEventStream sessionId version).Selected := by
  obtain ⟨hcurrent, rfl⟩ := htimely
  cases hfollows
  obtain ⟨events, lastEventId, heq, -⟩ := addEvents_cases items s
  have hselected := h.addEvents fun event hmem => hcurrent.trans (congrArg some (hanswers event hmem).symm)
  rw [heq] at hselected ⊢
  exact hselected.connectEventStream hcurrent

/-- The answer of a refresh is for the current session, as the handler checks before it
shows anything. -/
theorem Selected.refreshed {currentId : SessionId} {repeated : Bool} {session : Session}
    {messages : List ChatMessage} (h : s.Selected)
    (hanswers : (Answer.refreshed session messages).answers (.refreshCurrentData currentId repeated))
    (hcurrent : s.currentId = some currentId) :
    { s with current := some session, messages := messages }.Selected := by
  obtain ⟨rfl, hmessages⟩ := hanswers
  constructor
  case only => exact h.only
  case follows => exact h.follows
  constructor
  · exact fun message hmem => congrArg some (hmessages message hmem).symm
  · exact fun event hmem => hcurrent.symm.trans (h.events event hmem)
  · intro source hmem hopen
    obtain ⟨hsource, hversion⟩ := h.source source hmem hopen
    exact ⟨hcurrent.symm.trans hsource, hversion⟩

/-- A deletion shows nothing and closes the stream, whichever session is current by
then. -/
theorem Selected.deleted (h : s.Selected) : { s.closeEventStream with
    current := none, messages := [], events := [], lastEventId := 0 }.Selected :=
  .of_closed (List.forall_mem_nil _) (List.forall_mem_nil _) (closeEventStream_closed h.only) h.follows

/-- What a handler does with its answer keeps the page coherent, if the answer comes in
time. Only the answers of a stop and of a reload can be late: the other handlers check
for it. -/
theorem Selected.resume (h : s.Selected) (hfollows : task.follows) (hanswers : answer.answers task)
    (htimely : s.timely (.response task answer)) (hresumes : s.Resumes task answer t) : t.Selected := by
  cases hresumes with
  | start | created => exact h.await trivial
  | listed => exact h.loadSessions _ _
  | active hversion => exact (h.selected hanswers hversion _).loadVnc _
  | inactive hversion => exact (h.selected hanswers hversion _).clearDesktop
  | reloaded => exact h.reloaded hfollows hanswers htimely
  | refreshed hcurrent => exact (h.refreshed hanswers hcurrent).same rfl fun _ => .inl
  | repeats | submitted => exact h.refreshCurrentData _
  | desktop => exact h.same rfl fun _ => .inl
  | no_desktop => exact h.clearDesktop
  | stopped => exact (h.stopped hanswers htimely).clearDesktop.await trivial
  | deleted => exact h.deleted.clearDesktop.await trivial
  | superseded | outdated | late | select_failed | load_failed | reload_failed | refresh_failed | create_failed
  | stop_failed | delete_failed => exact h

private theorem Selected.handleStreamMessage {event : SessionEvent} (h : s.Selected) (version : Nat)
    (hcurrent : s.currentId = some event.session_id) :
    (s.handleStreamMessage version (some event)).Selected := by
  have hadded : ([event].foldl State.addEvent s).Selected := h.addEvents (by simpa using hcurrent)
  unfold State.handleStreamMessage
  split
  · exact h
  · simp only
    split
    · exact hadded.refreshCurrentData false
    · exact hadded

/-- A reset closes the source and has the history reloaded for the session that is
current then. -/
theorem Selected.streamReset {sessionId : SessionId} (h : s.Selected) (i version : Nat)
    (hcurrent : s.currentId = some sessionId) : (s.streamReset i sessionId version).Selected := by
  have hclosed := h.close_source i
  unfold State.streamReset
  split
  · exact h
  · simp only
    split
    · rename_i hnone
      rw [currentId, hnone] at hcurrent
      cases hcurrent
    · rename_i current hsome
      rw [currentId, hsome] at hcurrent
      exact hclosed.await (Option.some.inj hcurrent)

/-- An open source is the current session's, so whatever it receives may be shown, a
reset included. -/
theorem Selected.receive {i : Nat} {source : EventSource} {frame : Frame} (h : s.Selected)
    (hsource : s.sources[i]? = some source) (hopen : source.closed = false)
    (hframe : frame.of source.sessionId) : (s.receive i source frame).Selected := by
  obtain ⟨hcurrent, -⟩ := h.source source (List.mem_of_getElem? hsource) hopen
  cases frame with
  | message data =>
    cases data with
    | none =>
      change (s.handleStreamMessage source.version none).Selected
      unfold State.handleStreamMessage
      split <;> exact h
    | some event =>
      have hevent : event.session_id = source.sessionId := hframe
      exact h.handleStreamMessage source.version (hevent ▸ hcurrent)
  | reset => exact h.streamReset i source.version hcurrent
  | closed => exact h.close_source i

/-- Every step that is in time keeps the page coherent. -/
theorem Selected.step (h : s.Selected) (htimely : s.timely l) (hstep : s.step l = some t) :
    t.Selected := by
  cases stepped hstep with
  | act action => exact h.act action
  | @answered task answer _ hmem hanswers hresumes =>
    have hrest : { s with tasks := s.tasks.erase task }.Selected :=
      h.same rfl fun other hother => .inl (List.mem_of_mem_erase hother)
    exact hrest.resume (h.follows task hmem) hanswers htimely hresumes
  | received hsource hopen hframe => exact h.receive hsource hopen hframe

/-- The answer of a stop leaves a coherent page only if it comes in time: otherwise the
messages of one session stand under another one. -/
theorem Selected.timely_of_stopped {sessionId : SessionId} {session : Session} (h : s.Selected)
    (hanswers : (Answer.stored session).answers (.stopCurrentSession sessionId))
    (hcoherent : ({ s with current := some session }.closeEventStream).Coherent) :
    s.timely (.response (.stopCurrentSession sessionId) (.stored session)) := by
  cases hanswers
  have hmessages : ∀ message ∈ s.messages, session.id = message.session_id := fun message hmem =>
    Option.some.inj (hcoherent.messages message hmem)
  have hevents : ∀ event ∈ s.events, session.id = event.session_id := fun event hmem =>
    Option.some.inj (hcoherent.events event hmem)
  by_cases hnone : s.messages = [] ∧ s.events = []
  · exact .inr hnone
  left
  rw [not_and_or] at hnone
  rcases hnone with hsome | hsome
  · obtain ⟨message, hmem⟩ := List.exists_mem_of_ne_nil _ hsome
    rw [hmessages message hmem]
    exact h.messages message hmem
  · obtain ⟨event, hmem⟩ := List.exists_mem_of_ne_nil _ hsome
    rw [hevents event hmem]
    exact h.events event hmem

/-- An answer of a reload that keeps the page coherent came in time: it opens a source
under its old version and for its old session. -/
theorem timely_of_reloaded {sessionId : SessionId} {version : Nat} {items : List SessionEvent}
    (hcoherent : ((items.foldl State.addEvent s).connectEventStream sessionId version).Coherent) :
    s.currentId = some sessionId ∧ version = s.selectionVersion := by
  obtain ⟨events, lastEventId, heq, -⟩ := addEvents_cases items s
  rw [heq] at hcoherent
  exact hcoherent.source ⟨sessionId, version, lastEventId, false⟩
    (List.mem_append_right _ List.mem_cons_self) rfl

/-- An answer that does not come in time mixes two sessions at once; there is no late
answer that does no harm. -/
theorem Selected.timely_of_coherent (h : s.Selected) (hstep : s.step l = some t) (ht : t.Coherent) :
    s.timely l := by
  cases stepped hstep with
  | act | received => trivial
  | answered _ hanswers hresumes =>
    cases hresumes with
    | stopped =>
      apply h.timely_of_stopped hanswers
      exact ⟨ht.messages, ht.events, ht.source⟩
    | reloaded => exact timely_of_reloaded (s := { s with tasks := s.tasks.erase _ }) ht
    | _ => trivial

end Steps

/-- The page starts with nothing to show and no stream. -/
theorem Selected.initial : initial.Selected := by
  constructor
  case only => exact fun i source hget => by cases hget
  case follows => simp [State.initial, Task.follows]
  constructor <;> exact List.forall_mem_nil _

/-- As long as no answer comes late, the page shows one session and reads its stream,
also while a selection waits for its answers. A late one breaks this at once. -/
theorem page_coherent (hrun : Run step timely initial s) :
    s.Coherent ∧ ∀ l t, s.step l = some t → (t.Coherent ↔ s.timely l) := by
  have h : s.Selected := by
    refine hrun.invariant (fun s l t h htimely hstep => ?_) .initial
    exact h.step htimely hstep
  refine ⟨h.toCoherent, fun l t hstep => ⟨h.timely_of_coherent hstep, fun htimely => ?_⟩⟩
  exact (h.step htimely hstep).toCoherent

instance (s : State) : Decidable s.Coherent :=
  decidable_of_iff ((∀ message ∈ s.messages, s.currentId = some message.session_id) ∧
      (∀ event ∈ s.events, s.currentId = some event.session_id) ∧
      ∀ source ∈ s.sources, source.closed = false →
        s.currentId = some source.sessionId ∧ source.version = s.selectionVersion)
    ⟨fun h => ⟨h.1, h.2.1, h.2.2⟩, fun h => ⟨h.messages, h.events, h.source⟩⟩

/-- A page with two sessions that shows the first one. -/
def opened : List Label :=
  [.response .start .done, .response (.loadSessions .start) (.listed [⟨1, .READY⟩, ⟨2, .READY⟩]),
    .response (.selectSession 1 1) (.selected ⟨1, .READY⟩ [] [])]

/-- The user selects the second session, and its first message and event arrive. -/
def switched : List Label :=
  [.action (.select 2), .response (.selectSession 2 2) (.selected ⟨2, .READY⟩
    [⟨2, some 7, .USER, [("text", "task")], 1⟩] [⟨5, 2, some 7, .RUN_STARTED, []⟩])]

/-- A session that is stopped and still selected when the answer arrives. -/
theorem page_coherent_stop : ∃ s : State,
    (s.loading = false ∧ s.current = some ⟨2, .STOPPED⟩ ∧ s.messages.length = 1) ∧
      s.Coherent ∧ ∀ l t, s.step l = some t → (t.Coherent ↔ s.timely l) := by
  obtain ⟨s, hrun, hs⟩ : ∃ s, Run step timely initial s ∧
      (s.loading = false ∧ s.current = some ⟨2, .STOPPED⟩ ∧ s.messages.length = 1) :=
    Run.exists_of_execIf (opened ++ switched ++
      [.action .stop, .response (.stopCurrentSession 2) (.stored ⟨2, .STOPPED⟩)]) _ (by decide +kernel)
  exact ⟨s, hs, page_coherent hrun⟩

/-- Another session is selected while the first one is stopped: its messages then
stand under the first one. Likewise while the stream of the first one is reset:
its events and its stream then stand under the other one. -/
theorem page_mixed :
    (∃ s, Run step (fun _ _ => True) initial s ∧ s.loading = false ∧ ¬ s.Coherent ∧
      s.currentId = some 1 ∧ ∃ message ∈ s.messages, message.session_id = 2) ∧
    ∃ s, Run step (fun _ _ => True) initial s ∧ s.loading = false ∧ ¬ s.Coherent ∧
      s.currentId = some 2 ∧ (∃ event ∈ s.events, event.session_id = 1) ∧
      ∃ source ∈ s.sources, source.closed = false ∧ source.sessionId = 1 ∧ source.version = 1 := by
  constructor
  · exact Run.exists_of_exec (fun _ _ => trivial) (opened ++ [.action .stop] ++ switched ++
      [.response (.stopCurrentSession 1) (.stored ⟨1, .STOPPED⟩)]) _ (by decide +kernel)
  · exact Run.exists_of_exec (fun _ _ => trivial) (opened ++ [.stream 0 .reset] ++ switched ++
      [.response (.streamReset 1 1 1 0) (.events [⟨4, 1, some 6, .RUN_STARTED, []⟩])]) _
      (by decide +kernel)

end State

end session_manager.dashboard
