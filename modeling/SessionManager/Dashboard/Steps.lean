import SessionManager.Dashboard.Step

namespace session_manager.dashboard.State

variable {s t : State} {l : Label} {task : Task} {answer : Answer}

/-- The page with what a selection has loaded, before it opens the stream. -/
def selected (s : State) (session : Session) (messages : List ChatMessage) (history : List SessionEvent) :
    State :=
  { s with
    current := some session
    messages := messages
    events := history
    lastEventId := history.foldl (fun last (event : SessionEvent) => max last event.id) 0 }

/-- How the handler of a task goes on with its answer, branch by branch of `app.js`:
the page it leaves, with what it then awaits. -/
inductive Resumes (s : State) : Task → Answer → State → Prop
  | start {answer : Answer} : Resumes s .start answer (s.await (.loadSessions .start))
  | listed {caller : Caller} {items : List Session} :
    Resumes s (.loadSessions caller) (.listed items)
      ({ s with sessions := items, current := s.current.map (updated items) }.returnTo caller)
  | superseded {sessionId : SessionId} {version : Nat} {session : Session} {messages : List ChatMessage}
      {history : List SessionEvent} (hversion : version ≠ s.selectionVersion) :
    Resumes s (.selectSession sessionId version) (.selected session messages history) s
  | active {sessionId : SessionId} {version : Nat} {session : Session} {messages : List ChatMessage}
      {history : List SessionEvent} (hversion : version = s.selectionVersion)
      (hactive : session.status ∈ ACTIVE_VNC_STATUSES) :
    Resumes s (.selectSession sessionId version) (.selected session messages history)
      (((s.selected session messages history).connectEventStream sessionId version).loadVnc version)
  | inactive {sessionId : SessionId} {version : Nat} {session : Session} {messages : List ChatMessage}
      {history : List SessionEvent} (hversion : version = s.selectionVersion)
      (hinactive : session.status ∉ ACTIVE_VNC_STATUSES) :
    Resumes s (.selectSession sessionId version) (.selected session messages history)
      ((s.selected session messages history).connectEventStream sessionId version).clearDesktop
  | reloaded {sessionId currentId : SessionId} {version : Nat} {after_id : EventId}
      {items : List SessionEvent} :
    Resumes s (.streamReset sessionId version currentId after_id) (.events items)
      ((items.foldl addEvent s).connectEventStream sessionId version)
  | outdated {currentId : SessionId} {repeated : Bool} {session : Session} {messages : List ChatMessage}
      (hcurrent : s.currentId ≠ some currentId) :
    Resumes s (.refreshCurrentData currentId repeated) (.refreshed session messages) s
  | refreshed {currentId : SessionId} {repeated : Bool} {session : Session} {messages : List ChatMessage}
      (hcurrent : s.currentId = some currentId) :
    Resumes s (.refreshCurrentData currentId repeated) (.refreshed session messages)
      { s with
        current := some session
        messages := messages
        sessions := s.sessions.replaceF fun item => if item.id = currentId then some session else none }
  | repeats {currentId : SessionId} :
    Resumes s (.refreshCurrentData currentId true) .failed (s.refreshCurrentData false)
  | late {sessionId : SessionId} {version : Nat}
      (hlate : version ≠ s.selectionVersion ∨ s.currentId ≠ some sessionId) :
    Resumes s (.loadVnc sessionId version) .done s
  | desktop {sessionId : SessionId} {version : Nat} (hversion : version = s.selectionVersion)
      (hcurrent : s.currentId = some sessionId) :
    Resumes s (.loadVnc sessionId version) .done { s with vncFrame := some sessionId }
  | no_desktop {sessionId : SessionId} {version : Nat} :
    Resumes s (.loadVnc sessionId version) .failed s.clearDesktop
  | created {session : Session} :
    Resumes s .createSession (.stored session) (s.await (.loadSessions (.createSession session.id)))
  | submitted {sessionId : SessionId} {answer : Answer} (repeated : Bool) :
    Resumes s (.submitRun sessionId) answer (s.refreshCurrentData repeated)
  | stopped {sessionId : SessionId} {session : Session} :
    Resumes s (.stopCurrentSession sessionId) (.stored session)
      (({ s with current := some session }.closeEventStream.clearDesktop).await
        (.loadSessions .stopCurrentSession))
  | deleted {sessionId : SessionId} :
    Resumes s (.deleteCurrentSession sessionId) .done
      ({ s.closeEventStream with
          current := none, messages := [], events := [], lastEventId := 0 }.clearDesktop.await
        (.loadSessions .deleteCurrentSession))
  | select_failed {sessionId : SessionId} {version : Nat} :
    Resumes s (.selectSession sessionId version) .failed s
  | load_failed {caller : Caller} : Resumes s (.loadSessions caller) .failed s
  | reload_failed {sessionId currentId : SessionId} {version : Nat} {after_id : EventId} :
    Resumes s (.streamReset sessionId version currentId after_id) .failed s
  | refresh_failed {currentId : SessionId} : Resumes s (.refreshCurrentData currentId false) .failed s
  | create_failed : Resumes s .createSession .failed s
  | stop_failed {sessionId : SessionId} : Resumes s (.stopCurrentSession sessionId) .failed s
  | delete_failed {sessionId : SessionId} : Resumes s (.deleteCurrentSession sessionId) .failed s

/-- A handler goes on with its answer in one of the listed ways. The proofs about the
page split on this list and leave `resume` alone. -/
theorem resumes (h : s.resume task answer = some t) : s.Resumes task answer t := by
  unfold resume at h
  split at h
  case h_4 =>
    split at h
    · rename_i hversion
      cases h
      exact .superseded hversion
    · rename_i hversion
      cases h
      split
      · exact .active (not_not.mp hversion) ‹_›
      · exact .inactive (not_not.mp hversion) ‹_›
  case h_6 =>
    split at h
    · rename_i hcurrent
      cases h
      exact .outdated hcurrent
    · rename_i hcurrent
      cases h
      exact .refreshed (not_not.mp hcurrent)
  case h_7 repeated =>
    cases h
    cases repeated
    · exact .refresh_failed
    · exact .repeats
  case h_8 =>
    split at h
    · rename_i hlate
      cases h
      exact .late hlate
    · rename_i hlate
      cases h
      rw [not_or, not_not, not_not] at hlate
      exact .desktop hlate.1 hlate.2
  all_goals cases h <;> constructor

/-- What one step of the page does. -/
inductive Stepped (s : State) : Label → State → Prop
  | act (action : Action) : Stepped s (.action action) (s.act action)
  | answered {task : Task} {answer : Answer} {t : State} (hmem : task ∈ s.tasks)
      (hanswers : answer.answers task)
      (hresumes : Resumes { s with tasks := s.tasks.erase task } task answer t) :
    Stepped s (.response task answer) t
  | received {i : Nat} {source : EventSource} {frame : Frame} (hsource : s.sources[i]? = some source)
      (hopen : source.closed = false) (hframe : frame.of source.sessionId) :
    Stepped s (.stream i frame) (s.receive i source frame)

/-- A step of the page is an action of the user, an answer that was awaited, or
something that an open source receives. -/
theorem stepped (hstep : s.step l = some t) : s.Stepped l t := by
  cases l with
  | action action =>
    cases hstep
    exact .act action
  | response task answer =>
    simp only [step, Option.ite_none_right_eq_some] at hstep
    exact .answered hstep.1.1 hstep.1.2 (resumes hstep.2)
  | stream i frame =>
    simp only [step] at hstep
    split at hstep
    · cases hstep
    · simp only [Option.ite_none_right_eq_some, Option.some.injEq] at hstep
      obtain ⟨⟨hopen, hframe⟩, rfl⟩ := hstep
      exact .received ‹_› hopen hframe

end session_manager.dashboard.State
