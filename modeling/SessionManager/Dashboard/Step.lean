import SessionManager.Dashboard.State
import SessionManager.Library.Transition

namespace session_manager.dashboard

inductive Action
  | select (sessionId : SessionId)
  | refresh
  | reloadVnc
  | create
  | submit
  | stop
  | delete
  | unload
deriving DecidableEq, Repr

/-- How an `await` ends: one of its requests fails, or the last of them is answered. -/
inductive Answer
  | failed
  | done
  | listed (items : List Session)
  | stored (session : Session)
  | refreshed (session : Session) (messages : List ChatMessage)
  | selected (session : Session) (messages : List ChatMessage) (history : List SessionEvent)
  | events (items : List SessionEvent)
deriving DecidableEq, Repr

/-- What an `EventSource` brings: the data of an event, as far as it is JSON,
`stream.reset`, or the end of its attempts to connect. -/
inductive Frame
  | message (data : Option SessionEvent)
  | reset
  | closed
deriving DecidableEq, Repr

inductive Label
  | action (action : Action)
  | response (task : Task) (answer : Answer)
  | stream (i : Nat) (frame : Frame)
deriving DecidableEq, Repr

/-- The API answers a request for a session with the data of that session. -/
def Answer.answers : Answer → Task → Prop
  | .stored session, .stopCurrentSession sessionId => session.id = sessionId
  | .refreshed session messages, .refreshCurrentData currentId _ =>
    session.id = currentId ∧ ∀ message ∈ messages, message.session_id = currentId
  | .selected session messages history, .selectSession sessionId _ =>
    session.id = sessionId ∧ (∀ message ∈ messages, message.session_id = sessionId) ∧
      ∀ event ∈ history, event.session_id = sessionId
  | .events items, .streamReset _ _ currentId _ => ∀ event ∈ items, event.session_id = currentId
  | _, _ => True

instance (answer : Answer) (task : Task) : Decidable (answer.answers task) := by
  unfold Answer.answers
  split <;> infer_instance

/-- The stream of a session carries the events of that session. -/
def Frame.of : Frame → SessionId → Prop
  | .message (some event), sessionId => event.session_id = sessionId
  | _, _ => True

instance (frame : Frame) (sessionId : SessionId) : Decidable (frame.of sessionId) := by
  unfold Frame.of
  split <;> infer_instance

/-- The task is the load of a `selectSession`. -/
def Task.loads : Task → Bool
  | .selectSession .. => true
  | _ => false

/-- The task is the load of a `selectSession` under this version. -/
def Task.selects (version : Nat) : Task → Bool
  | .selectSession _ version' => version' = version
  | _ => false

namespace State

def act (s : State) : Action → State
  | .select sessionId => s.selectSession sessionId
  | .refresh =>
    match s.current with
    | none => s
    | some current => s.selectSession current.id
  | .reloadVnc => s.loadVnc s.selectionVersion
  | .create => s.await .createSession
  | .submit =>
    match s.current with
    | none => s
    | some current => s.await (.submitRun current.id)
  | .stop =>
    match s.current with
    | none => s
    | some current => s.await (.stopCurrentSession current.id)
  | .delete =>
    match s.current with
    | none => s
    | some current => s.await (.deleteCurrentSession current.id)
  | .unload => s.closeEventStream

/-- What follows `loadSessions` in the function it returns to. -/
def returnTo (s : State) : Caller → State
  | .start | .deleteCurrentSession =>
    match s.sessions with
    | [] => s
    | session :: _ => s.selectSession session.id
  | .createSession sessionId => s.selectSession sessionId
  | .stopCurrentSession => s

/-- The rest of a handler after its `await`, up to the next one. -/
def resume (s : State) : Task → Answer → Option State
  | .start, .done | .start, .failed => some (s.await (.loadSessions .start))
  | .loadSessions caller, .listed items =>
    some ({ s with sessions := items, current := s.current.map (updated items) }.returnTo caller)
  | .selectSession sessionId version, .selected session messages history =>
    if version ≠ s.selectionVersion then some s
    else
      let s := { s with
        current := some session
        messages := messages
        events := history
        lastEventId := history.foldl (fun last (event : SessionEvent) => max last event.id) 0 }
      let s := s.connectEventStream sessionId version
      some (if session.status ∈ ACTIVE_VNC_STATUSES then s.loadVnc version else s.clearDesktop)
  | .streamReset sessionId version _ _, .events items =>
    some ((items.foldl addEvent s).connectEventStream sessionId version)
  | .refreshCurrentData currentId _, .refreshed session messages =>
    if s.currentId ≠ some currentId then some s
    else
      some { s with
        current := some session
        messages := messages
        sessions := s.sessions.replaceF fun item => if item.id = currentId then some session else none }
  | .refreshCurrentData _ repeated, .failed =>
    some (if repeated then s.refreshCurrentData false else s)
  | .loadVnc sessionId version, .done =>
    if version ≠ s.selectionVersion ∨ s.currentId ≠ some sessionId then some s
    else some { s with vncFrame := some sessionId }
  | .loadVnc _ _, .failed => some s.clearDesktop
  | .createSession, .stored session => some (s.await (.loadSessions (.createSession session.id)))
  | .submitRun _, .done => some (s.refreshCurrentData true)
  | .submitRun _, .failed => some (s.refreshCurrentData false)
  | .stopCurrentSession _, .stored session =>
    some (({ s with current := some session }.closeEventStream.clearDesktop).await
      (.loadSessions .stopCurrentSession))
  | .deleteCurrentSession _, .done =>
    let s := { s.closeEventStream with current := none, messages := [], events := [], lastEventId := 0 }
    some (s.clearDesktop.await (.loadSessions .deleteCurrentSession))
  | .loadSessions _, .failed | .selectSession .., .failed | .streamReset .., .failed
  | .createSession, .failed | .stopCurrentSession _, .failed | .deleteCurrentSession _, .failed => some s
  | _, _ => none

def receive (s : State) (i : Nat) (source : EventSource) : Frame → State
  | .message data => s.handleStreamMessage source.version data
  | .reset => s.streamReset i source.sessionId source.version
  | .closed => { s with sources := s.sources.modify i EventSource.close }

/-- One task of the event loop of the page: the user does something, a handler goes
on with the answer it awaited, or a source that is not closed brings something. -/
def step (s : State) : Label → Option State
  | .action action => some (s.act action)
  | .response task answer =>
    if task ∈ s.tasks ∧ answer.answers task then
      { s with tasks := s.tasks.erase task }.resume task answer
    else none
  | .stream i frame =>
    match s.sources[i]? with
    | none => none
    | some source =>
      if source.closed = false ∧ frame.of source.sessionId then some (s.receive i source frame) else none

/-- A `selectSession` awaits its responses. -/
def loading (s : State) : Bool := s.tasks.any Task.loads

def selecting (s : State) (version : Nat) : Nat := s.tasks.countP (Task.selects version)

end State

end session_manager.dashboard
