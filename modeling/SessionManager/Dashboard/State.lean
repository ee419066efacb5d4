import Mathlib.Data.List.Sort
import SessionManager.Database.Models

namespace session_manager.dashboard

/-- A session in a response of the API. -/
structure Session where
  id : SessionId
  status : SessionStatus
deriving DecidableEq, Repr

def ACTIVE_VNC_STATUSES : List SessionStatus := [.READY, .RUNNING]

/-- The session of a new list that has the id of the current one, if there is one. -/
def updated (items : List Session) (current : Session) : Session :=
  (items.find? fun session => session.id = current.id).getD current

/-- An `EventSource`, with the version its handlers keep. -/
structure EventSource where
  sessionId : SessionId
  version : Nat
  after_id : EventId
  closed : Bool
deriving DecidableEq, Repr

def EventSource.close (source : EventSource) : EventSource := { source with closed := true }

/-- The function `loadSessions` returns to. -/
inductive Caller
  | start
  | createSession (sessionId : SessionId)
  | stopCurrentSession
  | deleteCurrentSession
deriving DecidableEq, Repr

/-- A handler that awaits the API, with the values it kept before: `start` its
health check, and the listener of `stream.reset` its `reloadHistory`. A refresh
that `submitRun` is to repeat if it fails is marked. -/
inductive Task
  | start
  | loadSessions (caller : Caller)
  | selectSession (sessionId : SessionId) (version : Nat)
  | streamReset (sessionId : SessionId) (version : Nat) (currentId : SessionId) (after_id : EventId)
  | refreshCurrentData (currentId : SessionId) (repeated : Bool)
  | loadVnc (sessionId : SessionId) (version : Nat)
  | createSession
  | submitRun (sessionId : SessionId)
  | stopCurrentSession (sessionId : SessionId)
  | deleteCurrentSession (sessionId : SessionId)
deriving DecidableEq, Repr

/-- The object `state` of the page, every `EventSource` it has opened, the session
whose desktop the frame shows, and the handlers that await the API. `eventSource`
is the position of a source. -/
structure State where
  sessions : List Session
  current : Option Session
  messages : List ChatMessage
  events : List SessionEvent
  lastEventId : EventId
  sources : List EventSource
  eventSource : Option Nat
  selectionVersion : Nat
  vncFrame : Option SessionId
  tasks : List Task

namespace State

/-- The page when its script has run. -/
def initial : State where
  sessions := []
  current := none
  messages := []
  events := []
  lastEventId := 0
  sources := []
  eventSource := none
  selectionVersion := 0
  vncFrame := none
  tasks := [.start]

/-- `state.current?.id` -/
def currentId (s : State) : Option SessionId := s.current.map Session.id

def await (s : State) (task : Task) : State := { s with tasks := s.tasks ++ [task] }

def clearDesktop (s : State) : State := { s with vncFrame := none }

def closeEventStream (s : State) : State :=
  { s with
    sources := match s.eventSource with
      | none => s.sources
      | some i => s.sources.modify i EventSource.close
    eventSource := none }

def connectEventStream (s : State) (sessionId : SessionId) (version : Nat) : State :=
  let s := s.closeEventStream
  { s with
    sources := s.sources ++ [⟨sessionId, version, s.lastEventId, false⟩]
    eventSource := some s.sources.length }

def addEvent (s : State) (event : SessionEvent) : State :=
  if event.id ≠ 0 ∧ s.events.any (fun item => item.id = event.id) then s
  else
    { s with
      lastEventId := max s.lastEventId event.id
      events := (s.events ++ [event]).insertionSort fun left right => left.id ≤ right.id }

def selectSession (s : State) (sessionId : SessionId) : State :=
  let version := s.selectionVersion + 1
  ({ s with selectionVersion := version }.closeEventStream.clearDesktop).await
    (.selectSession sessionId version)

def loadVnc (s : State) (version : Nat) : State :=
  match s.current with
  | none => s
  | some current =>
    if current.status ∈ ACTIVE_VNC_STATUSES then s.await (.loadVnc current.id version) else s

def refreshCurrentData (s : State) (repeated : Bool) : State :=
  match s.current with
  | none => s
  | some current => s.await (.refreshCurrentData current.id repeated)

def handleStreamMessage (s : State) (version : Nat) (data : Option SessionEvent) : State :=
  if version ≠ s.selectionVersion then s
  else match data with
    | none => s
    | some event =>
      let s := s.addEvent event
      if event.event_type ∈ [.RUN_STARTED, .RUN_COMPLETED, .RUN_FAILED, .ASSISTANT_MESSAGE] then
        s.refreshCurrentData false
      else s

/-- The listener of `stream.reset` up to its `await`: without a current session
`reloadHistory` returns at once. -/
def streamReset (s : State) (i : Nat) (sessionId : SessionId) (version : Nat) : State :=
  if version ≠ s.selectionVersion then s
  else
    let s := { s with sources := s.sources.modify i EventSource.close }
    match s.current with
    | none => s.connectEventStream sessionId version
    | some current => s.await (.streamReset sessionId version current.id s.lastEventId)

end State

end session_manager.dashboard
