import SessionManager.Events.Broker
import SessionManager.Library.Cursor
import SessionManager.Library.Transition

open transition

namespace session_manager

namespace EventRepository

/-- `EventRepository.list_after`. -/
def list_after (events : List SessionEvent) (session_id : SessionId) (after_id : Int) (limit : Nat) :
    List SessionEvent :=
  ((events.filter fun event => event.session_id = session_id ∧ after_id < event.id).insertionSort
    fun event event' => (event.id : Int) ≤ event'.id).take limit

end EventRepository

/-- The cursor the route `stream_events` hands to `stream`. -/
def stream_events.cursor (last_event_id after_id : Option Int) : Int :=
  max (last_event_id.getD 0) (after_id.getD 0)

namespace event_stream

open broker

structure StreamOverflow where
  reason : String := "客户端消费速度过慢，请使用 Last-Event-ID 重连补发。"
deriving DecidableEq, Repr

/-- An entry of `live_queue`. -/
inductive Item
  | envelope (envelope : EventEnvelope)
  | overflow (marker : StreamOverflow)
deriving DecidableEq, Repr

def Item.is_overflow : Item → Bool
  | envelope _ => false
  | overflow _ => true

/-- What the stream yields: the retry interval, an event, a heartbeat, or
`stream.reset`. -/
inductive Frame
  | retry
  | event (envelope : EventEnvelope)
  | heartbeat
  | reset (reason : String)
deriving DecidableEq, Repr

def Frame.event? : Frame → Option EventEnvelope
  | event envelope => some envelope
  | retry | heartbeat | reset _ => none

/-- The await points and yields of `stream`. `replay` holds what is left of the
page after the event it has yielded, and whether the page was a full one. -/
inductive Phase
  | subscribe
  | retry
  | list_after
  | replay (rest : List SessionEvent) (full : Bool)
  | live
  | reset
  | closed
deriving DecidableEq, Repr

/-- The stream has an open subscription. -/
def Phase.subscribed : Phase → Bool
  | retry | list_after | replay .. | live => true
  | subscribe | reset | closed => false

def Phase.ended : Phase → Bool
  | reset | closed => true
  | subscribe | retry | list_after | replay .. | live => false

/-- The task of `_pump_subscription`: not created yet, in its loop, returned,
ended by an exception, or cancelled. -/
inductive Pump
  | idle
  | running
  | returned
  | raised
  | cancelled
deriving DecidableEq, Repr

def Pump.stopped : Pump → Bool
  | returned | raised | cancelled => true
  | idle | running => false

structure Config where
  session_id : SessionId
  queue_size : Nat
  /-- The cursor of the first stream of the client. -/
  origin : Int

/-- The rows of `events` and the sequence behind their ids, the events `append` has
inserted and not committed, those of the session it has not published, the stream
of one client, and what the client received from its earlier streams. `buffer` holds
the messages the subscription has heard of and not handed over, `replayed` the rows
at the last page read. -/
structure State where
  next_event_id : EventId
  appending : List SessionEvent
  events : List SessionEvent
  publishing : List SessionEvent
  buffer : List SessionEvent
  phase : Phase
  after_id : Int
  last_sent_id : Int
  live_queue : List Item
  pump : Pump
  frames : List Frame
  received : List EventEnvelope
  replayed : List SessionEvent
deriving DecidableEq, Repr

/-- The events the current stream has yielded. -/
def State.sent (s : State) : List EventEnvelope := s.frames.filterMap Frame.event?

/-- A client with the cursor `origin` before its first stream. -/
def State.initial (origin : Int) : State where
  next_event_id := 1
  appending := []
  events := []
  publishing := []
  buffer := []
  phase := .closed
  after_id := origin
  last_sent_id := origin
  live_queue := []
  pump := .idle
  frames := []
  received := []
  replayed := []

/-- How a publish ends: the broker raises, or takes a message that the
subscription misses or hears. -/
inductive Publish
  | raised
  | missed
  | heard
deriving DecidableEq, Repr

/-- What happens next: `append` inserts an event, commits it, fails to, or publishes
it, the client opens a stream after it has received the first `count` frames of the
last one, an await of the stream ends, the consumer asks for the next frame, the
pump is handed something, or the consumer goes away. -/
inductive Label
  | flush (event : SessionEvent)
  | commit (event : SessionEvent)
  | rollback (event : SessionEvent)
  | publish (event : SessionEvent) (outcome : Publish)
  | stream_events (count : Nat)
  | subscribe (ok : Bool)
  | anext
  | list_after (ok : Bool)
  | get (answer : Answer)
  | queue_get
  | timeout
  | aclose
deriving DecidableEq, Repr

namespace State

/-- The INSERT of `EventService.append` takes an id from the sequence. -/
def flush (s : State) (event : SessionEvent) : State :=
  { s with
    next_event_id := s.next_event_id + 1
    appending := s.appending ++ [event] }

/-- The commit of `EventService.append`. Only the publishes on the channel of the
session of the stream matter later. -/
def commit (config : Config) (s : State) (event : SessionEvent) : State :=
  { s with
    appending := s.appending.erase event
    events := s.events ++ [event]
    publishing := if event.session_id = config.session_id then s.publishing ++ [event] else s.publishing }

/-- The publish of `EventService.append`; what it raises is only logged. A stream
may hear of it from its call of `subscribe` on. -/
def publish (s : State) (event : SessionEvent) (outcome : Publish) : State :=
  { s with
    publishing := s.publishing.erase event
    buffer := if outcome = .heard ∧ s.phase.ended = false then s.buffer ++ [event] else s.buffer }

/-- The Last-Event-ID of a client: the last id it has received, or the cursor it
started with. -/
def resume (origin : Int) (received : List EventEnvelope) : Int :=
  (received.getLast?.bind EventEnvelope.id).getD origin

/-- The client calls the route again. -/
def stream_events (config : Config) (s : State) (count : Nat) : State :=
  let received := s.received ++ (s.frames.take count).filterMap Frame.event?
  { s with
    buffer := []
    phase := .subscribe
    after_id := resume config.origin received
    last_sent_id := resume config.origin received
    live_queue := []
    pump := .idle
    frames := []
    received := received
    replayed := [] }

/-- The `finally` of `stream`. -/
def finish (s : State) (phase : Phase) : State :=
  { s with
    buffer := []
    phase := phase
    pump := if s.pump = .running then .cancelled else s.pump }

/-- The loop over the events of a page. Behind the last page the pump is started. -/
def replay (s : State) : List SessionEvent → Bool → State
  | event :: rest, full =>
    { s with
      phase := .replay rest full
      last_sent_id := event.id
      frames := s.frames ++ [.event (event_to_envelope event)] }
  | [], true => { s with phase := .list_after }
  | [], false => { s with phase := .live, pump := .running }

/-- A page of the replay has been read; an empty page is not a full one. -/
def read_page (config : Config) (s : State) : State :=
  let events := EventRepository.list_after s.events config.session_id s.last_sent_id 1000
  { s with replayed := s.events }.replay events (1000 ≤ events.length)

/-- One round of `_pump_subscription` on a queue of at most `queue_size` items. -/
def pump_subscription (config : Config) (s : State) : Except broker.Error (Option EventEnvelope) → State
  | .error _ => { s with pump := .raised }
  | .ok none => s
  | .ok (some event) =>
    if 0 < config.queue_size ∧ config.queue_size ≤ s.live_queue.length then
      { s with live_queue := [.overflow {}], pump := .returned }
    else { s with live_queue := s.live_queue ++ [.envelope event] }

/-- The subscription forgets the message it hands over. -/
def hand_over (answer : Answer) : List SessionEvent → List SessionEvent
  | event :: rest =>
    if answer = .message (.object (event_to_envelope event)) then rest else event :: rest
  | [] => []

/-- The live loop of `stream` has taken an item from its queue. -/
def deliver (s : State) : Item → State
  | .overflow marker => { s with frames := s.frames ++ [Frame.reset marker.reason] }.finish .reset
  | .envelope item =>
    match item.id with
    | none => s.finish .closed
    | some event_id =>
      if event_id ≤ s.last_sent_id then s
      else if item.encodes then
        { s with last_sent_id := event_id, frames := s.frames ++ [.event item] }
      else { s with last_sent_id := event_id }.finish Phase.closed

/-- One step of the stream and of its surroundings. -/
def step (config : Config) (s : State) : Label → Option State
  | .flush event => if event.id = s.next_event_id then some (s.flush event) else none
  | .commit event => if event ∈ s.appending then some (s.commit config event) else none
  | .rollback event =>
    if event ∈ s.appending then some { s with appending := s.appending.erase event } else none
  | .publish event outcome => if event ∈ s.publishing then some (s.publish event outcome) else none
  | .stream_events count => if s.phase.ended then some (s.stream_events config count) else none
  | .subscribe ok =>
    if s.phase = .subscribe then
      some (if ok then { s with phase := .retry, frames := s.frames ++ [.retry] } else s.finish .closed)
    else none
  | .anext =>
    match s.phase with
    | .retry => some { s with phase := .list_after }
    | .replay rest full => some (s.replay rest full)
    | .reset => some { s with phase := .closed }
    | _ => none
  | .list_after ok =>
    if s.phase = .list_after then some (if ok then s.read_page config else s.finish .closed) else none
  | .get answer =>
    if s.pump = .running then
      some ({ s with buffer := hand_over answer s.buffer }.pump_subscription config
        (RedisEventSubscription.get answer))
    else none
  | .queue_get =>
    match s.phase, s.live_queue with
    | .live, item :: live_queue => some ({ s with live_queue := live_queue }.deliver item)
    | _, _ => none
  | .timeout =>
    if s.phase = .live then some { s with frames := s.frames ++ [.heartbeat] } else none
  | .aclose => if s.phase.ended then none else some (s.finish .closed)

end State

end event_stream

end session_manager
