import SessionManager.Guarantees.Selection
import SessionManager.Library.Cursor

open cursor

namespace session_manager.dashboard

/-- The events of one session. -/
def chronicle (log : List SessionEvent) (sessionId : SessionId) : List SessionEvent :=
  log.filter fun event => event.session_id = sessionId

/-- The page, the event log that the server reads, and the id of the last event
that each source has received. -/
structure Feed where
  page : State := .initial
  log : List SessionEvent := []
  received : Nat → Option EventId := fun _ => none

namespace Feed

/-- The event from which on a source is sent the others. -/
def cursor (received : Nat → Option EventId) (i : Nat) (source : EventSource) : EventId :=
  (received i).getD source.after_id

inductive Label
  | append (event : SessionEvent)
  | page (label : dashboard.Label)

/-- What the sources have received after a step of the page. -/
def receive (received : Nat → Option EventId) : dashboard.Label → Nat → Option EventId
  | .stream i (.message (some event)) => Function.update received i (some event.id)
  | _ => received

def step (feed : Feed) : Label → Option Feed
  | .append event => some { feed with log := feed.log ++ [event] }
  | .page label => (feed.page.step label).map fun page =>
    { feed with page := page, received := receive feed.received label }

/-- The session and the cursor that the history route was asked for, and its answer. -/
def history : Task → Answer → Option (SessionId × EventId × List SessionEvent)
  | .selectSession sessionId _, .selected _ _ history => some (sessionId, 0, history)
  | .streamReset _ _ currentId after_id, .events items => some (currentId, after_id, items)
  | _, _ => none

/-- The route reads the log at some point up to now. -/
def reads (log : List SessionEvent) (task : Task) (answer : Answer) : Prop :=
  ∀ asked ∈ history task answer, asked.2.2 <+: after SessionEvent.id asked.2.1 (chronicle log asked.1)

instance (log : List SessionEvent) (task : Task) (answer : Answer) : Decidable (reads log task answer) :=
  inferInstanceAs (Decidable (∀ asked ∈ history task answer, _))

/-- A source is sent the events of its session one after the other. -/
def sends (feed : Feed) (i : Nat) : Frame → Prop
  | .message data => ∀ source ∈ feed.page.sources[i]?, data.isSome ∧
    data = (after SessionEvent.id (cursor feed.received i source) (chronicle feed.log source.sessionId)).head?
  | _ => True

instance (feed : Feed) (i : Nat) (frame : Frame) : Decidable (feed.sends i frame) := by
  cases frame <;> unfold sends <;> infer_instance

/-- The session that has been stopped. -/
def stopped : Task → Answer → Option SessionId
  | .stopCurrentSession sessionId, .stored _ => some sessionId
  | _, _ => none

/-- The events of a session are appended in the order of their ids, answers come in
time, also that of a stop, and routes and streams serve the log. -/
def Served (feed : Feed) : Label → Prop
  | .append event => 0 < event.id ∧ ∀ earlier ∈ chronicle feed.log event.session_id, earlier.id < event.id
  | .page (.response task answer) => feed.page.timely (.response task answer) ∧
    (∀ sessionId ∈ stopped task answer, feed.page.currentId = some sessionId) ∧ reads feed.log task answer
  | .page (.stream i frame) => feed.sends i frame
  | .page (.action _) => True

instance (feed : Feed) : ∀ label, Decidable (feed.Served label)
  | .append event => inferInstanceAs (Decidable (0 < event.id ∧ _))
  | .page (.response task answer) => inferInstanceAs (Decidable (feed.page.timely (.response task answer) ∧ _))
  | .page (.stream i frame) => inferInstanceAs (Decidable (feed.sends i frame))
  | .page (.action _) => inferInstanceAs (Decidable True)

end Feed

end session_manager.dashboard
