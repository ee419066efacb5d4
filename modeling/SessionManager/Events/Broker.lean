import SessionManager.Database.Models

namespace session_manager

/-- A JSON object on the channel of a session: the envelope of an event, or
another object, of which its readers see what `int(item.get("id", 0))` gives,
unless that raises, and whether `encode_sse_event` finds its fields. -/
inductive EventEnvelope
  | of_event (event : SessionEvent)
  | foreign (id : Option Int) (encodes : Bool)
deriving DecidableEq, Repr

def event_to_envelope (event : SessionEvent) : EventEnvelope := .of_event event

namespace EventEnvelope

def id : EventEnvelope → Option Int
  | of_event event => some event.id
  | foreign id _ => id

def encodes : EventEnvelope → Bool
  | of_event _ => true
  | foreign _ encodes => encodes

end EventEnvelope

/-- A stored event's envelope carries the integer id of its row. -/
@[simp] theorem event_to_envelope_id (event : SessionEvent) :
    (event_to_envelope event).id = some (event.id : Int) := rfl

/-- The envelope of a stored event has every field that `encode_sse_event` asks for. -/
@[simp] theorem event_to_envelope_encodes (event : SessionEvent) :
    (event_to_envelope event).encodes = true := rfl

/-- The envelope keeps every column of the row, so two events with one envelope are the
same event. -/
@[simp] theorem event_to_envelope_inj {event event' : SessionEvent} :
    event_to_envelope event = event_to_envelope event' ↔ event = event' := by
  simp [event_to_envelope]

namespace broker

/-- The `data` of a message: not a string, a string that is not JSON, JSON that
is not an object, or an object. -/
inductive Data
  | bytes
  | malformed
  | scalar
  | object (envelope : EventEnvelope)
deriving DecidableEq, Repr

/-- What `pubsub.get_message` does: it times out, raises, or returns a message. -/
inductive Answer
  | timeout
  | lost
  | message (data : Data)
deriving DecidableEq, Repr

inductive Error
  | ConnectionError
  | JSONDecodeError
deriving DecidableEq, Repr

/-- `RedisEventSubscription.get`. -/
def RedisEventSubscription.get : Answer → Except Error (Option EventEnvelope)
  | .timeout => .ok none
  | .lost => .error .ConnectionError
  | .message .bytes => .ok none
  | .message .malformed => .error .JSONDecodeError
  | .message .scalar => .ok none
  | .message (.object envelope) => .ok (some envelope)

/-- `get` raises. -/
def Answer.raises : Answer → Bool
  | lost | message .malformed => true
  | _ => false

/-- `get` raises when the connection does or when the message is not JSON; any other
answer is a value or a timeout. -/
theorem RedisEventSubscription.get_error_iff {answer : Answer} :
    (∃ error, get answer = .error error) ↔ answer.raises = true := by
  rcases answer with _ | _ | (_ | _ | _ | _) <;> simp [get, Answer.raises]

/-- An envelope that `get` returns is the one that Redis delivered: nothing is made up
on the way. -/
theorem RedisEventSubscription.get_envelope {answer : Answer} {envelope : EventEnvelope}
    (hget : get answer = .ok (some envelope)) : answer = .message (.object envelope) := by
  rcases answer with _ | _ | (_ | _ | _ | _) <;> cases hget
  rfl

end broker

end session_manager
