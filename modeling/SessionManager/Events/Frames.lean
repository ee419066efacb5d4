import Mathlib.Data.List.Forall2
import SessionManager.Domain
import SessionManager.Library.Json
import SessionManager.Library.ServerSentEvents

namespace session_manager

def EventType.value : EventType → String
  | SESSION_STATUS => "session.status"
  | RUN_STARTED => "run.started"
  | ASSISTANT_DELTA => "assistant.delta"
  | ASSISTANT_MESSAGE => "assistant.message"
  | TOOL_STARTED => "tool.started"
  | TOOL_RESULT => "tool.result"
  | SCREENSHOT_AVAILABLE => "screenshot.available"
  | RUN_COMPLETED => "run.completed"
  | RUN_FAILED => "run.failed"

namespace frames

open json server_sent_events

/-- What the library makes texts of: floats, points in time, and lists and
dictionaries outside of JSON. -/
structure Formats (F : Type) where
  floats : FloatText F
  isoformat : Time → String
  repr : Value F → String

/-- `str` of a UUID: 32 hexadecimal digits in five groups. -/
def uuid_str (uuid : Uuid) : String :=
  let digits := (Nat.toDigits 16 uuid).leftpad 32 '0'
  let group (start length : Nat) : String := String.ofList ((digits.drop start).take length)
  "-".intercalate [group 0 8, group 8 4, group 12 4, group 16 4, group 20 12]

example : uuid_str 0x123456789abcdef0fedcba9876543210 = "12345678-9abc-def0-fedc-ba9876543210" := by
  decide +kernel

/-- `EventResponse`, validated from a row of `events`. -/
structure EventResponse (F : Type) where
  id : Int
  session_id : SessionId
  run_id : Option RunId
  event_type : EventType
  payload : Members F
  created_at : Time

section Encode

variable {F : Type} (formats : Formats F)

/-- `str` -/
def Formats.str : Value F → String
  | .null => "None"
  | .bool true => "True"
  | .bool false => "False"
  | .int i => toString i
  | .float x => formats.floats.repr x
  | .string s => s
  | value => formats.repr value

/-- The envelope of an event, `model_dump(mode="json")` of its response. -/
def event_to_envelope (event : EventResponse F) : Members F :=
  [("id", .int event.id),
    ("session_id", .string (uuid_str event.session_id)),
    ("run_id", (event.run_id.map fun run_id => .string (uuid_str run_id)).getD .null),
    ("event_type", .string event.event_type.value),
    ("payload", .object event.payload),
    ("created_at", .string (formats.isoformat event.created_at))]

/-- `encode_sse_event`; `none` stands for a KeyError. -/
def encode_sse_event (event : Members F) : Option String := do
  let data := dumps formats.floats (.object event)
  let id ← event.lookup "id"
  let event_type ← event.lookup "event_type"
  return s!"id: {formats.str id}\nevent: {formats.str event_type}\ndata: {data}\n\n"

def encode_heartbeat (now : Time) : String :=
  let data := dumps formats.floats (.object [("timestamp", .string (formats.isoformat now))])
  s!"event: heartbeat\ndata: {data}\n\n"

/-- What `EventStreamService.stream` yields. -/
inductive Frame (F : Type)
  | retry
  | event (event : EventResponse F)
  | heartbeat (now : Time)
  | reset (reason : String)

def Frame.text (formats : Formats F) : Frame F → Option String
  | .retry => some "retry: 2000\n\n"
  | .event row => encode_sse_event formats (event_to_envelope formats row)
  | .heartbeat now => some (encode_heartbeat formats now)
  | .reset reason =>
    let payload := dumps formats.floats (.object [("reason", .string reason)])
    some s!"event: stream.reset\ndata: {payload}\n\n"

/-- `RedisEventBroker.publish`: the message it sends. -/
def publish (event : Members F) : String := dumps formats.floats (.object event)

/-- `RedisEventSubscription.get` of a message, which raises where `loads` does. -/
def get (loads : String → Option (Value F)) (data : String) : Option (Option (Members F)) := do
  match ← loads data with
  | .object event => return some event
  | _ => return none

end Encode

section Read

variable {F : Type} {formats : Formats F}

/-- The fields of a frame. -/
def Frame.fields (formats : Formats F) : Frame F → Fields
  | .retry => [("retry", "2000")]
  | .event row =>
    [("id", toString row.id), ("event", row.event_type.value),
      ("data", dumps formats.floats (.object (event_to_envelope formats row)))]
  | .heartbeat now =>
    [("event", "heartbeat"),
      ("data", dumps formats.floats (.object [("timestamp", .string (formats.isoformat now))]))]
  | .reset reason =>
    [("event", "stream.reset"), ("data", dumps formats.floats (.object [("reason", .string reason)]))]

private theorem toString_string (s : String) : toString s = s := rfl

private theorem encode_envelope (row : EventResponse F) :
    encode_sse_event formats (event_to_envelope formats row) =
      some (String.ofList (block ((Frame.event row).fields formats))) := by
  have hid : (event_to_envelope formats row).lookup "id" = some (.int row.id) := rfl
  have htype : (event_to_envelope formats row).lookup "event_type" =
      some (.string row.event_type.value) := rfl
  simp only [encode_sse_event, hid, htype, bind, Option.bind, pure, Formats.str, Option.some_inj]
  rw [← String.toList_inj]
  simp [Frame.fields, block, field_text, toString_string]

private theorem Frame.text_eq (frame : Frame F) :
    frame.text formats = some (String.ofList (block (frame.fields formats))) := by
  cases frame with
  | retry => simp [Frame.text, Frame.fields, block, field_text]
  | event row => exact encode_envelope row
  | heartbeat now =>
    unfold Frame.text encode_heartbeat Frame.fields
    dsimp only
    generalize dumps formats.floats _ = data
    rw [Option.some_inj, ← String.toList_inj]
    simp [block, field_text, toString_string]
  | reset reason =>
    unfold Frame.text Frame.fields
    dsimp only
    generalize dumps formats.floats _ = data
    rw [Option.some_inj, ← String.toList_inj]
    simp [block, field_text, toString_string]

private theorem plain_data (value : Value F) : ∀ c ∈ (dumps formats.floats value).toList, c ≠ '\r' ∧ c ≠ '\n' := by
  intro c hc
  have hprintable := printable_dumps value hc
  constructor <;> rintro rfl <;> exact absurd hprintable (by decide)

private theorem plain_id (id : Int) : ∀ c ∈ (toString id).toList, c ≠ '\r' ∧ c ≠ '\n' := by
  intro c hc
  have hprintable := printable_int hc
  constructor <;> rintro rfl <;> exact absurd hprintable (by decide)

private theorem plain_type (event_type : EventType) : ∀ c ∈ event_type.value.toList, c ≠ '\r' ∧ c ≠ '\n' := by
  cases event_type <;> simp [EventType.value]

private theorem Frame.plain (frame : Frame F) : Plain (frame.fields formats) := by
  have hname : ∀ name ∈ ["id", "event", "data", "retry"], ∀ c ∈ name.toList, c ≠ '\r' ∧ c ≠ '\n' ∧ c ≠ ':' := by
    simp
  cases frame with
  | retry =>
    simp [Frame.fields, Plain]
  | event row =>
    simp only [Frame.fields, Plain, List.forall_mem_cons]
    exact ⟨⟨hname _ (by simp), plain_id _⟩, ⟨hname _ (by simp), plain_type _⟩,
      ⟨hname _ (by simp), plain_data _⟩, by simp⟩
  | heartbeat now =>
    simp only [Frame.fields, Plain, List.forall_mem_cons]
    exact ⟨⟨hname _ (by simp), by simp⟩, ⟨hname _ (by simp), plain_data _⟩, by simp⟩
  | reset reason =>
    simp only [Frame.fields, Plain, List.forall_mem_cons]
    exact ⟨⟨hname _ (by simp), by simp⟩, ⟨hname _ (by simp), plain_data _⟩, by simp⟩

/-- The message of an event. -/
def message (formats : Formats F) (row : EventResponse F) : Message :=
  ⟨toString row.id, row.event_type.value,
    dumps formats.floats (.object (event_to_envelope formats row))⟩

def event_types : List EventType :=
  [.SESSION_STATUS, .RUN_STARTED, .ASSISTANT_DELTA, .ASSISTANT_MESSAGE, .TOOL_STARTED, .TOOL_RESULT,
    .SCREENSHOT_AVAILABLE, .RUN_COMPLETED, .RUN_FAILED]

/-- A client listens to the events by their types; `heartbeat` and `stream.reset`
are none of them. -/
def persisted (message : Message) : Bool := event_types.any fun event_type => event_type.value = message.event

private theorem persisted_message (row : EventResponse F) : persisted (message formats row) = true := by
  rw [persisted, List.any_eq_true]
  refine ⟨row.event_type, ?_, by simp [message]⟩
  cases row.event_type <;> simp [event_types]

def Frame.event? : Frame F → Option (EventResponse F)
  | .event row => some row
  | .retry | .heartbeat _ | .reset _ => none

/-- A client between two blocks. -/
structure Fresh (s : State) : Prop where
  event : s.event = []
  data : s.data = []

private theorem fields_retry {s : State} :
    s.fields [("retry", "2000")] = { s with retry := "2000".toNat? } := by
  rw [State.fields, List.foldl_cons, List.foldl_nil, field_retry _ _ (by decide), String.ofList_toList]

private theorem fields_event {s : State} (name data : String) :
    s.fields [("event", name), ("data", data)] =
      { s with event := name.toList, data := s.data ++ data.toList ++ ['\n'] } := by
  simp only [State.fields, List.foldl_cons, List.foldl_nil, field_event, field_data]

private theorem fields_id {s : State} {id : String} (hid : '\x00' ∉ id.toList) (fields : Fields) :
    s.fields (("id", id) :: fields) = ({ s with id := id.toList } : State).fields fields := by
  rw [State.fields, List.foldl_cons, field_id _ _ hid, State.fields]

private theorem dispatch_event {s : State} (hs : Fresh s) {name : String} (hname : name ≠ "") (data : String) :
    (s.fields [("event", name), ("data", data)]).dispatch =
      ([⟨String.ofList s.id, name, data⟩], s) := by
  have hevent : name.toList ≠ [] := by simpa using hname
  obtain ⟨id, event, before, retry⟩ := s
  obtain ⟨rfl, rfl⟩ := hs
  rw [fields_event, List.nil_append, State.dispatch, if_neg (by simp)]
  simp only [if_neg hevent, String.ofList_toList, List.dropLast_concat]

/-- One frame hands over the message of its event, and no other one of its kind.
Comments and retry intervals hand over nothing. -/
theorem Frame.dispatch {s : State} (hs : Fresh s) (frame : Frame F) :
    Fresh (s.fields (frame.fields formats)).dispatch.2 ∧
      (s.fields (frame.fields formats)).dispatch.1.filter persisted =
        (frame.event?.map (message formats)).toList := by
  cases frame with
  | retry =>
    rw [Frame.fields, fields_retry, State.dispatch, if_pos hs.data]
    exact ⟨⟨rfl, hs.data⟩, rfl⟩
  | event row =>
    have hid : '\x00' ∉ (toString row.id).toList := fun h => absurd (printable_int h) (by decide)
    have hname : row.event_type.value ≠ "" := by cases row.event_type <;> decide
    have hs' : Fresh { s with id := (toString row.id).toList } := ⟨hs.event, hs.data⟩
    rw [Frame.fields, fields_id hid, dispatch_event hs' hname]
    refine ⟨hs', ?_⟩
    have hmessage : (⟨String.ofList (toString row.id).toList, row.event_type.value,
        dumps formats.floats (.object (event_to_envelope formats row))⟩ : Message) = message formats row := by
      rw [String.ofList_toList]
      rfl
    rw [hmessage, List.filter_singleton, persisted_message]
    rfl
  | heartbeat now =>
    rw [Frame.fields, dispatch_event hs (by decide)]
    exact ⟨hs, by simp [persisted, event_types, EventType.value, Frame.event?]⟩
  | reset reason =>
    rw [Frame.fields, dispatch_event hs (by decide)]
    exact ⟨hs, by simp [persisted, event_types, EventType.value, Frame.event?]⟩

/-- Frame after frame, a reader of the stream hands over the messages of its events,
whatever heartbeats and retry lines stand between them. -/
theorem interpret_frames (frames : List (Frame F)) {s : State} (hs : Fresh s) :
    (s.interpret (lines [] (frames.flatMap fun frame => block (frame.fields formats)))).filter persisted =
      (frames.filterMap Frame.event?).map (message formats) := by
  induction frames generalizing s with
  | nil => rfl
  | cons frame frames ih =>
    obtain ⟨hfresh, hmessages⟩ :
        Fresh (s.fields (frame.fields formats)).dispatch.2 ∧ _ = (frame.event?.map (message formats)).toList :=
      frame.dispatch hs
    rw [List.flatMap_cons, interpret_block frame.plain, List.filter_append, hmessages, ih hfresh]
    cases hevent : frame.event? <;> simp [hevent]

/-- The text a stream yields for these frames. -/
def stream_text (formats : Formats F) (frames : List (Frame F)) : Option String :=
  (frames.mapM (Frame.text formats)).map String.join

private theorem stream_text_eq (frames : List (Frame F)) :
    stream_text formats frames =
      some (String.ofList (frames.flatMap fun frame => block (frame.fields formats))) := by
  have htexts : frames.mapM (Frame.text formats) =
      some (frames.map fun frame => String.ofList (block (frame.fields formats))) := by
    rw [funext Frame.text_eq]
    exact List.mapM_pure
  rw [stream_text, htexts, Option.map_some, Option.some_inj, ← String.toList_inj, String.toList_join]
  simp [List.flatMap_map]

/-- The text of a stream is read as the messages of its events, whatever heartbeats and
intervals stand between them. -/
theorem parse_stream_text (frames : List (Frame F)) :
    (stream_text formats frames).map (fun text => (parse text).filter persisted) =
      some ((frames.filterMap Frame.event?).map (message formats)) := by
  have hmark : (frames.flatMap fun frame => block (frame.fields formats)).head? ≠ some '\ufeff' := by
    cases frames with
    | nil => simp
    | cons frame frames => cases frame <;> simp [block, Frame.fields, field_text]
  rw [stream_text_eq, Option.map_some, parse, String.toList_ofList, if_neg hmark]
  exact congrArg some (interpret_frames frames ⟨rfl, rfl⟩)

/-- What a client reads in a message is this event. -/
structure Reads (formats : Formats F) (loads : String → Option (Value F)) (message : Message)
    (row : EventResponse F) : Prop where
  id : message.id = toString row.id
  event : message.event = row.event_type.value
  data : loads message.data = some (.object (event_to_envelope formats row))

/-- A client reads the events out of a stream, in their order and nothing else of
their types; and an event has the same frame whether the stream has it from the
database or from the broker. -/
theorem stream_reads_back (loads : String → Option (Value F)) (frames : List (Frame F))
    (hloads : ∀ row, .event row ∈ frames →
      loads (dumps formats.floats (.object (event_to_envelope formats row))) =
        some (.object (event_to_envelope formats row))) :
    (∃ text, stream_text formats frames = some text ∧
      List.Forall₂ (Reads formats loads) ((parse text).filter persisted) (frames.filterMap Frame.event?)) ∧
    ∀ row, .event row ∈ frames →
      ∃ event, get loads (publish formats (event_to_envelope formats row)) = some (some event) ∧
        encode_sse_event formats event = (Frame.event row).text formats := by
  refine ⟨⟨_, stream_text_eq frames, ?_⟩, fun row hrow => ⟨_, ?_, rfl⟩⟩
  · have hparse : (stream_text formats frames).map _ = some _ := parse_stream_text frames
    rw [stream_text_eq, Option.map_some, Option.some_inj] at hparse
    rw [hparse, List.forall₂_map_left_iff, List.forall₂_same]
    intro row hrow
    obtain ⟨frame, hframe, hevent⟩ := List.mem_filterMap.mp hrow
    cases frame <;> cases hevent
    exact ⟨rfl, rfl, hloads row hframe⟩
  · simp [get, publish, hloads row hrow]

/-- A payload with line breaks, between a retry interval and a heartbeat. -/
theorem stream_reads_back_breaks :
    let formats : Formats Empty :=
      { floats := { repr := nofun, plain := nofun }, isoformat := fun _ => "2026-01-01T00:00:00Z", repr := fun _ => "" }
    let row : EventResponse Empty :=
      { id := 42, session_id := 1, run_id := none, event_type := .ASSISTANT_MESSAGE
        payload := [("text", .string "a\n\r\n\ndata: \"b\""), ("n", .array [.int (-1), .null])]
        created_at := 0 }
    let value : Value Empty := .object (event_to_envelope formats row)
    let loads (text : String) : Option (Value Empty) :=
      if text = dumps formats.floats value then some value else none
    ∃ text, stream_text formats [.retry, .event row, .heartbeat 0] = some text ∧
      List.Forall₂ (Reads formats loads) ((parse text).filter persisted) [row] := by
  intro formats row value loads
  have hloads : ∀ row', .event row' ∈ [Frame.retry, .event row, .heartbeat 0] →
      loads (dumps formats.floats (.object (event_to_envelope formats row'))) =
        some (.object (event_to_envelope formats row')) := by
    intro row' hrow
    obtain rfl : row' = row := by simpa using hrow
    exact if_pos rfl
  exact (stream_reads_back loads [.retry, .event row, .heartbeat 0] hloads).1

end Read

end frames

end session_manager
