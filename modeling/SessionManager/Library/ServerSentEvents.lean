import Mathlib.Data.List.Basic

namespace server_sent_events

/-- What a client is handed. -/
structure Message where
  id : String
  event : String
  data : String
deriving DecidableEq, Repr

/-- The buffers of a client between two lines, and its reconnection time. -/
structure State where
  id : List Char := []
  event : List Char := []
  data : List Char := []
  retry : Option Nat := none
deriving DecidableEq, Repr

/-- The lines of a text that begins with `line`. A line ends at CR, LF or CRLF;
what the end of the text cuts off is no line. -/
def lines (line : List Char) : List Char → List (List Char)
  | [] => []
  | '\r' :: '\n' :: text => line :: lines [] text
  | c :: text => if c = '\r' ∨ c = '\n' then line :: lines [] text else lines (line ++ [c]) text

namespace State

def field (s : State) (name value : List Char) : State :=
  if name = "event".toList then { s with event := value }
  else if name = "data".toList then { s with data := s.data ++ value ++ ['\n'] }
  else if name = "id".toList then if '\x00' ∈ value then s else { s with id := value }
  else if name = "retry".toList then
    if value.all Char.isDigit then { s with retry := (String.ofList value).toNat? } else s
  else s

/-- A blank line: a message with the data so far, if there is any. -/
def dispatch (s : State) : List Message × State :=
  if s.data = [] then ([], { s with event := [] })
  else
    let event := if s.event = [] then "message" else String.ofList s.event
    ([⟨String.ofList s.id, event, String.ofList s.data.dropLast⟩], { s with event := [], data := [] })

/-- A name, a colon, and a value after at most one space. A comment has no name. -/
def read (s : State) (line : List Char) : List Message × State :=
  if line = [] then s.dispatch
  else
    let value := (line.dropWhile (· ≠ ':')).drop 1
    let value := if value.head? = some ' ' then value.drop 1 else value
    ([], s.field (line.takeWhile (· ≠ ':')) value)

def interpret (s : State) : List (List Char) → List Message
  | [] => []
  | line :: lines => (s.read line).1 ++ (s.read line).2.interpret lines

end State

/-- The messages of a stream, which a byte order mark may precede. -/
def parse (text : String) : List Message :=
  let text := if text.toList.head? = some '\ufeff' then text.toList.drop 1 else text.toList
  State.interpret {} (lines [] text)

example : parse ": hi\r\nid: 7\ndata:a\ndata: b\r\revent: x\nignored\n\ndata\n\nid: 8\ndata: cut" =
    [⟨"7", "message", "a\nb"⟩, ⟨"7", "message", ""⟩] := by decide +kernel

/-- Fields of a block, by name and value. -/
abbrev Fields := List (String × String)

def field_text : String × String → List Char
  | (name, value) => name.toList ++ ':' :: ' ' :: value.toList ++ ['\n']

/-- The text of these fields and a blank line. -/
def block (fields : Fields) : List Char := fields.flatMap field_text ++ ['\n']

/-- Nothing in the fields can be taken for the end of a line or of a name. -/
def Plain (fields : Fields) : Prop :=
  ∀ f ∈ fields, (∀ c ∈ f.1.toList, c ≠ '\r' ∧ c ≠ '\n' ∧ c ≠ ':') ∧ ∀ c ∈ f.2.toList, c ≠ '\r' ∧ c ≠ '\n'

def State.fields (s : State) (fields : Fields) : State :=
  fields.foldl (fun s f => s.field f.1.toList f.2.toList) s

section Field

variable (s : State) (value : List Char)

/-- The field `event` names the type of the message; the last such field counts. -/
theorem field_event : s.field "event".toList value = { s with event := value } := if_pos rfl

/-- The field `data` adds a line to the data, with a line break behind it. -/
theorem field_data : s.field "data".toList value = { s with data := s.data ++ value ++ ['\n'] } := by
  rw [State.field, if_neg (by decide), if_pos rfl]

/-- The field `id` sets the last event id, which stays set for the messages after it. -/
theorem field_id (hvalue : '\x00' ∉ value) : s.field "id".toList value = { s with id := value } := by
  rw [State.field, if_neg (by decide), if_neg (by decide), if_pos rfl, if_neg hvalue]

/-- The field `retry` sets the time before another attempt to connect, and makes no
message. -/
theorem field_retry (hvalue : value.all Char.isDigit = true) :
    s.field "retry".toList value = { s with retry := (String.ofList value).toNat? } := by
  rw [State.field, if_neg (by decide), if_neg (by decide), if_neg (by decide), if_pos rfl, if_pos hvalue]

end Field

private theorem lines_line {line text : List Char} (before : List Char)
    (hline : ∀ c ∈ line, c ≠ '\r' ∧ c ≠ '\n') :
    lines before (line ++ '\n' :: text) = (before ++ line) :: lines [] text := by
  induction line generalizing before with
  | nil => simp [lines]
  | cons c line ih =>
    obtain ⟨hcr, hlf⟩ := hline c List.mem_cons_self
    have hstep : lines before (c :: (line ++ '\n' :: text)) =
        lines (before ++ [c]) (line ++ '\n' :: text) := by
      rw [lines, if_neg (by simp [hcr, hlf])]
      rintro text' rfl
      exact absurd rfl hcr
    rw [List.cons_append, hstep, ih _ fun c hc => hline c (List.mem_cons_of_mem _ hc)]
    simp

private theorem State.read_field (s : State) {name value : String}
    (hname : ∀ c ∈ name.toList, c ≠ ':') :
    s.read (name.toList ++ ':' :: ' ' :: value.toList) = ([], s.field name.toList value.toList) := by
  have htake : (name.toList ++ ':' :: ' ' :: value.toList).takeWhile (· ≠ ':') = name.toList := by
    rw [List.takeWhile_append_of_pos (by simpa using hname)]
    simp
  have hdrop : (name.toList ++ ':' :: ' ' :: value.toList).dropWhile (· ≠ ':') =
      ':' :: ' ' :: value.toList := by
    rw [List.dropWhile_append_of_pos (by simpa using hname)]
    simp
  rw [read, if_neg (by simp), htake, hdrop]
  simp

private theorem interpret_fields {fields : Fields} (hplain : Plain fields) (s : State) (text : List Char) :
    s.interpret (lines [] (fields.flatMap field_text ++ text)) =
      (s.fields fields).interpret (lines [] text) := by
  induction fields generalizing s with
  | nil => rfl
  | cons f fields ih =>
    obtain ⟨hname, hvalue⟩ := hplain f List.mem_cons_self
    have hline : ∀ c ∈ f.1.toList ++ ':' :: ' ' :: f.2.toList, c ≠ '\r' ∧ c ≠ '\n' := by
      intro c hc
      simp only [List.mem_append, List.mem_cons] at hc
      rcases hc with hc | rfl | rfl | hc
      · exact ⟨(hname c hc).1, (hname c hc).2.1⟩
      · decide
      · decide
      · exact hvalue c hc
    have htext : List.flatMap field_text (f :: fields) ++ text =
        (f.1.toList ++ ':' :: ' ' :: f.2.toList) ++ '\n' :: (fields.flatMap field_text ++ text) := by
      simp [field_text]
    rw [htext, lines_line [] hline, List.nil_append, State.interpret,
      s.read_field fun c hc => (hname c hc).2.2, List.nil_append,
      ih (fun f hf => hplain f (List.mem_cons_of_mem _ hf))]
    rfl

/-- A block of plain fields is read as these fields and dispatched at its empty line,
whatever comes after it. -/
theorem interpret_block {fields : Fields} (hplain : Plain fields) (s : State) (text : List Char) :
    s.interpret (lines [] (block fields ++ text)) =
      (s.fields fields).dispatch.1 ++ (s.fields fields).dispatch.2.interpret (lines [] text) := by
  have htext : block fields ++ text = fields.flatMap field_text ++ ('\n' :: text) := by simp [block]
  rw [htext, interpret_fields hplain, lines, if_pos (.inr rfl), State.interpret]
  · rfl
  · simp

end server_sent_events
