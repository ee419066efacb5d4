import SessionManager.Agents.RemoteTools
import SessionManager.Domain

namespace session_manager

/-- An instance of `int`: a number or, as `bool` is a subclass of `int`, a boolean. -/
inductive PyInt
  | int (i : Int)
  | bool (b : Bool)
deriving DecidableEq, Repr

namespace PyInt

/-- What arithmetic and comparisons take the value for. -/
def val : PyInt → Int
  | int i => i
  | bool b => if b then 1 else 0

/-- `str` -/
def str : PyInt → String
  | int i => toString i
  | bool true => "True"
  | bool false => "False"

def is_bool : PyInt → Bool
  | int _ => false
  | bool _ => true

end PyInt

namespace Json

/-- The value as an `int`, where `isinstance(value, int)` holds. -/
def int? : Json → Option PyInt
  | int i => some (.int i)
  | bool b => some (.bool b)
  | null | number _ | string _ | array _ | object _ => none

def truthy : Json → Bool
  | null => false
  | bool b => b
  | int i => i ≠ 0
  | number x => x ≠ 0
  | string s => s ≠ ""
  | array items => !items.isEmpty
  | object members => !members.isEmpty

/-- `str`; `repr` is that of a float, a list or a dict. -/
def str (repr : Json → String) : Json → String
  | null => "None"
  | bool b => (PyInt.bool b).str
  | int i => (PyInt.int i).str
  | string s => s
  | value => repr value

end Json

/-- `text or None` -/
def or_none (text : String) : Option String := if text = "" then none else some text

/-- A text that is not empty is kept. -/
theorem or_none_of_ne_empty {text : String} (h : text ≠ "") : or_none text = some text := if_neg h

/-- A string is true in a condition unless it is empty. -/
@[simp] theorem truthy_some (text : String) : truthy (some text) = decide (text ≠ "") := rfl

@[simp] theorem truthy_none : truthy none = false := rfl

/-- `text or None` is true in a condition unless the text is empty. -/
@[simp] theorem truthy_or_none (text : String) : truthy (or_none text) = decide (text ≠ "") := by
  unfold or_none
  split <;> simp_all

/-- `(text or None) or ""` is the text again. -/
@[simp] theorem getD_or_none (text : String) : (or_none text).getD "" = text := by
  unfold or_none
  split <;> simp_all

/-- What begins with a text that is not empty is not empty: messages with a fixed
beginning are always shown. -/
theorem append_ne_empty {s t : String} (h : s ≠ "") : s ++ t ≠ "" := by
  simp [h]

/-- `text or default` is truthy, if the default is: an error without a text of its own
still counts as one. -/
theorem truthy_or_default (text : String) {default : String} (h : default ≠ "") :
    truthy (or_none text <|> some default) = true := by
  unfold or_none
  split <;> simp_all

namespace utf8

/-- Within a character: its bits so far, how many bytes follow the next one, and
the range the next one has to lie in. -/
structure Pending where
  bits : Nat
  remaining : Nat := 0
  low : Nat := 0x80
  high : Nat := 0xbf
deriving DecidableEq, Repr

def replacement : Char := '\ufffd'

/-- A byte between two characters: what it decodes to, and what it begins. -/
def first (b : Nat) : List Char × Option Pending :=
  if b ≤ 0x7f then ([Char.ofNat b], none)
  else if 0xc2 ≤ b ∧ b ≤ 0xdf then ([], some { bits := b - 0xc0 })
  else if b = 0xe0 then ([], some { bits := 0, remaining := 1, low := 0xa0 })
  else if b = 0xed then ([], some { bits := 0xd, remaining := 1, high := 0x9f })
  else if 0xe1 ≤ b ∧ b ≤ 0xef then ([], some { bits := b - 0xe0, remaining := 1 })
  else if b = 0xf0 then ([], some { bits := 0, remaining := 2, low := 0x90 })
  else if 0xf1 ≤ b ∧ b ≤ 0xf3 then ([], some { bits := b - 0xf0, remaining := 2 })
  else if b = 0xf4 then ([], some { bits := 4, remaining := 2, high := 0x8f })
  else ([replacement], none)

/-- A byte that breaks off a character has that character replaced, and begins anew. -/
def next : Option Pending → Nat → List Char × Option Pending
  | none, b => first b
  | some pending, b =>
    if pending.low ≤ b ∧ b ≤ pending.high then
      let bits := pending.bits * 64 + (b - 0x80)
      match pending.remaining with
      | 0 => ([Char.ofNat bits], none)
      | remaining + 1 => ([], some { bits, remaining })
    else (replacement :: (first b).1, (first b).2)

def decode_from : Option Pending → List UInt8 → List Char
  | none, [] => []
  | some _, [] => [replacement]
  | pending, b :: bytes =>
    (next pending b.toNat).1 ++ decode_from (next pending b.toNat).2 bytes

/-- `bytes.decode(errors="replace")` -/
def decode (bytes : List UInt8) : String := String.ofList (decode_from none bytes)

example : decode [0x68, 0xe4, 0xbd, 0xa0, 0xff, 0xf0, 0x9f, 0x98, 0x21, 0xe2, 0x82] =
    "h你\ufffd\ufffd!\ufffd" := by decide +kernel

end utf8

namespace ascii

/-- `bytes.decode("ascii")`, with the message of the UnicodeDecodeError. -/
def decode_from (position : Nat) : List UInt8 → Except String (List Char)
  | [] => .ok []
  | b :: bytes =>
    if b.toNat < 128 then (decode_from (position + 1) bytes).map (Char.ofNat b.toNat :: ·)
    else
      let byte := String.ofList (Nat.toDigits 16 b.toNat)
      .error s!"'ascii' codec can't decode byte 0x{byte} in position {position}: ordinal not in range(128)"

def decode (bytes : List UInt8) : Except String String := (decode_from 0 bytes).map String.ofList

/-- The bytes that can be decoded. -/
def valid (bytes : List UInt8) : Bool := bytes.all fun b => b.toNat < 128

private theorem decode_from_isOk (position : Nat) (bytes : List UInt8) :
    (decode_from position bytes).isOk = valid bytes := by
  induction bytes generalizing position with
  | nil => rfl
  | cons b bytes ih =>
    have hrest := ih (position + 1)
    unfold decode_from
    by_cases hb : b.toNat < 128
    · rw [if_pos hb]
      cases hdecode : decode_from (position + 1) bytes with
      | ok chars =>
        rw [hdecode] at hrest
        simpa [valid, hb, Except.map, Except.isOk, Except.toBool] using hrest
      | error message =>
        rw [hdecode] at hrest
        simpa [valid, hb, Except.map, Except.isOk, Except.toBool] using hrest
    · rw [if_neg hb]
      simp [valid, hb, Except.isOk, Except.toBool]

/-- ASCII text can be decoded just when every byte of it is below 128, and raises
UnicodeDecodeError otherwise. -/
theorem decode_isOk (bytes : List UInt8) : (decode bytes).isOk = valid bytes := by
  rw [← decode_from_isOk 0 bytes, decode]
  cases decode_from 0 bytes <;> rfl

end ascii

namespace shlex

/-- The characters that have no meaning for a shell. -/
def safe (c : Char) : Bool := c.isAlphanum || "-_@%+=:,./".toList.contains c

/-- `shlex.quote` -/
def quote (s : String) : String :=
  if s = "" then "''"
  else if s.toList.all safe then s
  else
    let quoted := String.ofList (s.toList.flatMap fun c => if c = '\x27' then "'\"'\"'".toList else [c])
    s!"'{quoted}'"

end shlex

end session_manager
