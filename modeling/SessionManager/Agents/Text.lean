import Mathlib.Data.Bool.AllAny
import Mathlib.Data.List.DropRight
import SessionManager.Agents.RemoteTools
import SessionManager.Library.Regex

namespace session_manager

/-- `str.isspace` of one character, which is also `\s` in a pattern. -/
def isspace (c : Char) : Bool :=
  let n := c.toNat
  9 ≤ n && n ≤ 13 || 28 ≤ n && n ≤ 32 || n = 0x85 || n = 0xa0 || n = 0x1680 ||
    0x2000 ≤ n && n ≤ 0x200a || n = 0x2028 || n = 0x2029 || n = 0x202f || n = 0x205f || n = 0x3000

/-- `str.strip` -/
def strip (s : String) : String := String.ofList ((s.toList.dropWhile isspace).rdropWhile isspace)

/-- `html.escape` of one character. -/
def escape_char (c : Char) : String :=
  if c = '&' then "&amp;"
  else if c = '<' then "&lt;"
  else if c = '>' then "&gt;"
  else if c = '"' then "&quot;"
  else if c = '\x27' then "&#x27;"
  else String.singleton c

/-- `html.escape` -/
def escape (s : String) : String := String.ofList (s.toList.flatMap fun c => (escape_char c).toList)

def specials : List Char := ['&', '<', '>', '"', '\x27']

/-- What the special characters become. -/
def entities : List String := ["&amp;", "&lt;", "&gt;", "&quot;", "&#x27;"]

/-- A character is either special and becomes an entity, or becomes itself. The facts
about `html.escape` follow from these two cases. -/
theorem escape_char_cases (c : Char) :
    c ∈ specials ∧ escape_char c ∈ entities ∨ c ∉ specials ∧ escape_char c = String.singleton c := by
  by_cases hspecial : c ∈ specials
  · have hall : ∀ c ∈ specials, escape_char c ∈ entities := List.all_iff_forall_prop.mp (by decide)
    exact .inl ⟨hspecial, hall c hspecial⟩
  · have hne := hspecial
    simp only [specials, List.mem_cons, List.not_mem_nil, or_false, not_or] at hne
    exact .inr ⟨hspecial, by simp [escape_char, hne]⟩

/-- An escaped text has no angle bracket and no quote, so nothing in it is taken for a
tag or for the end of a name. -/
theorem not_special_of_escape {s : String} {c : Char} (h : c ∈ (escape s).toList) :
    c ∉ ['<', '>', '"', '\x27'] := by
  simp only [escape, String.toList_ofList, List.mem_flatMap] at h
  obtain ⟨d, -, hc⟩ := h
  rcases escape_char_cases d with ⟨-, hentity⟩ | ⟨hplain, heq⟩
  · revert c
    have hall : ∀ e ∈ entities, ∀ c ∈ e.toList, c ∉ ['<', '>', '"', '\x27'] := by
      simp [entities]
    exact fun c hc => hall _ hentity c hc
  · simp only [heq, String.toList_singleton, List.mem_singleton] at hc
    subst hc
    exact fun hmem => hplain (List.mem_cons_of_mem _ hmem)

/-- Trimming commutes with a map that keeps the characters to trim and turns no
other into one at either end. -/
theorem dropWhile_flatMap {α : Type} {p : α → Bool} {f : α → List α} (hkeep : ∀ c, p c = true → f c = [c])
    (hother : ∀ c, p c = false → ∃ d s, f c = d :: s ∧ p d = false) (l : List α) :
    (l.flatMap f).dropWhile p = (l.dropWhile p).flatMap f := by
  induction l with
  | nil => rfl
  | cons c l ih =>
    by_cases hc : p c = true
    · simp [hkeep c hc, hc, ih]
    · obtain ⟨d, s, hf, hd⟩ := hother c (by simpa using hc)
      simp [hc, hf, hd]

/-- Trimming at the end of the list commutes with such a map as well. -/
theorem rdropWhile_flatMap {α : Type} {p : α → Bool} {f : α → List α} (hkeep : ∀ c, p c = true → f c = [c])
    (hother : ∀ c, p c = false → ∃ d s, f c = s ++ [d] ∧ p d = false) (l : List α) :
    (l.flatMap f).rdropWhile p = (l.rdropWhile p).flatMap f := by
  unfold List.rdropWhile
  rw [List.reverse_flatMap, dropWhile_flatMap (f := List.reverse ∘ f), List.reverse_flatMap]
  · simp [Function.comp_def]
  · exact fun c hc => by simp [hkeep c hc]
  · intro c hc
    obtain ⟨d, s, hf, hd⟩ := hother c hc
    exact ⟨d, s.reverse, by simp [hf], hd⟩

/-- White space is not special: `html.escape` leaves it as it is. -/
theorem escape_char_of_isspace {c : Char} (h : isspace c = true) : escape_char c = String.singleton c := by
  rcases escape_char_cases c with ⟨hspecial, -⟩ | ⟨-, heq⟩
  · have hall : ∀ c ∈ specials, isspace c = false := List.all_iff_forall_prop.mp (by decide)
    simp [hall c hspecial] at h
  · exact heq

/-- What a character other than white space becomes starts and ends with one, so
escaping makes nothing new to strip. -/
theorem escape_char_ends {c : Char} (h : isspace c = false) :
    (∃ d s, (escape_char c).toList = d :: s ∧ isspace d = false) ∧
      ∃ d s, (escape_char c).toList = s ++ [d] ∧ isspace d = false := by
  rcases escape_char_cases c with ⟨-, hentity⟩ | ⟨-, heq⟩
  · have hall : ∀ e ∈ entities, e.toList.head? = some '&' ∧ e.toList.getLast? = some ';' := by decide
    obtain ⟨hhead, hlast⟩ := hall _ hentity
    obtain ⟨s, hs⟩ := List.head?_eq_some_iff.mp hhead
    obtain ⟨s', hs'⟩ := List.getLast?_eq_some_iff.mp hlast
    exact ⟨⟨'&', s, hs, by decide⟩, ⟨';', s', hs', by decide⟩⟩
  · exact ⟨⟨c, [], by simp [heq], h⟩, ⟨c, [], by simp [heq], h⟩⟩

/-- Stripping and escaping commute, so it does not matter which of the two a parameter
saw first. -/
theorem strip_escape (s : String) : strip (escape s) = escape (strip s) := by
  have hkeep : ∀ c, isspace c = true → (escape_char c).toList = [c] := fun c hc => by
    simp [escape_char_of_isspace hc]
  simp only [strip, escape, String.toList_ofList]
  rw [dropWhile_flatMap hkeep fun c hc => (escape_char_ends hc).1,
    rdropWhile_flatMap hkeep fun c hc => (escape_char_ends hc).2]

/-- A text that is stripped already has nothing left to strip. -/
theorem strip_strip (s : String) : strip (strip s) = strip s := by
  simp only [strip, String.toList_ofList]
  have hhead : ((s.toList.dropWhile isspace).rdropWhile isspace).dropWhile isspace =
      (s.toList.dropWhile isspace).rdropWhile isspace := by
    obtain ⟨tail, htail⟩ := List.rdropWhile_prefix isspace (s.toList.dropWhile isspace)
    cases hstripped : (s.toList.dropWhile isspace).rdropWhile isspace with
    | nil => rfl
    | cons c l =>
      have hnot := List.head?_dropWhile_not isspace s.toList
      rw [← htail, hstripped] at hnot
      rw [List.dropWhile_cons_of_neg (by simpa using hnot)]
  rw [hhead, List.rdropWhile_idempotent]

namespace anthropic

open Regex remote_tools

/-- How `re.IGNORECASE` compares a character with a lower case letter of a
pattern: by simple case folding, with the three letters outside ASCII that fold
to `i`, `s` and `k`. -/
def ignorecase (letter c : Char) : Bool :=
  c = letter || c = letter.toUpper || letter = 'i' && (c = 'İ' || c = 'ı') ||
    letter = 's' && c = 'ſ' || letter = 'k' && c = '\u212a'

def tag (w : String) : Regex := literal ignorecase w.toList

def quote (c : Char) : Bool := c = '"' || c = '\x27'

/-- `(.*?)` under `re.DOTALL`. -/
def anything : Regex := group (many false fun _ => true)

/-- `[...]\s+name=["\']([^"\']+)["\']>` -/
def named (w : String) : Regex :=
  seq (tag w) (seq (plus isspace) (seq (tag "name=") (seq (char quote)
    (seq (group (plus fun c => !quote c)) (seq (char quote) (tag ">"))))))

def FUNCTION_CALLS_PATTERN : Regex :=
  seq (tag "<function_calls>") (seq anything (tag "</function_calls>"))

def INVOKE_PATTERN : Regex := seq (named "<invoke") (seq anything (tag "</invoke>"))

def PARAMETER_PATTERN : Regex := seq (named "<parameter") (seq anything (tag "</parameter>"))

/-- What `html.unescape` and `json.loads` raise. An integer of more digits than
`int` converts is a ValueError, and nesting deeper than the stack a
RecursionError: neither is a JSONDecodeError. -/
inductive DecodeException
  | JSONDecodeError
  | ValueError
  | RecursionError
deriving DecidableEq, Repr

/-- The functions of the standard library that decode a textual call. -/
structure Decoder where
  unescape : String → Except DecodeException String
  loads : String → Except DecodeException Json

namespace Decoder

variable (decoder : Decoder)

/-- `json.loads` with the handler of `_parse_parameter`, which catches nothing but
JSONDecodeError. -/
def load (decoded : String) : Except DecodeException Json :=
  match decoder.loads decoded with
  | .error .JSONDecodeError => .ok (.string decoded)
  | loaded => loaded

def _parse_parameter (value : String) : Except DecodeException Json := do
  let decoded ← decoder.unescape (strip value)
  decoder.load decoded

/-- What `findall` yields for a pattern with one group. -/
def texts (pattern : Regex) (text : String) : List String :=
  (pattern.findall text.toList).flatMap fun groups => groups.map String.ofList

/-- What `findall` yields for a pattern with two groups. -/
def pairs (pattern : Regex) (text : String) : List (String × String) :=
  (pattern.findall text.toList).filterMap fun
    | [raw_name, body] => some (String.ofList raw_name, String.ofList body)
    | _ => none

/-- One item of the dict of an invoke element. -/
def _parse_item (raw_key raw_value : String) : Except DecodeException (String × Json) := do
  let key ← decoder.unescape (strip raw_key)
  let value ← decoder._parse_parameter raw_value
  return (key, value)

def _parse_invoke (raw_name invoke_body : String) : Except DecodeException Call := do
  let name ← decoder.unescape (strip raw_name)
  let items ← (pairs PARAMETER_PATTERN invoke_body).mapM fun (raw_key, raw_value) =>
    decoder._parse_item raw_key raw_value
  return { name, input := .ofPairs items }

/-- The invoke elements of all blocks, one after the other: what one of them raises
leaves the parser. -/
def _parse_text_tool_calls (text : String) : Except DecodeException (List Call) :=
  ((texts FUNCTION_CALLS_PATTERN text).flatMap fun function_body => pairs INVOKE_PATTERN function_body).mapM
    fun (raw_name, invoke_body) => decoder._parse_invoke raw_name invoke_body

end Decoder

end anthropic

end session_manager
