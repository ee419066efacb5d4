import Mathlib.Data.List.Basic

namespace json

/-- A JSON value, over the finite floats `F`. -/
inductive Value (F : Type)
  | null
  | bool (b : Bool)
  | int (i : Int)
  | float (x : F)
  | string (s : String)
  | array (items : List (Value F))
  | object (members : List (String × Value F))

/-- The members of an object, in their order. -/
abbrev Members (F : Type) := List (String × Value F)

/-- How the writer prints a float. -/
structure FloatText (F : Type) where
  repr : F → String
  plain : ∀ x, ∀ c ∈ (repr x).toList, c ∈ "0123456789.e+-".toList

/-- The characters with an escape of two characters, and the second one of it. -/
def short : Char → Option Char
  | '"' => some '"'
  | '\\' => some '\\'
  | '\n' => some 'n'
  | '\r' => some 'r'
  | '\t' => some 't'
  | '\x08' => some 'b'
  | '\x0c' => some 'f'
  | _ => none

/-- A character inside a string: quotes, backslashes and control characters are
escaped, and nothing else is. -/
def escape (c : Char) : List Char :=
  match short c with
  | some d => ['\\', d]
  | none =>
    if c.toNat < 0x20 then
      ['\\', 'u', '0', '0', (c.toNat / 16).digitChar, (c.toNat % 16).digitChar]
    else [c]

def quoted (s : String) : List Char := '"' :: s.toList.flatMap escape ++ ['"']

section Write

variable {F : Type} (floats : FloatText F)

mutual

/-- The text of a value with no blanks between its tokens. -/
def chars : Value F → List Char
  | .null => "null".toList
  | .bool true => "true".toList
  | .bool false => "false".toList
  | .int i => (toString i).toList
  | .float x => (floats.repr x).toList
  | .string s => quoted s
  | .array items => '[' :: item_chars items ++ [']']
  | .object members => '{' :: member_chars members ++ ['}']

def item_chars : List (Value F) → List Char
  | [] => []
  | [item] => chars item
  | item :: items => chars item ++ ',' :: item_chars items

def member_chars : List (String × Value F) → List Char
  | [] => []
  | [member] => pair_chars member
  | member :: members => pair_chars member ++ ',' :: member_chars members

def pair_chars : String × Value F → List Char
  | (key, value) => quoted key ++ ':' :: chars value

end

def dumps (value : Value F) : String := String.ofList (chars floats value)

example : dumps (F := Empty) { repr := nofun, plain := nofun }
    (.object [("a\n", .array [.int (-3), .bool true, .null]), ("é\x01", .string "\"\\/")]) =
    "\x7b\"a\\n\":[-3,true,null],\"é\\u0001\":\"\\\"\\\\/\"\x7d" := by decide +kernel

end Write

/-- Not a control character. -/
def Printable (c : Char) : Prop := 0x20 ≤ c.toNat

instance (c : Char) : Decidable (Printable c) := inferInstanceAs (Decidable (_ ≤ _))

section Printable

variable {F : Type} {floats : FloatText F} {c : Char}

private theorem printable_of_isDigit (h : c.isDigit = true) : Printable c := by
  simp only [Char.isDigit, Bool.and_eq_true, decide_eq_true_eq, ge_iff_le] at h
  have hle : '0'.toNat ≤ c.toNat := h.1
  exact Nat.le_trans (by decide) hle

private theorem printable_digitChar {n : Nat} (hn : n < 16) : Printable n.digitChar := by
  have h : ∀ n < 16, Printable (Nat.digitChar n) := by decide
  exact h n hn

private theorem printable_short {d : Char} (h : short c = some d) : Printable d := by
  unfold short at h
  split at h <;> cases h <;> decide

private theorem printable_escape {c' : Char} (h : c' ∈ escape c) : Printable c' := by
  unfold escape at h
  split at h
  · rename_i d hshort
    rcases List.mem_pair.mp h with rfl | rfl
    · decide
    · exact printable_short hshort
  · split at h
    · have hhigh : Printable (c.toNat / 16).digitChar := printable_digitChar (by omega)
      have hlow : Printable (c.toNat % 16).digitChar := printable_digitChar (by omega)
      simp only [List.mem_cons, List.not_mem_nil, or_false] at h
      rcases h with rfl | rfl | rfl | rfl | rfl | rfl
      · decide
      · decide
      · decide
      · decide
      · exact hhigh
      · exact hlow
    · rename_i hprintable
      obtain rfl : c' = c := by simpa using h
      exact Nat.le_of_not_lt hprintable

private theorem printable_quoted {s : String} (h : c ∈ quoted s) : Printable c := by
  simp only [quoted, List.cons_append, List.mem_cons, List.mem_append, List.mem_flatMap,
    List.not_mem_nil, or_false] at h
  rcases h with rfl | ⟨c', -, hescape⟩ | rfl
  · decide
  · exact printable_escape hescape
  · decide

/-- The text of a number is printable. -/
theorem printable_int {i : Int} (h : c ∈ (toString i).toList) : Printable c := by
  have hnat : ∀ n : Nat, c ∈ n.repr.toList → Printable c := by
    intro n hn
    rw [Nat.toList_repr] at hn
    exact printable_of_isDigit (Nat.isDigit_of_mem_toDigits (by decide) (by decide) hn)
  cases i with
  | ofNat n => exact hnat n h
  | negSucc n =>
    have hrepr : toString (Int.negSucc n) = "-" ++ (n + 1).repr := rfl
    rw [hrepr, String.toList_append] at h
    rcases List.mem_append.mp h with hsign | hdigits
    · obtain rfl : c = '-' := by simpa using hsign
      decide
    · exact hnat _ hdigits

private theorem printable_float {x : F} (h : c ∈ (floats.repr x).toList) : Printable c := by
  have hplain : ∀ c ∈ "0123456789.e+-".toList, Printable c := by simp [Printable]
  exact hplain c (floats.plain x c h)

mutual

/-- The text of a value is printable, by recursion on the value and on the lists within
it. -/
theorem printable_chars : ∀ value : Value F, ∀ c ∈ chars floats value, Printable c
  | .null, c, h => by
    have hplain : ∀ c ∈ "null".toList, Printable c := by simp [Printable]
    exact hplain c h
  | .bool true, c, h => by
    have hplain : ∀ c ∈ "true".toList, Printable c := by simp [Printable]
    exact hplain c h
  | .bool false, c, h => by
    have hplain : ∀ c ∈ "false".toList, Printable c := by simp [Printable]
    exact hplain c h
  | .int _, _, h => printable_int h
  | .float _, _, h => printable_float h
  | .string _, _, h => printable_quoted h
  | .array items, c, h => by
    simp only [chars, List.cons_append, List.mem_cons, List.mem_append, List.not_mem_nil, or_false] at h
    rcases h with rfl | hitems | rfl
    · decide
    · exact printable_items items c hitems
    · decide
  | .object members, c, h => by
    simp only [chars, List.cons_append, List.mem_cons, List.mem_append, List.not_mem_nil, or_false] at h
    rcases h with rfl | hmembers | rfl
    · decide
    · exact printable_members members c hmembers
    · decide

/-- The lines of an array's items are printable: part of the mutual induction over
values behind `printable_chars`. -/
theorem printable_items : ∀ items : List (Value F), ∀ c ∈ item_chars floats items, Printable c
  | [item], c, h => printable_chars item c h
  | item :: item' :: items, c, h => by
    rcases List.mem_append.mp h with hitem | hrest
    · exact printable_chars item c hitem
    · rcases List.mem_cons.mp hrest with rfl | hitems
      · decide
      · exact printable_items (item' :: items) c hitems

/-- The members of an object are printable, by the same induction. -/
theorem printable_members : ∀ members : List (String × Value F), ∀ c ∈ member_chars floats members, Printable c
  | [member], c, h => printable_pair member c h
  | member :: member' :: members, c, h => by
    rcases List.mem_append.mp h with hmember | hrest
    · exact printable_pair member c hmember
    · rcases List.mem_cons.mp hrest with rfl | hmembers
      · decide
      · exact printable_members (member' :: members) c hmembers

/-- One member, its key and its value, is printable. -/
theorem printable_pair : ∀ member : String × Value F, ∀ c ∈ pair_chars floats member, Printable c
  | (_, value), c, h => by
    rcases List.mem_append.mp h with hkey | hrest
    · exact printable_quoted hkey
    · rcases List.mem_cons.mp hrest with rfl | hvalue
      · decide
      · exact printable_chars value c hvalue

end

/-- No line break and no other control character gets into the text of a value, since
strings are escaped. A value fits on one line. -/
theorem printable_dumps (value : Value F) (h : c ∈ (dumps floats value).toList) : Printable c := by
  rw [dumps, String.toList_ofList] at h
  exact printable_chars value c h

end Printable

end json
