import Mathlib.Data.List.Basic

/-! Texts as their UTF-8 bytes. -/

namespace unicode

def encode (text : List Char) : List UInt8 := text.flatMap String.utf8EncodeChar

/-- The text of the bytes, unless they break off or are malformed. -/
def decode? (bytes : List UInt8) : Option (List Char) := bytes.toByteArray.utf8Decode?.map Array.toList

variable {text before after : List Char} {bytes : List UInt8} {c : Char}

/-- Texts in a row are encoded one after the other, with nothing between their bytes. -/
theorem encode_append (before after : List Char) : encode (before ++ after) = encode before ++ encode after :=
  List.flatMap_append

/-- The bytes of a text are those of its characters. -/
theorem encode_cons (c : Char) (text : List Char) : encode (c :: text) = String.utf8EncodeChar c ++ encode text :=
  List.flatMap_cons

/-- An ASCII character is its own byte. -/
theorem encodeChar_ascii (hc : c.toNat < 128) : String.utf8EncodeChar c = [UInt8.ofNat c.toNat] := by
  have hlow : c.val.toNat ≤ 127 := Nat.le_of_lt_succ hc
  rw [String.utf8EncodeChar, if_pos hlow]
  rfl

/-- Encoding text as UTF-8 and decoding the bytes gives the text back, whatever its
characters. -/
@[simp] theorem decode?_encode (text : List Char) : decode? (encode text) = some text := by
  have hdecode := List.utf8Decode?_utf8Encode (l := text)
  rw [List.utf8Encode] at hdecode
  rw [decode?, encode, hdecode]
  rfl

/-- Bytes are decoded to the text whose bytes they are, and to nothing if there is no
such text. -/
theorem decode?_eq_some_iff : decode? bytes = some text ↔ encode text = bytes := by
  constructor
  · intro h
    obtain ⟨chars, hchars, rfl⟩ := Option.map_eq_some_iff.mp h
    have hencode := ByteArray.utf8Encode_get_utf8Decode? (b := bytes.toByteArray) (h := by rw [hchars]; rfl)
    simp only [hchars, Option.get_some, List.utf8Encode] at hencode
    have hlist := congrArg (fun b => b.data.toList) hencode
    simp only [List.toList_data_toByteArray] at hlist
    exact hlist
  · rintro rfl
    exact decode?_encode text

/-- What follows a character is text if both together are: bytes can be cut behind a
character. -/
theorem exists_tail (h : encode text = String.utf8EncodeChar c ++ bytes) :
    ∃ rest, text = c :: rest ∧ encode rest = bytes := by
  have hdecode : decode? (encode [c] ++ bytes) = some text := by
    rw [decode?_eq_some_iff, h, encode, List.flatMap_singleton]
  have hsplit := ByteArray.utf8Decode?_utf8Encode_singleton_append (l := bytes.toByteArray) (c := c)
  rw [List.utf8Encode, ← List.toByteArray_append, ← encode] at hsplit
  rw [decode?, hsplit, Option.map_map, Option.map_eq_some_iff] at hdecode
  obtain ⟨chars, hchars, rfl⟩ := hdecode
  exact ⟨chars.toList, by simp, decode?_eq_some_iff.mp (by rw [decode?, hchars]; rfl)⟩

end unicode
