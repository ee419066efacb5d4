import SessionManager.Library.Pieces

/-! The query of a URL as a list of named values. -/

namespace form_url

def hex (n : Nat) : Char := "0123456789ABCDEF".toList.getD n '0'

def hex? (c : Char) : Option Nat := "0123456789ABCDEF".toList.findIdx? (· = c.toUpper)

/-- The bytes that stand for themselves. -/
def safe (b : UInt8) : Bool := (Char.ofNat b.toNat).isAlphanum || (Char.ofNat b.toNat) ∈ ['_', '.', '-', '~']

def quote_byte (b : UInt8) : List Char :=
  if safe b then [Char.ofNat b.toNat]
  else if b = 0x20 then ['+']
  else ['%', hex (b.toNat / 16), hex (b.toNat % 16)]

def quote (bytes : List UInt8) : List Char := bytes.flatMap quote_byte

/-- A `%` that two hexadecimal digits do not follow stands for itself. -/
def unquote : List Char → List UInt8
  | [] => []
  | '+' :: rest => 0x20 :: unquote rest
  | '%' :: c :: d :: rest =>
    match hex? c, hex? d with
    | some high, some low => UInt8.ofNat (high * 16 + low) :: unquote rest
    | _, _ => 0x25 :: unquote (c :: d :: rest)
  | c :: rest => String.utf8EncodeChar c ++ unquote rest

def urlencode (pairs : List (List UInt8 × List UInt8)) : List Char :=
  ['&'].intercalate (pairs.map fun (name, value) => quote name ++ '=' :: quote value)

def parse (query : List Char) : List (List UInt8 × List UInt8) :=
  ((pieces.split ['&'] query).filter (· ≠ [])).map fun piece =>
    (unquote (piece.takeWhile (· ≠ '=')), unquote (piece.dropWhile (· ≠ '=')).tail)

private theorem hex?_hex : ∀ n < 16, hex? (hex n) = some n := by decide +kernel

private theorem hex_alphanum : ∀ n < 16, (hex n).isAlphanum = true := by decide +kernel

/-- The signs that separate the names and the values, and those that quote. -/
def marks : List Char := ['&', '=', '+', '%']

private theorem safe_not_mark : ∀ n < 256, safe (UInt8.ofNat n) = true →
    Char.ofNat n ∉ marks ∧ String.utf8EncodeChar (Char.ofNat n) = [UInt8.ofNat n] := by decide +kernel

private theorem unquote_cons {c : Char} (hc : c ∉ marks) (rest : List Char) :
    unquote (c :: rest) = String.utf8EncodeChar c ++ unquote rest := by
  rw [unquote]
  · rintro rfl
    exact hc (by decide)
  · rintro c d rest rfl
    exact absurd (by decide) hc

private theorem unquote_quote_byte (b : UInt8) (rest : List Char) :
    unquote (quote_byte b ++ rest) = b :: unquote rest := by
  have hb := b.toNat_lt
  rw [quote_byte]
  split
  · rename_i hsafe
    have hnot := safe_not_mark b.toNat hb (by rwa [UInt8.ofNat_toNat])
    rw [List.singleton_append, unquote_cons hnot.1, hnot.2, UInt8.ofNat_toNat]
    rfl
  · split
    · rename_i hspace
      rw [hspace]
      rfl
    · have hhigh := hex?_hex (b.toNat / 16) (by omega)
      have hlow := hex?_hex (b.toNat % 16) (by omega)
      have hbyte : b.toNat / 16 * 16 + b.toNat % 16 = b.toNat := by omega
      simp only [List.cons_append, List.nil_append, unquote, hhigh, hlow, hbyte, UInt8.ofNat_toNat]

private theorem unquote_quote (bytes : List UInt8) : unquote (quote bytes) = bytes := by
  induction bytes with
  | nil => rfl
  | cons b bytes ih =>
    rw [quote, List.flatMap_cons, unquote_quote_byte, ← quote, ih]

private theorem mem_quote {bytes : List UInt8} {c : Char} (h : c ∈ quote bytes) :
    c.isAlphanum = true ∨ c ∈ ['_', '.', '-', '~', '+', '%'] := by
  obtain ⟨b, -, hc⟩ := List.mem_flatMap.mp h
  have hb := b.toNat_lt
  rw [quote_byte] at hc
  split at hc
  · rename_i hsafe
    rw [List.mem_singleton.mp hc]
    rw [safe, Bool.or_eq_true, decide_eq_true_eq] at hsafe
    exact hsafe.imp_right fun hmem => List.mem_append_left ['+', '%'] hmem
  · split at hc
    · rw [List.mem_singleton.mp hc]
      exact .inr (by decide)
    · simp only [List.mem_cons, List.not_mem_nil, or_false] at hc
      rcases hc with rfl | rfl | rfl
      · exact .inr (by decide)
      · exact .inl (hex_alphanum _ (by omega))
      · exact .inl (hex_alphanum _ (by omega))

/-- A quoted name or value separates nothing. -/
private theorem separator_not_mem_quote {bytes : List UInt8} {c : Char} (hc : c = '&' ∨ c = '=') : c ∉ quote bytes := by
  intro hmem
  rcases mem_quote hmem with h | h <;> rcases hc with rfl | rfl <;> exact absurd h (by decide)

/-- The characters of a query: those that are never quoted, and the signs that quoting
and joining write. -/
theorem mem_urlencode {pairs : List (List UInt8 × List UInt8)} {c : Char} (h : c ∈ urlencode pairs) :
    c.isAlphanum = true ∨ c ∈ ['_', '.', '-', '~', '+', '%', '&', '='] := by
  have hquote {bytes : List UInt8} (h : c ∈ quote bytes) :
      c.isAlphanum = true ∨ c ∈ ['_', '.', '-', '~', '+', '%', '&', '='] :=
    (mem_quote h).imp_right fun hmem => List.mem_append_left ['&', '='] hmem
  rcases pieces.mem_of_mem_intercalate h with rfl | ⟨row, hrow, hc⟩
  · exact .inr (by decide)
  · obtain ⟨pair, -, rfl⟩ := List.mem_map.mp hrow
    rcases List.mem_append.mp hc with hc | hc
    · exact hquote hc
    · rcases List.mem_cons.mp hc with rfl | hc
      · exact .inr (by decide)
      · exact hquote hc

/-- What is read from a query is what was written into it, names and values alike. -/
theorem parse_urlencode (pairs : List (List UInt8 × List UInt8)) : parse (urlencode pairs) = pairs := by
  let write (pair : List UInt8 × List UInt8) : List Char := quote pair.1 ++ '=' :: quote pair.2
  have hsplit : (pieces.split ['&'] (urlencode pairs)).filter (· ≠ []) = pairs.map write := by
    cases pairs with
    | nil => rfl
    | cons pair pairs =>
      have hrows : ∀ row ∈ (pair :: pairs).map write, '&' ∉ row := by
        intro row hrow
        obtain ⟨pair, -, rfl⟩ := List.mem_map.mp hrow
        simp only [write, List.mem_append, List.mem_cons, not_or]
        exact ⟨separator_not_mem_quote (.inl rfl), by decide, separator_not_mem_quote (.inl rfl)⟩
      rw [urlencode, pieces.split_intercalate (by simp) hrows, List.filter_eq_self]
      intro row hrow
      obtain ⟨pair, -, rfl⟩ := List.mem_map.mp hrow
      simp [write]
  rw [parse, hsplit, List.map_map]
  have hread (pair : List UInt8 × List UInt8) : (unquote ((write pair).takeWhile (· ≠ '=')),
      unquote ((write pair).dropWhile (· ≠ '=')).tail) = pair := by
    have hname : ∀ c ∈ quote pair.1, decide (c ≠ '=') = true := fun c hc =>
      decide_eq_true fun h => separator_not_mem_quote (.inr rfl) (h ▸ hc)
    have htake : (write pair).takeWhile (· ≠ '=') = quote pair.1 := by
      rw [List.takeWhile_append_of_pos hname]
      simp
    have hdrop : (write pair).dropWhile (· ≠ '=') = '=' :: quote pair.2 := by
      rw [List.dropWhile_append_of_pos hname]
      simp
    rw [htake, hdrop, unquote_quote, List.tail_cons, unquote_quote]
  exact (List.map_congr_left fun pair _ => hread pair).trans (List.map_id _)

end form_url
