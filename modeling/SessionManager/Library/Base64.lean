import Mathlib.Data.List.DropRight

/-! Bytes as URL-safe base64 text. -/

namespace base64

def ALPHABET : List Char := "ABCDEFGHIJKLMNOPQRSTUVWXYZabcdefghijklmnopqrstuvwxyz0123456789-_".toList

def digit (n : Nat) : Char := ALPHABET.getD n 'A'

/-- A decoder takes the digits of the standard alphabet too. -/
def value? (c : Char) : Option Nat :=
  ALPHABET.findIdx? fun digit => digit = if c = '+' then '-' else if c = '/' then '_' else c

/-- The digits of the bytes, six bits each. -/
def digits : List UInt8 → List Char
  | [] => []
  | [a] => [digit (a.toNat / 4), digit (a.toNat % 4 * 16)]
  | [a, b] => [digit (a.toNat / 4), digit (a.toNat % 4 * 16 + b.toNat / 16), digit (b.toNat % 16 * 4)]
  | a :: b :: c :: rest =>
    digit (a.toNat / 4) :: digit (a.toNat % 4 * 16 + b.toNat / 16) :: digit (b.toNat % 16 * 4 + c.toNat / 64) ::
      digit (c.toNat % 64) :: digits rest

/-- The signs that fill the last four digits up. -/
def padding (text : List Char) : List Char := List.replicate ((4 - text.length % 4) % 4) '='

def encode (bytes : List UInt8) : List Char := digits bytes ++ padding (digits bytes)

/-- A decoder with the bits that are left of the digits since the last full four,
and the padding seen since the last digit; it skips what is not a digit, and stops
at a padding that fills up the four. -/
def scan : Nat → Nat → Nat → List Char → Option (List UInt8)
  | quad_pos, _, _, [] => if quad_pos = 0 then some [] else none
  | quad_pos, leftchar, pads, c :: rest =>
    if c = '=' then
      if quad_pos < 2 then scan quad_pos leftchar pads rest
      else if 4 ≤ quad_pos + (pads + 1) then some []
      else scan quad_pos leftchar (pads + 1) rest
    else match value? c with
      | none => scan quad_pos leftchar pads rest
      | some value =>
        match quad_pos with
        | 0 => scan 1 value 0 rest
        | 1 => (scan 2 (value % 16) 0 rest).map (UInt8.ofNat (leftchar * 4 + value / 16) :: ·)
        | 2 => (scan 3 (value % 4) 0 rest).map (UInt8.ofNat (leftchar * 16 + value / 4) :: ·)
        | _ => (scan 0 0 0 rest).map (UInt8.ofNat (leftchar * 64 + value) :: ·)

def decode (text : List Char) : Option (List UInt8) := scan 0 0 0 text

private theorem value_digit : ∀ n < 64, value? (digit n) = some n := by decide +kernel

private theorem digit_ne_pad : ∀ n < 64, digit n ≠ '=' := by decide +kernel

variable {n leftchar pads : Nat} {rest : List Char}

private theorem scan_first (hn : n < 64) : scan 0 leftchar pads (digit n :: rest) = scan 1 n 0 rest := by
  rw [scan, if_neg (digit_ne_pad n hn), value_digit n hn]
  rfl

private theorem scan_second (hn : n < 64) : scan 1 leftchar pads (digit n :: rest) =
    (scan 2 (n % 16) 0 rest).map (UInt8.ofNat (leftchar * 4 + n / 16) :: ·) := by
  rw [scan, if_neg (digit_ne_pad n hn), value_digit n hn]
  rfl

private theorem scan_third (hn : n < 64) : scan 2 leftchar pads (digit n :: rest) =
    (scan 3 (n % 4) 0 rest).map (UInt8.ofNat (leftchar * 16 + n / 4) :: ·) := by
  rw [scan, if_neg (digit_ne_pad n hn), value_digit n hn]
  rfl

private theorem scan_fourth (hn : n < 64) : scan 3 leftchar pads (digit n :: rest) =
    (scan 0 0 0 rest).map (UInt8.ofNat (leftchar * 64 + n) :: ·) := by
  rw [scan, if_neg (digit_ne_pad n hn), value_digit n hn]
  rfl

private theorem ofNat_eq {b : UInt8} {n : Nat} (h : n = b.toNat) : UInt8.ofNat n = b := by
  rw [h, UInt8.ofNat_toNat]

/-- What is decoded is what has been encoded, for bytes of any number: the padding tells
how many of the last group are real. -/
theorem decode_encode (bytes : List UInt8) : decode (encode bytes) = some bytes := by
  induction bytes using digits.induct with
  | case1 => rfl
  | case2 a =>
    have ha := a.toNat_lt
    have hpadding : padding (digits [a]) = ['=', '='] := rfl
    rw [decode, encode, hpadding, digits]
    simp only [List.cons_append, List.nil_append]
    rw [scan_first (by omega), scan_second (by omega), ofNat_eq (b := a) (by omega)]
    rfl
  | case3 a b =>
    have ha := a.toNat_lt
    have hb := b.toNat_lt
    have hpadding : padding (digits [a, b]) = ['='] := rfl
    rw [decode, encode, hpadding, digits]
    simp only [List.cons_append, List.nil_append]
    rw [scan_first (by omega), scan_second (by omega), scan_third (by omega), ofNat_eq (b := a) (by omega),
      ofNat_eq (b := b) (by omega)]
    rfl
  | case4 a b c rest ih =>
    have ha := a.toNat_lt
    have hb := b.toNat_lt
    have hc := c.toNat_lt
    have hpadding : padding (digits (a :: b :: c :: rest)) = padding (digits rest) := by
      simp only [padding, digits, List.length_cons]
      congr 1
      omega
    rw [decode, encode] at ih
    rw [decode, encode, hpadding, digits]
    simp only [List.cons_append]
    rw [scan_first (by omega), scan_second (by omega), scan_third (by omega), scan_fourth (by omega), ih,
      ofNat_eq (b := a) (by omega), ofNat_eq (b := b) (by omega), ofNat_eq (b := c) (by omega)]
    rfl

/-- Different bytes have different digits, also without their padding, so a key can be
told by its digits alone. -/
theorem digits_injective : Function.Injective digits := fun a b h => by
  have hencode : encode a = encode b := by rw [encode, encode, h]
  have hdecode := congrArg decode hencode
  rwa [decode_encode, decode_encode, Option.some.injEq] at hdecode

/-- No digit of the bytes is a padding. -/
private theorem pad_not_mem_digits (bytes : List UInt8) : '=' ∉ digits bytes := by
  induction bytes using digits.induct with
  | case1 => exact List.not_mem_nil
  | case2 a =>
    have ha := a.toNat_lt
    simp only [digits, List.mem_cons, List.not_mem_nil, or_false, not_or]
    exact ⟨(digit_ne_pad _ (by omega)).symm, (digit_ne_pad _ (by omega)).symm⟩
  | case3 a b =>
    have ha := a.toNat_lt
    have hb := b.toNat_lt
    simp only [digits, List.mem_cons, List.not_mem_nil, or_false, not_or]
    exact ⟨(digit_ne_pad _ (by omega)).symm, (digit_ne_pad _ (by omega)).symm, (digit_ne_pad _ (by omega)).symm⟩
  | case4 a b c rest ih =>
    have ha := a.toNat_lt
    have hb := b.toNat_lt
    have hc := c.toNat_lt
    simp only [digits, List.mem_cons, not_or]
    exact ⟨(digit_ne_pad _ (by omega)).symm, (digit_ne_pad _ (by omega)).symm, (digit_ne_pad _ (by omega)).symm,
      (digit_ne_pad _ (by omega)).symm, ih⟩

/-- Taking the padding off leaves the digits, as no digit is a padding sign. -/
theorem rdropWhile_encode (bytes : List UInt8) : (encode bytes).rdropWhile (· = '=') = digits bytes := by
  rw [encode, padding]
  generalize (4 - (digits bytes).length % 4) % 4 = n
  induction n with
  | zero =>
    rw [List.replicate_zero, List.append_nil, List.rdropWhile_eq_self_iff]
    intro hne hlast
    have hmem := List.getLast_mem hne
    rw [of_decide_eq_true hlast] at hmem
    exact pad_not_mem_digits bytes hmem
  | succ n ih => rw [List.replicate_succ', ← List.append_assoc, List.rdropWhile_concat_pos _ _ _ (by decide), ih]

end base64
