import Mathlib.Data.List.Basic

/-!
# Base64

Three octets make four characters of the alphabet; where one or two octets are left, the last four
characters are padded. The decoder reads the characters one by one and knows how many of the current
four it has seen, what is left of the last one, and how many characters of padding. What is not in the
alphabet it passes over, and behind the padding it does not read on.

What has been encoded is decoded.

## Main definitions

* `encode`, `decode`
* `ofText`, `toText` — the octets of a text

## Main results

* `decode_encode`, `toText_ofText`
-/

namespace Aixinwu

namespace Base64

/-- The characters of the numbers below 64. -/
def alphabet : List Char :=
  "ABCDEFGHIJKLMNOPQRSTUVWXYZabcdefghijklmnopqrstuvwxyz0123456789+/".toList

theorem length_alphabet : alphabet.length = 64 := by decide +kernel

/-- The character of a number. -/
def digit (n : ℕ) : Char := alphabet.getD n '='

/-- The number of a character. -/
def value (c : Char) : Option ℕ := alphabet.findIdx? (· = c)

/-- The alphabet, gone through once. -/
theorem digits_in_alphabet : ∀ n < 64, value (digit n) = some n ∧ digit n ≠ '=' ∧
    (digit n).toNat < 128 := by
  decide +kernel

theorem value_digit {n : ℕ} (h : n < 64) : value (digit n) = some n := (digits_in_alphabet n h).1

theorem digit_ne_pad {n : ℕ} (h : n < 64) : digit n ≠ '=' := (digits_in_alphabet n h).2.1

/-- The characters of some octets. -/
def encode : List UInt8 → List Char
  | [] => []
  | [a] => [digit (a.toNat / 4), digit (a.toNat % 4 * 16), '=', '=']
  | [a, b] =>
    [digit (a.toNat / 4), digit (a.toNat % 4 * 16 + b.toNat / 16), digit (b.toNat % 16 * 4), '=']
  | a :: b :: c :: octets =>
    digit (a.toNat / 4) :: digit (a.toNat % 4 * 16 + b.toNat / 16) ::
      digit (b.toNat % 16 * 4 + c.toNat / 64) :: digit (c.toNat % 64) :: encode octets

/-- Decoding from the middle: `quad` characters of four have been read, and `left` is what is left of
the last. -/
def decodeFrom (quad left pads : ℕ) : List Char → Option (List UInt8)
  | [] => if quad = 0 then some [] else none
  | c :: cs =>
    if c = '=' then
      if 2 ≤ quad then
        if 4 ≤ quad + (pads + 1) then some [] else decodeFrom quad left (pads + 1) cs
      else decodeFrom quad left pads cs
    else
      match value c with
      | none => decodeFrom quad left pads cs
      | some n =>
        match quad with
        | 0 => decodeFrom 1 n 0 cs
        | 1 => (decodeFrom 2 (n % 16) 0 cs).map (UInt8.ofNat (left * 4 + n / 16) :: ·)
        | 2 => (decodeFrom 3 (n % 4) 0 cs).map (UInt8.ofNat (left * 16 + n / 4) :: ·)
        | _ => (decodeFrom 0 0 0 cs).map (UInt8.ofNat (left * 64 + n) :: ·)

/-- The octets of some characters. -/
def decode (cs : List Char) : Option (List UInt8) := decodeFrom 0 0 0 cs

section Digits

variable {n left pads : ℕ} {cs : List Char}

/-- A digit is read as its number. -/
theorem decodeFrom_digit (h : n < 64) (quad : ℕ) : decodeFrom quad left pads (digit n :: cs) =
    match quad with
    | 0 => decodeFrom 1 n 0 cs
    | 1 => (decodeFrom 2 (n % 16) 0 cs).map (UInt8.ofNat (left * 4 + n / 16) :: ·)
    | 2 => (decodeFrom 3 (n % 4) 0 cs).map (UInt8.ofNat (left * 16 + n / 4) :: ·)
    | _ => (decodeFrom 0 0 0 cs).map (UInt8.ofNat (left * 64 + n) :: ·) := by
  rw [decodeFrom, if_neg (digit_ne_pad h), value_digit h]

theorem decodeFrom_zero (h : n < 64) :
    decodeFrom 0 left pads (digit n :: cs) = decodeFrom 1 n 0 cs :=
  decodeFrom_digit h 0

theorem decodeFrom_one (h : n < 64) : decodeFrom 1 left pads (digit n :: cs) =
    (decodeFrom 2 (n % 16) 0 cs).map (UInt8.ofNat (left * 4 + n / 16) :: ·) :=
  decodeFrom_digit h 1

theorem decodeFrom_two (h : n < 64) : decodeFrom 2 left pads (digit n :: cs) =
    (decodeFrom 3 (n % 4) 0 cs).map (UInt8.ofNat (left * 16 + n / 4) :: ·) :=
  decodeFrom_digit h 2

theorem decodeFrom_three (h : n < 64) : decodeFrom 3 left pads (digit n :: cs) =
    (decodeFrom 0 0 0 cs).map (UInt8.ofNat (left * 64 + n) :: ·) :=
  decodeFrom_digit h 3

end Digits

/-- An octet from its number. -/
theorem ofNat_eq {a : UInt8} {n : ℕ} (h : n = a.toNat) : UInt8.ofNat n = a := by
  rw [h, UInt8.ofNat_toNat]

/-- **What has been encoded is decoded.** -/
theorem decode_encode (octets : List UInt8) : decode (encode octets) = some octets := by
  have hlt : ∀ a : UInt8, a.toNat < 256 := fun a => a.toNat_lt
  rw [decode]
  induction octets using encode.induct with
  | case1 => rfl
  | case2 a =>
    have ha := hlt a
    have hoctet : UInt8.ofNat (a.toNat / 4 * 4 + a.toNat % 4 * 16 / 16) = a := ofNat_eq (by omega)
    rw [encode, decodeFrom_zero (by omega), decodeFrom_one (by omega), hoctet]
    rfl
  | case3 a b =>
    have ha := hlt a
    have hb := hlt b
    have hfirst : UInt8.ofNat (a.toNat / 4 * 4 + (a.toNat % 4 * 16 + b.toNat / 16) / 16) = a :=
      ofNat_eq (by omega)
    have hsecond : UInt8.ofNat ((a.toNat % 4 * 16 + b.toNat / 16) % 16 * 16 + b.toNat % 16 * 4 / 4)
        = b := ofNat_eq (by omega)
    rw [encode, decodeFrom_zero (by omega), decodeFrom_one (by omega), decodeFrom_two (by omega), hfirst,
      hsecond]
    rfl
  | case4 a b c octets ih =>
    have ha := hlt a
    have hb := hlt b
    have hc := hlt c
    have hfirst : UInt8.ofNat (a.toNat / 4 * 4 + (a.toNat % 4 * 16 + b.toNat / 16) / 16) = a :=
      ofNat_eq (by omega)
    have hsecond : UInt8.ofNat ((a.toNat % 4 * 16 + b.toNat / 16) % 16 * 16
        + (b.toNat % 16 * 4 + c.toNat / 64) / 4) = b := ofNat_eq (by omega)
    have hthird : UInt8.ofNat ((b.toNat % 16 * 4 + c.toNat / 64) % 4 * 64 + c.toNat % 64) = c :=
      ofNat_eq (by omega)
    rw [encode, decodeFrom_zero (by omega), decodeFrom_one (by omega), decodeFrom_two (by omega),
      decodeFrom_three (by omega), hfirst, hsecond, hthird, ih]
    rfl

theorem toNat_digit_lt (n : ℕ) : (digit n).toNat < 128 := by
  by_cases h : n < 64
  · exact (digits_in_alphabet n h).2.2
  · have hdefault : digit n = '=' := by
      rw [digit, List.getD_eq_getElem?_getD,
        List.getElem?_eq_none (length_alphabet ▸ Nat.not_lt.mp h), Option.getD_none]
    rw [hdefault]
    decide

/-- The characters are ASCII. -/
theorem toNat_lt_of_mem_encode {octets : List UInt8} {c : Char} (h : c ∈ encode octets) :
    c.toNat < 128 := by
  have hpad : ('=').toNat < 128 := by decide
  induction octets using encode.induct with
  | case1 => cases h
  | case2 a =>
    simp only [encode, List.mem_cons, List.not_mem_nil, or_false] at h
    rcases h with rfl | rfl | rfl | rfl <;> first | exact toNat_digit_lt _ | exact hpad
  | case3 a b =>
    simp only [encode, List.mem_cons, List.not_mem_nil, or_false] at h
    rcases h with rfl | rfl | rfl | rfl <;> first | exact toNat_digit_lt _ | exact hpad
  | case4 a b c octets ih =>
    simp only [encode, List.mem_cons] at h
    rcases h with rfl | rfl | rfl | rfl | h
    · exact toNat_digit_lt _
    · exact toNat_digit_lt _
    · exact toNat_digit_lt _
    · exact toNat_digit_lt _
    · exact ih h

/-! ### Texts -/

/-- The octets of a text, in UTF-8. -/
def ofText (s : String) : List UInt8 := s.toByteArray.data.toList

/-- The text of some octets, if they are UTF-8. -/
def toText (octets : List UInt8) : Option String := String.fromUTF8? ⟨octets.toArray⟩

theorem toText_ofText (s : String) : toText (ofText s) = some s := by
  have harray : (⟨(ofText s).toArray⟩ : ByteArray) = s.toByteArray := by
    rw [ofText, Array.toArray_toList]
  rw [toText, harray, String.fromUTF8?, dif_pos s.isValidUTF8]
  rfl

end Base64

end Aixinwu
