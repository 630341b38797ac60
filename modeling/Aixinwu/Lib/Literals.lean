import Mathlib.Data.List.DropRight
import Mathlib.Data.Nat.Notation

/-!
# Numbers in texts

How Python's `int` reads a text: blanks around the number are passed over, a sign may stand before it,
single underscores between its digits, and the digits may be those of any script. The number is not
bounded, and neither is the length of the text.

The digits of a number are read as that number.

## Main definitions

* `isDecimal`, `decimalValue` — digits
* `readInt` — `int`

## Main results

* `readInt_toString`
-/

namespace Aixinwu

namespace Literals

/-- The zeros of the Unicode digits; nine more digits follow each of them. -/
def decimalZeros : List ℕ :=
  [0x30, 0x660, 0x6f0, 0x7c0, 0x966, 0x9e6, 0xa66, 0xae6, 0xb66, 0xbe6, 0xc66, 0xce6, 0xd66, 0xde6,
    0xe50, 0xed0, 0xf20, 0x1040, 0x1090, 0x17e0, 0x1810, 0x1946, 0x19d0, 0x1a80, 0x1a90, 0x1b50,
    0x1bb0, 0x1c40, 0x1c50, 0xa620, 0xa8d0, 0xa900, 0xa9d0, 0xa9f0, 0xaa50, 0xabf0, 0xff10, 0x104a0,
    0x10d30, 0x11066, 0x110f0, 0x11136, 0x111d0, 0x112f0, 0x11450, 0x114d0, 0x11650, 0x116c0,
    0x11730, 0x118e0, 0x11950, 0x11c50, 0x11d50, 0x11da0, 0x16a60, 0x16b50, 0x1d7ce, 0x1d7d8,
    0x1d7e2, 0x1d7ec, 0x1d7f6, 0x1e140, 0x1e2f0, 0x1e950, 0x1fbf0]

/-- The number that a digit stands for. -/
def decimalValue (c : Char) : Option ℕ :=
  (decimalZeros.find? fun first => first ≤ c.toNat && c.toNat ≤ first + 9).map (c.toNat - ·)

/-- `\d`. -/
def isDecimal (c : Char) : Bool := (decimalValue c).isSome

/-- The blanks that `int` passes over. -/
def isBlank (c : Char) : Bool :=
  c.toNat ∈ [0x9, 0xa, 0xb, 0xc, 0xd, 0x20, 0x85, 0xa0, 0x1680, 0x2000, 0x2001, 0x2002, 0x2003, 0x2004,
    0x2005, 0x2006, 0x2007, 0x2008, 0x2009, 0x200a, 0x2028, 0x2029, 0x202f, 0x205f, 0x3000]

/-- Digits, of which some have been read; `afterDigit` says that the last character was one. -/
def readDigits : ℕ → Bool → List Char → Option ℕ
  | n, afterDigit, [] => if afterDigit then some n else none
  | n, afterDigit, c :: cs =>
    if c = '_' then
      if afterDigit then readDigits n false cs else none
    else
      match decimalValue c with
      | some value => readDigits (10 * n + value) true cs
      | none => none

/-- `int`; `none` is a `ValueError`. -/
def readInt (text : List Char) : Option ℤ :=
  match (text.dropWhile isBlank).rdropWhile isBlank with
  | '+' :: digits => (readDigits 0 false digits).map fun n => (n : ℤ)
  | '-' :: digits => (readDigits 0 false digits).map fun n => -(n : ℤ)
  | digits => (readDigits 0 false digits).map fun n => (n : ℤ)

/-! ### Reading back -/

section Digits

variable {c : Char} {cs : List Char}

theorem toNat_of_isDigit (h : c.isDigit = true) : 48 ≤ c.toNat ∧ c.toNat ≤ 57 := by
  simpa [Char.isDigit, UInt32.le_iff_toNat_le] using h

theorem decimalValue_of_isDigit (h : c.isDigit = true) : decimalValue c = some (c.toNat - 48) := by
  obtain ⟨hlow, hhigh⟩ := toNat_of_isDigit h
  rw [decimalValue, decimalZeros, List.find?_cons_of_pos]
  · rfl
  · simpa using ⟨hlow, hhigh⟩

theorem not_isBlank_of_isDigit (h : c.isDigit = true) : isBlank c = false := by
  obtain ⟨hlow, hhigh⟩ := toNat_of_isDigit h
  simp only [isBlank, List.mem_cons, List.not_mem_nil, or_false, decide_eq_false_iff_not]
  omega

theorem readDigits_of_isDigit (h : ∀ c ∈ cs, c.isDigit = true) (n : ℕ) {afterDigit : Bool}
    (hne : afterDigit = true ∨ cs ≠ []) : readDigits n afterDigit cs = some (Nat.ofDigitChars 10 cs n) := by
  induction cs generalizing n afterDigit with
  | nil =>
    obtain rfl := hne.resolve_right (not_not.mpr rfl)
    rw [readDigits, if_pos rfl, Nat.ofDigitChars_nil]
  | cons c cs ih =>
    have hc := h c List.mem_cons_self
    have hunderscore : c ≠ '_' := by
      rintro rfl
      exact absurd hc (by decide)
    rw [readDigits, if_neg hunderscore, decimalValue_of_isDigit hc, Nat.ofDigitChars_cons]
    exact ih (fun c' hc' => h c' (List.mem_cons_of_mem c hc')) _ (.inl rfl)

/-- Digits only. -/
theorem readInt_of_isDigit (h : ∀ c ∈ cs, c.isDigit = true) (hne : cs ≠ []) :
    readInt cs = some (Nat.ofDigitChars 10 cs 0 : ℤ) := by
  obtain ⟨c, tail, rfl⟩ := List.exists_cons_of_ne_nil hne
  have hc := h c List.mem_cons_self
  have hfront : (c :: tail).dropWhile isBlank = c :: tail :=
    List.dropWhile_cons_of_neg (by rw [not_isBlank_of_isDigit hc]; exact Bool.false_ne_true)
  have hback : (c :: tail).rdropWhile isBlank = c :: tail := by
    refine List.rdropWhile_eq_self_iff.mpr fun hl => ?_
    rw [not_isBlank_of_isDigit (h _ (List.getLast_mem hl))]
    exact Bool.false_ne_true
  rw [readInt, hfront, hback]
  split
  · rename_i hplus
    obtain ⟨rfl, -⟩ := List.cons.inj hplus
    exact absurd hc (by decide)
  · rename_i hminus
    obtain ⟨rfl, -⟩ := List.cons.inj hminus
    exact absurd hc (by decide)
  · rw [readDigits_of_isDigit h 0 (.inr hne)]
    rfl

end Digits

/-- **The digits of a number** are read as that number. -/
theorem readInt_toString (n : ℕ) : readInt (toString n).toList = some (n : ℤ) := by
  have hdigits : (toString n).toList = Nat.toDigits 10 n := Nat.toList_repr
  have hne : Nat.toDigits 10 n ≠ [] := fun h =>
    Nat.repr_ne_empty (String.toList_inj.mp (Nat.toList_repr.trans h))
  rw [hdigits, readInt_of_isDigit
    (fun c hc => Nat.isDigit_of_mem_toDigits (by decide) (by decide) hc) hne,
    Nat.ofDigitChars_ten_toDigits]

end Literals

end Aixinwu
