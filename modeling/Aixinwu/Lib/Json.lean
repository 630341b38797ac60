import Mathlib

/-!
# JSON in ASCII

How a value is written as JSON with all characters beyond ASCII escaped and the usual separators, as
a list of octets, and how long it is. A text is a list of code points; these may be surrogates.

The length of a text is the sum of what its characters take, and the length of an object or array
that of its members and separators: `length_dumps_str`, `length_dumps_dict`, `length_dumps_list`.

## Main definitions

* `Json`, `Json.dumps`, `Json.pretty`
* `needsEscape`, `charLen`, `escapedLength`

## Main results

* `length_dumps_str`, `length_dumps_dict`, `length_dumps_list`
-/

namespace Aixinwu

/-- A JSON value. Numbers are given as they are written. -/
inductive Json where
  | null
  | bool (b : Bool)
  | number (text : String)
  | str (text : List ℕ)
  | list (values : List Json)
  | dict (items : List (List ℕ × Json))

namespace Json

/-- The code points of a text. -/
def codes (text : String) : List ℕ := text.toList.map Char.toNat

/-- Backslashes, quotation marks and all that is not printable ASCII. -/
def needsEscape (c : ℕ) : Bool := c = 92 || c = 34 || c < 32 || 126 < c

/-- The letters of the short escapes. -/
def shortEscape (c : ℕ) : Option ℕ :=
  if c = 92 then some 92
  else if c = 34 then some 34
  else if c = 8 then some 98
  else if c = 9 then some 116
  else if c = 10 then some 110
  else if c = 12 then some 102
  else if c = 13 then some 114
  else none

/-- `\uXXXX`. -/
def unicodeEscape (c : ℕ) : List ℕ :=
  92 :: 117 :: [c / 4096, c / 256, c / 16, c].map fun n => (Nat.digitChar (n % 16)).toNat

/-- A character in a string. One beyond the basic plane is written as two surrogates. -/
def escape (c : ℕ) : List ℕ :=
  if needsEscape c then match shortEscape c with
    | some letter => [92, letter]
    | none =>
      if c < 0x10000 then unicodeEscape c
      else unicodeEscape (0xd800 + (c - 0x10000) / 1024 % 1024) ++
        unicodeEscape (0xdc00 + (c - 0x10000) % 1024)
  else [c]

/-- A string with its quotation marks. -/
def encode (text : List ℕ) : List ℕ := 34 :: text.flatMap escape ++ [34]

/-- The parts with a comma and a blank between them. -/
def joined : List (List ℕ) → List ℕ
  | [] => []
  | [part] => part
  | part :: next :: parts => part ++ codes ", " ++ joined (next :: parts)

mutual

/-- The value as JSON. -/
def dumps : Json → List ℕ
  | null => codes "null"
  | bool true => codes "true"
  | bool false => codes "false"
  | number text => codes text
  | str text => encode text
  | list values => codes "[" ++ joined (dumpsAll values) ++ codes "]"
  | dict items => codes "\x7b" ++ joined (dumpsItems items) ++ codes "\x7d"

/-- The members of an array. -/
def dumpsAll : List Json → List (List ℕ)
  | [] => []
  | value :: values => dumps value :: dumpsAll values

/-- The members of an object. -/
def dumpsItems : List (List ℕ × Json) → List (List ℕ)
  | [] => []
  | (key, value) :: items => (encode key ++ codes ": " ++ dumps value) :: dumpsItems items

end

/-- A line break and the indentation of a level, two blanks each. -/
def newline (level : ℕ) : List ℕ := 10 :: List.replicate (2 * level) 32

mutual

/-- The value as JSON over several lines. -/
def pretty (level : ℕ) : Json → List ℕ
  | list [] => codes "[]"
  | list (value :: values) => codes "[" ++ newline (level + 1) ++ pretty (level + 1) value ++
      prettyRest (level + 1) values ++ newline level ++ codes "]"
  | dict [] => codes "\x7b\x7d"
  | dict ((key, value) :: items) => codes "\x7b" ++ newline (level + 1) ++ encode key ++
      codes ": " ++ pretty (level + 1) value ++ prettyItemsRest (level + 1) items ++
      newline level ++ codes "\x7d"
  | null => codes "null"
  | bool true => codes "true"
  | bool false => codes "false"
  | number text => codes text
  | str text => encode text

/-- The further members of an array. -/
def prettyRest (level : ℕ) : List Json → List ℕ
  | [] => []
  | value :: values =>
      codes "," ++ newline level ++ pretty level value ++ prettyRest level values

/-- The further members of an object. -/
def prettyItemsRest (level : ℕ) : List (List ℕ × Json) → List ℕ
  | [] => []
  | (key, value) :: items => codes "," ++ newline level ++ encode key ++ codes ": " ++
      pretty level value ++ prettyItemsRest level items

end

/-! ### Lengths -/

/-- How long a character is in a string. -/
def charLen (c : ℕ) : ℕ := (escape c).length

/-- How long a text is in a string. -/
def escapedLength (text : List ℕ) : ℕ := (text.map charLen).sum

@[simp] theorem escapedLength_nil : escapedLength [] = 0 := rfl

@[simp] theorem escapedLength_cons (c : ℕ) (text : List ℕ) :
    escapedLength (c :: text) = charLen c + escapedLength text := by
  rw [escapedLength, List.map_cons, List.sum_cons]
  rfl

@[simp] theorem escapedLength_append (s t : List ℕ) :
    escapedLength (s ++ t) = escapedLength s + escapedLength t := by
  rw [escapedLength, List.map_append, List.sum_append]
  rfl

theorem charLen_of_not_needsEscape {c : ℕ} (h : needsEscape c = false) : charLen c = 1 := by
  simp [charLen, escape, h]

theorem charLen_of_needsEscape {c : ℕ} (h : needsEscape c = true) :
    charLen c = if (shortEscape c).isSome then 2 else if c < 0x10000 then 6 else 12 := by
  rw [charLen, escape, if_pos h]
  cases shortEscape c with
  | some letter => rfl
  | none =>
    dsimp only
    split <;> rfl

theorem one_lt_charLen {c : ℕ} (h : needsEscape c = true) : 1 < charLen c := by
  rw [charLen_of_needsEscape h]
  split
  · omega
  · split <;> omega

theorem one_le_charLen (c : ℕ) : 1 ≤ charLen c := by
  cases h : needsEscape c with
  | true => exact Nat.le_of_lt (one_lt_charLen h)
  | false => exact Nat.le_of_eq (charLen_of_not_needsEscape h).symm

theorem length_le_escapedLength (text : List ℕ) : text.length ≤ escapedLength text := by
  induction text with
  | nil => exact Nat.le_refl 0
  | cons c text ih =>
    have hc := one_le_charLen c
    rw [escapedLength_cons, List.length_cons]
    omega

theorem escapedLength_of_plain {text : List ℕ} (h : ∀ c ∈ text, needsEscape c = false) :
    escapedLength text = text.length := by
  induction text with
  | nil => rfl
  | cons c text ih =>
    rw [List.forall_mem_cons] at h
    rw [escapedLength_cons, ih h.2, charLen_of_not_needsEscape h.1, List.length_cons, Nat.add_comm]

theorem length_encode (text : List ℕ) : (encode text).length = escapedLength text + 2 := by
  have hflat : (text.flatMap escape).length = escapedLength text := by
    rw [List.length_flatMap]
    rfl
  rw [encode, List.length_append, List.length_cons, hflat, List.length_singleton]

theorem length_dumps_str (text : List ℕ) :
    (dumps (.str text)).length = escapedLength text + 2 := by
  rw [dumps, length_encode]

theorem length_joined : ∀ parts : List (List ℕ),
    (joined parts).length = (parts.map List.length).sum + 2 * (parts.length - 1)
  | [] => rfl
  | [part] => by simp [joined]
  | part :: next :: parts => by
    have hsep : (codes ", ").length = 2 := rfl
    have ih := length_joined (next :: parts)
    rw [joined, List.length_append, List.length_append, hsep, ih,
      List.map_cons (l := next :: parts), List.sum_cons]
    simp only [List.length_cons]
    omega

theorem dumpsAll_eq (values : List Json) : dumpsAll values = values.map dumps := by
  induction values with
  | nil => rfl
  | cons value values ih => rw [dumpsAll, ih, List.map_cons]

/-- An array: its members, two octets between each two, and the brackets. -/
theorem length_dumps_list (values : List Json) :
    (dumps (.list values)).length
      = (values.map fun value => (dumps value).length).sum + 2 * (values.length - 1) + 2 := by
  have hopen : (codes "[").length = 1 := rfl
  have hclose : (codes "]").length = 1 := rfl
  rw [dumps, List.length_append, List.length_append, length_joined, hopen, hclose, dumpsAll_eq,
    List.map_map, List.length_map]
  show 1 + ((values.map fun value => (dumps value).length).sum + _) + 1 = _
  omega

theorem dumpsItems_eq (items : List (List ℕ × Json)) :
    dumpsItems items
      = items.map fun item => encode item.1 ++ codes ": " ++ dumps item.2 := by
  induction items with
  | nil => rfl
  | cons item items ih => rw [dumpsItems, ih, List.map_cons]

/-- An object: its keys and values, four octets with each key, two between each two members, and
the braces. -/
theorem length_dumps_dict (items : List (List ℕ × Json)) :
    (dumps (.dict items)).length = (items.map fun item =>
      escapedLength item.1 + 4 + (dumps item.2).length).sum + 2 * (items.length - 1) + 2 := by
  have hopen : (codes "\x7b").length = 1 := rfl
  have hclose : (codes "\x7d").length = 1 := rfl
  have hitem : (fun item : List ℕ × Json => (encode item.1 ++ codes ": " ++ dumps item.2).length)
      = fun item => escapedLength item.1 + 4 + (dumps item.2).length := by
    funext item
    have hcolon : (codes ": ").length = 2 := rfl
    rw [List.length_append, List.length_append, length_encode, hcolon]
  rw [dumps, List.length_append, List.length_append, length_joined, hopen, hclose, dumpsItems_eq,
    List.map_map, List.length_map]
  show 1 + ((items.map fun item => (encode item.1 ++ codes ": " ++ dumps item.2).length).sum +
    _) + 1 = _
  rw [hitem]
  omega

end Json

end Aixinwu
