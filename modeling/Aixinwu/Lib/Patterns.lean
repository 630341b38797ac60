import Mathlib.Data.List.Basic
import Mathlib.Data.List.Forall2
import Mathlib.Data.List.TakeWhile

/-!
# Patterns of repeated classes

A pattern is a sequence of pieces, each of them a class of symbols with the numbers of times it may be
repeated. A matcher gives every piece as much as it can take and takes back what the pieces behind it
need; what may follow the last piece is said by a condition on the rest.

What it finds is a way of splitting the text, and it finds one if there is one. Where the text can be
split in one way only, that is what it finds.

## Main definitions

* `Piece`, `Piece.Fits`
* `matchPieces` — the matcher
* `Splits` — a way of splitting a text

## Main results

* `splits_of_matchPieces`, `isSome_matchPieces`
* `matchPieces_eq_some_iff` — where there is one way only
* `append_inj_of_class` — where a class ends
-/

namespace Aixinwu

namespace Patterns

variable {α : Type*}

/-- A class of symbols, and how often it may be repeated. -/
structure Piece (α : Type*) where
  chars : α → Bool
  least : ℕ
  most : Option ℕ

/-- A part of a text that a piece stands for. -/
def Piece.Fits (p : Piece α) (part : List α) : Prop :=
  (∀ x ∈ part, p.chars x = true) ∧ p.least ≤ part.length ∧ ∀ m ∈ p.most, part.length ≤ m

/-- The most symbols that a piece can take. -/
def Piece.longest (p : Piece α) (s : List α) : ℕ :=
  match p.most with
  | none => (s.takeWhile p.chars).length
  | some m => min m (s.takeWhile p.chars).length

/-- The numbers of symbols that a piece can take, the largest first. -/
def Piece.counts (p : Piece α) (s : List α) : List ℕ :=
  (List.range' p.least (p.longest s + 1 - p.least)).reverse

/-- The first way of splitting a text that is found; `stop` is the condition on the rest. -/
def matchPieces (stop : List α → Bool) : List (Piece α) → List α → Option (List (List α))
  | [], s => if stop s then some [] else none
  | p :: ps, s =>
    (p.counts s).findSome? fun n => (matchPieces stop ps (s.drop n)).map (s.take n :: ·)

/-- A way of splitting a text. -/
def Splits (stop : List α → Bool) (ps : List (Piece α)) (s : List α) (parts : List (List α)) : Prop :=
  List.Forall₂ Piece.Fits ps parts ∧ ∃ rest, s = parts.flatten ++ rest ∧ stop rest = true

variable {stop : List α → Bool} {p : Piece α} {ps : List (Piece α)} {s : List α}
  {parts : List (List α)}

theorem Piece.le_longest_iff {n : ℕ} : n ≤ p.longest s ↔
    n ≤ (s.takeWhile p.chars).length ∧ ∀ m ∈ p.most, n ≤ m := by
  rw [Piece.longest]
  cases p.most with
  | none => simp
  | some m => simp [Nat.le_min, and_comm]

/-- What fits a piece is among the numbers it goes through. -/
theorem Piece.length_mem_counts {part rest : List α} (h : p.Fits part) :
    part.length ∈ p.counts (part ++ rest) := by
  obtain ⟨hchars, hleast, hmost⟩ := h
  have hlongest : part.length ≤ p.longest (part ++ rest) := by
    refine Piece.le_longest_iff.mpr ⟨?_, hmost⟩
    rw [List.takeWhile_append_of_pos hchars, List.length_append]
    omega
  rw [Piece.counts, List.mem_reverse, List.mem_range'_1]
  omega

/-- What it takes fits. -/
theorem Piece.fits_take {n : ℕ} (h : n ∈ p.counts s) : p.Fits (s.take n) := by
  rw [Piece.counts, List.mem_reverse, List.mem_range'_1] at h
  obtain ⟨hlength, hmost⟩ := Piece.le_longest_iff.mp (show n ≤ p.longest s by omega)
  have htaken : s.take n = (s.takeWhile p.chars).take n := by
    conv_lhs => rw [← s.takeWhile_append_dropWhile (p := p.chars)]
    exact List.take_append_of_le_length hlength
  have htake : (s.take n).length = n := by
    rw [htaken, List.length_take]
    omega
  refine ⟨fun x hx => ?_, by omega, fun m hm => htake.trans_le (hmost m hm)⟩
  rw [htaken] at hx
  exact List.mem_takeWhile_imp (List.mem_of_mem_take hx)

/-- **What is found** is a way of splitting the text. -/
theorem splits_of_matchPieces (h : matchPieces stop ps s = some parts) : Splits stop ps s parts := by
  induction ps generalizing s parts with
  | nil =>
    rw [matchPieces] at h
    split at h
    · rename_i hstop
      obtain rfl := Option.some.inj h
      exact ⟨.nil, s, rfl, hstop⟩
    · cases h
  | cons p ps ih =>
    obtain ⟨n, hn, h⟩ := List.exists_of_findSome?_eq_some h
    obtain ⟨parts, hparts, rfl⟩ := Option.map_eq_some_iff.mp h
    obtain ⟨hfits, rest, hrest, hstop⟩ := ih hparts
    refine ⟨.cons (Piece.fits_take hn) hfits, rest, ?_, hstop⟩
    rw [List.flatten_cons, List.append_assoc, ← hrest, List.take_append_drop]

/-- **One is found** if there is one. -/
theorem isSome_matchPieces (h : Splits stop ps s parts) : (matchPieces stop ps s).isSome = true := by
  obtain ⟨hfits, rest, rfl, hstop⟩ := h
  induction hfits with
  | nil => simpa [matchPieces] using hstop
  | @cons p part ps parts hpart _ ih =>
    rw [matchPieces, List.findSome?_isSome_iff, List.flatten_cons, List.append_assoc]
    refine ⟨part.length, Piece.length_mem_counts hpart, ?_⟩
    rw [List.drop_left, Option.isSome_map]
    exact ih

/-- **The only way** is what is found. -/
theorem matchPieces_eq_some_iff
    (hunique : ∀ parts parts', Splits stop ps s parts → Splits stop ps s parts' → parts = parts') :
    matchPieces stop ps s = some parts ↔ Splits stop ps s parts := by
  refine ⟨splits_of_matchPieces, fun h => ?_⟩
  obtain ⟨found, hfound⟩ := Option.isSome_iff_exists.mp (isSome_matchPieces h)
  rw [hfound, hunique found parts (splits_of_matchPieces hfound) h]

/-- Two texts that begin with symbols of a class and go on with another symbol, or end. -/
theorem append_inj_of_class {c : α → Bool} {a a' t t' : List α} (h : a ++ t = a' ++ t')
    (ha : ∀ x ∈ a, c x = true) (ha' : ∀ x ∈ a', c x = true) (ht : ∀ x ∈ t.head?, c x = false)
    (ht' : ∀ x ∈ t'.head?, c x = false) : a = a' ∧ t = t' := by
  have htake : ∀ {a t : List α}, (∀ x ∈ a, c x = true) → (∀ x ∈ t.head?, c x = false) →
      (a ++ t).takeWhile c = a := by
    intro a t ha ht
    rw [List.takeWhile_append_of_pos ha]
    cases t with
    | nil => simp
    | cons x t =>
      have hx : c x = false := ht x rfl
      rw [List.takeWhile_cons_of_neg (by simp [hx]), List.append_nil]
  have heq : a = a' := by
    rw [← htake ha ht, h, htake ha' ht']
  exact ⟨heq, List.append_cancel_left (heq ▸ h)⟩

end Patterns

end Aixinwu
