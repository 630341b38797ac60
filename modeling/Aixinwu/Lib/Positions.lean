import Mathlib.Algebra.Order.Group.Int
import Mathlib.Data.List.InsertIdx
import Mathlib.Data.List.Nodup
import Mathlib.Data.List.Perm.Basic

/-!
# Lists as orders

A list without repetitions is an order of its members, and where a member stands is `idxOf`. Taking
a member out and putting it back elsewhere moves the members between the two places by one and
nobody else, which is what code that stores positions as numbers has to imitate.

## Main definitions

* `clampIdx` — the nearest position of a list
* `moveBy` — move a member by an offset, clamped to the ends

## Main results

* `idxOf_moveBy_self`, `idxOf_moveBy_of_ne` — where everybody stands after a move
-/

namespace Aixinwu

section Positions

variable {α : Type*} [DecidableEq α] {a b : α} {l : List α}

/-- Taking out a member moves up by one who stands behind it. -/
theorem idxOf_erase_of_ne (hne : b ≠ a) (l : List α) :
    (l.erase a).idxOf b = if l.idxOf a < l.idxOf b then l.idxOf b - 1 else l.idxOf b := by
  induction l with
  | nil => rfl
  | cons c l ih =>
    by_cases hca : c = a
    · subst hca
      have hpos : 0 < (c :: l).idxOf b := by
        rw [List.idxOf_cons_ne l hne.symm]
        exact Nat.succ_pos _
      rw [List.erase_cons_head, List.idxOf_cons_self, if_pos hpos, List.idxOf_cons_ne l hne.symm]
      rfl
    · have herase : (c :: l).erase a = c :: l.erase a := List.erase_cons_tail (by simpa using hca)
      rw [herase, List.idxOf_cons_ne l hca]
      by_cases hcb : c = b
      · subst hcb
        simp
      · rw [List.idxOf_cons_ne _ hcb, List.idxOf_cons_ne _ hcb, ih]
        split
        · rw [if_pos (by omega)]
          omega
        · rw [if_neg (by omega)]

/-- Putting somebody in moves down by one who stands there or behind. -/
theorem idxOf_insertIdx_of_ne (hne : b ≠ a) {i : ℕ} (hi : i ≤ l.length) :
    (l.insertIdx i a).idxOf b = if l.idxOf b < i then l.idxOf b else l.idxOf b + 1 := by
  induction l generalizing i with
  | nil =>
    obtain rfl : i = 0 := Nat.le_zero.mp hi
    rw [List.insertIdx_zero, List.idxOf_cons_ne _ hne.symm]
    rfl
  | cons c l ih =>
    cases i with
    | zero =>
      rw [List.insertIdx_zero, List.idxOf_cons_ne _ hne.symm]
      simp
    | succ i =>
      rw [List.insertIdx_succ_cons]
      by_cases hcb : c = b
      · subst hcb
        simp
      · rw [List.idxOf_cons_ne _ hcb, List.idxOf_cons_ne _ hcb,
          ih (Nat.le_of_succ_le_succ hi)]
        split
        · rw [if_pos (by omega)]
        · rw [if_neg (by omega)]

/-- Who is put in stands where it was put. -/
theorem idxOf_insertIdx_self (ha : a ∉ l) {i : ℕ} (hi : i ≤ l.length) :
    (l.insertIdx i a).idxOf a = i := by
  induction l generalizing i with
  | nil =>
    obtain rfl : i = 0 := Nat.le_zero.mp hi
    simp
  | cons c l ih =>
    cases i with
    | zero => simp
    | succ i =>
      have hca : c ≠ a := fun h => ha (h ▸ List.mem_cons_self)
      rw [List.insertIdx_succ_cons, List.idxOf_cons_ne _ hca,
        ih (fun h => ha (List.mem_cons_of_mem c h)) (Nat.le_of_succ_le_succ hi)]

/-! ### Moving -/

/-- The position of a list of length `n` that is nearest to `i`. -/
def clampIdx (n : ℕ) (i : ℤ) : ℕ := (min ((n : ℤ) - 1) (max 0 i)).toNat

/-- Move a member by an offset, clamped to the ends; who is no member is not moved. -/
def moveBy (a : α) (offset : ℤ) (l : List α) : List α :=
  if a ∈ l then (l.erase a).insertIdx (clampIdx l.length (l.idxOf a + offset)) a else l

theorem clampIdx_lt {n : ℕ} (hn : 0 < n) (i : ℤ) : clampIdx n i < n := by
  rw [clampIdx]
  omega

theorem clampIdx_le_length_erase (ha : a ∈ l) (i : ℤ) :
    clampIdx l.length i ≤ (l.erase a).length := by
  have hlt := clampIdx_lt (List.length_pos_of_mem ha) i
  rw [List.length_erase_of_mem ha]
  omega

theorem moveBy_perm (a : α) (offset : ℤ) (l : List α) : (moveBy a offset l).Perm l := by
  rw [moveBy]
  split
  · rename_i ha
    exact (List.perm_insertIdx a _ (clampIdx_le_length_erase ha _)).trans
      (List.perm_cons_erase ha).symm
  · exact List.Perm.refl l

theorem insertIdx_erase_idxOf (ha : a ∈ l) : (l.erase a).insertIdx (l.idxOf a) a = l := by
  induction l with
  | nil => cases ha
  | cons c l ih =>
    by_cases hca : c = a
    · subst hca
      simp
    · have herase : (c :: l).erase a = c :: l.erase a := List.erase_cons_tail (by simpa using hca)
      have ha : a ∈ l := (List.mem_cons.mp ha).resolve_left fun h => hca h.symm
      rw [herase, List.idxOf_cons_ne l hca, List.insertIdx_succ_cons, ih ha]

@[simp] theorem moveBy_zero (a : α) (l : List α) : moveBy a 0 l = l := by
  rw [moveBy]
  split
  · rename_i ha
    have hlt : l.idxOf a < l.length := List.idxOf_lt_length_of_mem ha
    have hclamp : clampIdx l.length (l.idxOf a + 0) = l.idxOf a := by
      rw [clampIdx]
      omega
    rw [hclamp, insertIdx_erase_idxOf ha]
  · rfl

theorem idxOf_moveBy_self (hl : l.Nodup) (ha : a ∈ l) (offset : ℤ) :
    (moveBy a offset l).idxOf a = clampIdx l.length (l.idxOf a + offset) := by
  rw [moveBy, if_pos ha]
  exact idxOf_insertIdx_self hl.not_mem_erase (clampIdx_le_length_erase ha _)

/-- **Where the others stand** after a move: those between the two places make room. -/
theorem idxOf_moveBy_of_ne (ha : a ∈ l) (hne : b ≠ a) (offset : ℤ) :
    (moveBy a offset l).idxOf b
      = if l.idxOf a < l.idxOf b ∧ l.idxOf b ≤ clampIdx l.length (l.idxOf a + offset) then
          l.idxOf b - 1
        else if clampIdx l.length (l.idxOf a + offset) ≤ l.idxOf b ∧ l.idxOf b < l.idxOf a then
          l.idxOf b + 1
        else l.idxOf b := by
  have hab : l.idxOf b ≠ l.idxOf a := fun h => hne ((List.idxOf_inj ha).mp h.symm).symm
  rw [moveBy, if_pos ha, idxOf_insertIdx_of_ne hne (clampIdx_le_length_erase ha _),
    idxOf_erase_of_ne hne]
  split_ifs <;> omega

end Positions

end Aixinwu
