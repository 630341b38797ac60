import Mathlib.Data.List.Induction
import Mathlib.Data.List.Nodup
import Mathlib.Data.List.Perm.Basic
import Mathlib.Data.List.TakeWhile
import Mathlib.Order.Basic
import Mathlib.Order.WithBot

/-!
# Sorting by a key

`orderBy key l` puts the elements of a list in the order of a key, and leaves elements with equal
keys in the order they had: what `ORDER BY` on an append-only table and `sorted(key=…)` do. It
inserts the elements one after another, each behind everything that is not larger, so an element
added at the end of the list has a place that can be named: behind what is not later than it,
before what is (`orderBy_snoc`).

## Main definitions

* `orderBy`
* `nullsLast`

## Main results

* `orderBy_perm`, `orderBy_pairwise`
* `orderBy_snoc` — one more element at the end
* `orderBy_filter`
* `orderBy_eq_of_pairwise` — a list in strictly increasing order is its own sorting
-/

namespace Aixinwu

/-- A column with `NULL`s, ordered as an ascending sort does: they come last. -/
def nullsLast {α : Type*} : Option α → WithTop α
  | none => ⊤
  | some a => a

theorem nullsLast_injective {α : Type*} : Function.Injective (nullsLast (α := α))
  | none, none, _ => rfl
  | some _, some _, h => congrArg some (WithTop.coe_injective h)

section OrderBy

variable {α K : Type*} [LinearOrder K] (key : α → K)

/-- Put `a` behind everything whose key is not larger. -/
def insertBy (a : α) (l : List α) : List α :=
  l.takeWhile (key · ≤ key a) ++ a :: l.dropWhile (key · ≤ key a)

/-- The elements of `l` in the order of their keys; equal keys keep their order. -/
def orderBy (l : List α) : List α := l.foldl (fun sorted a => insertBy key a sorted) []

@[simp] theorem orderBy_nil : orderBy key [] = [] := rfl

theorem orderBy_concat (l : List α) (a : α) :
    orderBy key (l ++ [a]) = insertBy key a (orderBy key l) := by
  simp [orderBy, List.foldl_append]

theorem insertBy_perm (a : α) (l : List α) : (insertBy key a l).Perm (l ++ [a]) := by
  calc insertBy key a l
      = l.takeWhile (key · ≤ key a) ++ a :: l.dropWhile (key · ≤ key a) := rfl
    _ |>.Perm (a :: (l.takeWhile (key · ≤ key a) ++ l.dropWhile (key · ≤ key a))) :=
        List.perm_middle
    _ |>.Perm (l ++ [a]) := by
        rw [List.takeWhile_append_dropWhile]
        exact (List.perm_append_singleton a l).symm

theorem orderBy_perm (l : List α) : (orderBy key l).Perm l := by
  induction l using List.reverseRecOn with
  | nil => exact .nil
  | append_singleton l a ih =>
    rw [orderBy_concat]
    exact (insertBy_perm key a _).trans (ih.append_right [a])

@[simp] theorem mem_orderBy {l : List α} {a : α} : a ∈ orderBy key l ↔ a ∈ l :=
  (orderBy_perm key l).mem_iff

variable {key}

/-- In a sorted list what is not larger than a key stands in front. -/
theorem takeWhile_eq_filter {l : List α} (h : l.Pairwise fun a b => key a ≤ key b) (k : K) :
    l.takeWhile (key · ≤ k) = l.filter (key · ≤ k) := by
  induction l with
  | nil => rfl
  | cons a l ih =>
    rw [List.pairwise_cons] at h
    by_cases ha : key a ≤ k
    · simp [ha, ih h.2]
    · have hnone : l.filter (key · ≤ k) = [] := by
        refine List.filter_eq_nil_iff.mpr fun b hb => ?_
        simpa using lt_of_lt_of_le (not_le.mp ha) (h.1 b hb)
      simp [ha, hnone]

/-- And what is larger stands behind. -/
theorem dropWhile_eq_filter {l : List α} (h : l.Pairwise fun a b => key a ≤ key b) (k : K) :
    l.dropWhile (key · ≤ k) = l.filter (k < key ·) := by
  induction l with
  | nil => rfl
  | cons a l ih =>
    rw [List.pairwise_cons] at h
    by_cases ha : key a ≤ k
    · simp [ha, ih h.2]
    · have hall : l.filter (k < key ·) = l := by
        refine List.filter_eq_self.mpr fun b hb => ?_
        simpa using lt_of_lt_of_le (not_le.mp ha) (h.1 b hb)
      simp [ha, not_le.mp ha, hall]

theorem insertBy_eq {l : List α} (h : l.Pairwise fun a b => key a ≤ key b) (a : α) :
    insertBy key a l = l.filter (key · ≤ key a) ++ a :: l.filter (key a < key ·) := by
  rw [insertBy, takeWhile_eq_filter h, dropWhile_eq_filter h]

theorem insertBy_pairwise {l : List α} (h : l.Pairwise fun a b => key a ≤ key b) (a : α) :
    (insertBy key a l).Pairwise fun a b => key a ≤ key b := by
  rw [insertBy_eq h, List.pairwise_append, List.pairwise_cons]
  refine ⟨h.filter _, ⟨fun b hb => ?_, h.filter _⟩, fun b hb c hc => ?_⟩
  · have := List.of_mem_filter hb
    exact (by simpa using this : key a < key b).le
  · have hb : key b ≤ key a := by simpa using List.of_mem_filter hb
    rcases List.mem_cons.mp hc with rfl | hc
    · exact hb
    · have hc : key a < key c := by simpa using List.of_mem_filter hc
      exact hb.trans hc.le

variable (key)

theorem orderBy_pairwise (l : List α) : (orderBy key l).Pairwise fun a b => key a ≤ key b := by
  induction l using List.reverseRecOn with
  | nil => exact .nil
  | append_singleton l a ih =>
    rw [orderBy_concat]
    exact insertBy_pairwise ih a

/-- **One more element at the end** goes behind what is not larger and before what is. -/
theorem orderBy_snoc (l : List α) (a : α) :
    orderBy key (l ++ [a])
      = (orderBy key l).filter (key · ≤ key a) ++ a :: (orderBy key l).filter (key a < key ·) := by
  rw [orderBy_concat, insertBy_eq (orderBy_pairwise key l)]

/-- Splitting a sorted list at a key. -/
theorem filter_le_append_filter_lt (l : List α) (k : K) :
    (orderBy key l).filter (key · ≤ k) ++ (orderBy key l).filter (k < key ·) = orderBy key l := by
  rw [← takeWhile_eq_filter (orderBy_pairwise key l), ← dropWhile_eq_filter (orderBy_pairwise key l),
    List.takeWhile_append_dropWhile]

/-- Filtering and sorting commute. -/
theorem orderBy_filter (p : α → Bool) (l : List α) :
    orderBy key (l.filter p) = (orderBy key l).filter p := by
  induction l using List.reverseRecOn with
  | nil => rfl
  | append_singleton l a ih =>
    rw [List.filter_append, orderBy_snoc, List.filter_append]
    by_cases ha : p a
    · rw [List.filter_cons_of_pos ha, List.filter_nil, orderBy_snoc, ih,
        List.filter_cons_of_pos ha]
      simp only [List.filter_filter, Bool.and_comm]
    · rw [List.filter_cons_of_neg ha, List.filter_nil, List.append_nil, ih,
        List.filter_cons_of_neg ha, ← List.filter_append, filter_le_append_filter_lt]

/-- **A list in strictly increasing order** is what sorting any rearrangement of it gives. -/
theorem orderBy_eq_of_pairwise {l l' : List α} (hperm : l'.Perm l)
    (hkey : l.Pairwise fun a b => key a < key b) : orderBy key l' = l := by
  have hnodup : (l.map key).Nodup := List.pairwise_map.mpr (hkey.imp fun h => h.ne)
  refine List.Perm.eq_of_pairwise ?_ (orderBy_pairwise key l') (hkey.imp le_of_lt)
    ((orderBy_perm key l').trans hperm)
  intro a b ha hb hab hba
  have ha : a ∈ l := hperm.mem_iff.mp ((mem_orderBy key).mp ha)
  exact List.inj_on_of_nodup_map hnodup ha hb (le_antisymm hab hba)

end OrderBy

end Aixinwu
