import Mathlib.Data.List.Basic
import Mathlib.Data.List.TakeWhile

/-!
# Queues that keep the newest

A queue with room for `size` elements takes whatever is put into it, at its end, and drops from its
front what there is no room for; elements are taken from the front. A `Queue` keeps its history, and
its fields say how the history accounts for the elements: what was put is what is gone and after it
what is stored, and of what is gone some elements were taken, in their order, and the others dropped.

## Main definitions

* `newest`
* `Queue`, `Queue.add`, `Queue.take`

## Main results

* `newest_append_newest` — too many elements can be cut before they are put
* `reverse_newest` — on a list that grows at its head, the newest elements are the first
-/

namespace Aixinwu

namespace BoundedQueue

variable {α β : Type*} (size : ℕ)

/-- The newest elements, as many as there is room for. -/
def newest (l : List α) : List α := l.drop (l.length - size)

variable {size}

@[simp] theorem length_newest (l : List α) : (newest size l).length = min size l.length := by
  rw [newest, List.length_drop]
  omega

theorem newest_of_length_le {l : List α} (h : l.length ≤ size) : newest size l = l := by
  rw [newest, Nat.sub_eq_zero_of_le h, List.drop_zero]

theorem newest_map (f : α → β) (l : List α) : newest size (l.map f) = (newest size l).map f := by
  rw [newest, List.length_map, ← List.map_drop, newest]

/-- Where the elements at the end fill the queue, the ones before do not matter. -/
theorem newest_append_of_le {l l' : List α} (h : size ≤ l'.length) :
    newest size (l ++ l') = newest size l' := by
  have hlength : (l ++ l').length - size = l.length + (l'.length - size) := by
    rw [List.length_append]
    omega
  rw [newest, hlength, List.drop_append, newest]
  simp

/-- **Too many elements can be cut before they are put.** -/
theorem newest_append_newest (l l' : List α) :
    newest size (l ++ newest size l') = newest size (l ++ l') := by
  by_cases h : l'.length ≤ size
  · rw [newest_of_length_le h]
  · have hlength : (newest size l').length = size := by
      rw [length_newest]
      omega
    rw [newest_append_of_le hlength.ge, newest_append_of_le (by omega),
      newest_of_length_le hlength.le]

/-- On a list that grows at its head, the newest elements are the first. -/
theorem reverse_newest (l : List α) : (newest size l).reverse = l.reverse.take size := by
  rw [newest, List.reverse_drop]
  by_cases h : size ≤ l.length
  · rw [Nat.sub_sub_self h]
  · have hall : ∀ n, l.length ≤ n → l.reverse.take n = l.reverse := fun n hn =>
      List.take_of_length_le (by rw [List.length_reverse]; exact hn)
    rw [hall _ (by omega), hall _ (by omega)]

/-- **A queue with its history.** -/
structure Queue (size : ℕ) (α : Type*) where
  put : List α
  taken : List α
  dropped : ℕ
  stored : List α
  bounded : stored.length ≤ size
  accounts : ∃ gone, put = gone ++ stored ∧ taken.Sublist gone ∧ gone.length = taken.length + dropped

namespace Queue

/-- The queue at the beginning. -/
def empty : Queue size α := ⟨[], [], 0, [], Nat.zero_le size, [], rfl, List.Sublist.refl [], rfl⟩

variable (q : Queue size α)

/-- How many elements are dropped when some are put. -/
def overflow (l : List α) : ℕ := q.stored.length + l.length - size

/-- Elements are put at the end. -/
def add (l : List α) : Queue size α where
  put := q.put ++ l
  taken := q.taken
  dropped := q.dropped + q.overflow l
  stored := newest size (q.stored ++ l)
  bounded := by
    rw [length_newest]
    exact min_le_left _ _
  accounts := by
    obtain ⟨gone, hput, htaken, hlength⟩ := q.accounts
    refine ⟨gone ++ (q.stored ++ l).take (q.overflow l), ?_, ?_, ?_⟩
    · have hoverflow : (q.stored ++ l).length - size = q.overflow l := by
        rw [List.length_append, overflow]
      rw [hput, newest, hoverflow, List.append_assoc, List.append_assoc, List.take_append_drop]
    · exact htaken.trans (List.sublist_append_left _ _)
    · rw [List.length_append, hlength, List.length_take, List.length_append, overflow]
      omega

/-- Elements are taken from the front. -/
def take (n : ℕ) : Queue size α where
  put := q.put
  taken := q.taken ++ q.stored.take n
  dropped := q.dropped
  stored := q.stored.drop n
  bounded := by
    rw [List.length_drop]
    exact (Nat.sub_le _ _).trans q.bounded
  accounts := by
    obtain ⟨gone, hput, htaken, hlength⟩ := q.accounts
    refine ⟨gone ++ q.stored.take n, ?_, htaken.append_right _, ?_⟩
    · rw [hput, List.append_assoc, List.take_append_drop]
    · rw [List.length_append, List.length_append, hlength]
      omega

end Queue

end BoundedQueue

end Aixinwu
