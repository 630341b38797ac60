import Mathlib.Algebra.BigOperators.Group.List.Basic

/-!
# Increments kept by key

A batch of increments is a list of pairs, a key and an amount. Two ways of applying it to a
keyed collection differ: one after another, where a key receives the sum of its amounts, and in
one go with the first entry of a key deciding, where it receives the first of them. The second is
what a single statement with one conditional per entry does.

The two agree at a key exactly when the later amounts of that key add up to zero, in particular
when the key occurs once.

## Main definitions

* `valuesAt`, `sumAt`, `firstAt`, `lastAt`

## Main results

* `firstAt_eq_sumAt_iff`
* `firstAt_eq_sumAt_of_nodup`
-/

namespace Aixinwu

namespace Keyed

variable {κ M : Type*} [DecidableEq κ]

/-- The amounts of the entries with key `k`, in order. -/
def valuesAt (k : κ) (l : List (κ × M)) : List M := (l.filter (·.1 = k)).map (·.2)

@[simp] theorem valuesAt_nil (k : κ) : valuesAt k ([] : List (κ × M)) = [] := rfl

theorem valuesAt_cons (k : κ) (e : κ × M) (l : List (κ × M)) :
    valuesAt k (e :: l) = if e.1 = k then e.2 :: valuesAt k l else valuesAt k l := by
  by_cases h : e.1 = k <;> simp [valuesAt, h]

@[simp] theorem valuesAt_append (k : κ) (l l' : List (κ × M)) :
    valuesAt k (l ++ l') = valuesAt k l ++ valuesAt k l' := by
  simp [valuesAt]

section AddCommMonoid

variable [AddCommMonoid M]

/-- What a key receives when the entries are applied one after another. -/
def sumAt (k : κ) (l : List (κ × M)) : M := (valuesAt k l).sum

/-- What a key receives when its first entry decides. -/
def firstAt (k : κ) (l : List (κ × M)) : M := (valuesAt k l).head?.getD 0

/-- The last amount of a key. -/
def lastAt (k : κ) (l : List (κ × M)) : M := (valuesAt k l).getLast?.getD 0

@[simp] theorem sumAt_nil (k : κ) : sumAt k ([] : List (κ × M)) = 0 := rfl

theorem sumAt_cons (k : κ) (e : κ × M) (l : List (κ × M)) :
    sumAt k (e :: l) = (if e.1 = k then e.2 else 0) + sumAt k l := by
  rw [sumAt, valuesAt_cons]
  by_cases h : e.1 = k <;> simp [h, sumAt]

@[simp] theorem sumAt_append (k : κ) (l l' : List (κ × M)) :
    sumAt k (l ++ l') = sumAt k l + sumAt k l' := by
  simp [sumAt]

/-- The entries made of a list. -/
theorem sumAt_map {α : Type*} (key : α → κ) (f : α → M) (k : κ) (l : List α) :
    sumAt k (l.map fun a => (key a, f a)) = ((l.filter (key · = k)).map f).sum := by
  rw [sumAt, valuesAt, List.filter_map, List.map_map]
  rfl

theorem sumAt_of_not_mem {k : κ} {l : List (κ × M)} (h : k ∉ l.map (·.1)) : sumAt k l = 0 := by
  have : l.filter (·.1 = k) = [] := by
    refine List.filter_eq_nil_iff.mpr fun e he => ?_
    simpa using fun hk : e.1 = k => h (hk ▸ List.mem_map_of_mem he)
  simp [sumAt, valuesAt, this]

/-- The sum of a key is its first amount and the rest. -/
theorem sumAt_eq_firstAt_add (k : κ) (l : List (κ × M)) :
    sumAt k l = firstAt k l + (valuesAt k l).tail.sum := by
  rw [sumAt, firstAt]
  cases valuesAt k l <;> simp

/-- A key that occurs once receives the same either way. -/
theorem firstAt_eq_sumAt_of_nodup {l : List (κ × M)} (h : (l.map (·.1)).Nodup) (k : κ) :
    firstAt k l = sumAt k l := by
  induction l with
  | nil => rfl
  | cons e l ih =>
    rw [List.map_cons, List.nodup_cons] at h
    by_cases hk : e.1 = k
    · have hrest : sumAt k l = 0 := sumAt_of_not_mem (hk ▸ h.1)
      rw [sumAt_cons, hrest]
      simp [firstAt, valuesAt_cons, hk]
    · rw [sumAt_cons, ← ih h.2]
      simp [firstAt, valuesAt_cons, hk]

/-- Where each key occurs once its only amount is the last. -/
theorem lastAt_of_mem {l : List (κ × M)} (h : (l.map (·.1)).Nodup) {e : κ × M} (he : e ∈ l) :
    lastAt e.1 l = e.2 := by
  induction l with
  | nil => cases he
  | cons d l ih =>
    obtain ⟨hd, hl⟩ := List.nodup_cons.mp h
    rcases List.mem_cons.mp he with rfl | he
    · have hnone : valuesAt e.1 l = [] := by
        rw [valuesAt, List.map_eq_nil_iff, List.filter_eq_nil_iff]
        intro c hc hk
        exact hd (List.mem_map.mpr ⟨c, hc, of_decide_eq_true hk⟩)
      rw [lastAt, valuesAt_cons, if_pos rfl, hnone]
      rfl
    · have hne : d.1 ≠ e.1 := fun hk => hd (List.mem_map.mpr ⟨e, he, hk.symm⟩)
      rw [lastAt, valuesAt_cons, if_neg hne]
      exact ih hl he

end AddCommMonoid

/-- **The first entry decides correctly** exactly when the later amounts of the key add up to
zero. -/
theorem firstAt_eq_sumAt_iff [AddCommGroup M] {k : κ} {l : List (κ × M)} :
    firstAt k l = sumAt k l ↔ (valuesAt k l).tail.sum = 0 := by
  rw [sumAt_eq_firstAt_add]
  exact ⟨fun h => add_eq_left.mp h.symm, fun h => (add_eq_left.mpr h).symm⟩

end Keyed

end Aixinwu
