import Mathlib.Algebra.BigOperators.Group.List.Basic
import Mathlib.Algebra.Order.BigOperators.Group.List
import Mathlib.Algebra.Order.Group.Nat
import Mathlib.Data.List.Nodup
import Mathlib.Tactic.Abel

/-!
# Sums over the rows that match

`filter(p).aggregate(Sum(f))` adds a column up over some rows of a table. What is wanted of such a
sum is how it follows the rows: it splits over an appended batch, does not depend on their order,
and changing every row changes it row by row. Grouping by a key is the same sum with a condition on
the key, and adding up the groups of some keys gives the sum over the rows with one of them.

## Main definitions

* `sumIf`

## Main results

* `sumIf_append`, `sumIf_perm`, `sumIf_map`
* `sum_sumIf_key` — the groups of some keys
-/

namespace Aixinwu

section Aggregates

variable {ρ κ M : Type*}

/-- An entry of the first of two corresponding lists has its counterpart in the second. -/
theorem exists_of_forall₂ {σ : Type*} {R : ρ → σ → Prop} {l : List ρ} {l' : List σ}
    (h : List.Forall₂ R l l') {r : ρ} (hr : r ∈ l) : ∃ s ∈ l', R r s := by
  induction h with
  | nil => cases hr
  | @cons r' s l l' hrs _ ih =>
    rcases List.mem_cons.mp hr with rfl | hr
    · exact ⟨s, List.mem_cons_self, hrs⟩
    · obtain ⟨s', hs', h⟩ := ih hr
      exact ⟨s', List.mem_cons_of_mem s hs', h⟩

/-- What a function that can fail makes of the entries. -/
theorem forall₂_of_mapM {σ : Type*} {f : ρ → Option σ} :
    ∀ {l : List ρ} {l' : List σ}, l.mapM f = some l' →
      List.Forall₂ (fun r s => f r = some s) l l'
  | [], l', h => by
    obtain rfl : [] = l' := Option.some.inj h
    exact List.Forall₂.nil
  | r :: l, l', h => by
    rw [List.mapM_cons, Option.bind_eq_bind, Option.bind_eq_some_iff] at h
    obtain ⟨s, hs, h⟩ := h
    obtain ⟨t, ht, h⟩ := Option.bind_eq_some_iff.mp h
    obtain rfl : s :: t = l' := Option.some.inj h
    exact List.Forall₂.cons hs (forall₂_of_mapM ht)

/-- A function that does not fail on a list has a value on every entry. -/
theorem isSome_of_mapM {σ : Type*} {f : ρ → Option σ} {l : List ρ} {l' : List σ}
    (h : l.mapM f = some l') {r : ρ} (hr : r ∈ l) : (f r).isSome := by
  obtain ⟨s, -, hs⟩ := exists_of_forall₂ (forall₂_of_mapM h) hr
  exact Option.isSome_of_eq_some hs

/-- A function that can fail and has a value on every entry. -/
theorem mapM_eq_some_map {σ : Type*} {f : ρ → Option σ} {g : ρ → σ} {l : List ρ}
    (h : ∀ r ∈ l, f r = some (g r)) : l.mapM f = some (l.map g) := by
  induction l with
  | nil => rfl
  | cons r l ih =>
    have htail : l.mapM f = some (l.map g) := ih fun s hs => h s (List.mem_cons_of_mem r hs)
    rw [List.mapM_cons, h r List.mem_cons_self, htail]
    rfl

/-- Where every entry has a value, these are the values. -/
theorem filterMap_eq_map_of_forall₂ {σ τ : Type*} {f : ρ → Option τ} {g : σ → τ} {l : List ρ}
    {l' : List σ} (h : List.Forall₂ (fun r s => f r = some (g s)) l l') :
    l.filterMap f = l'.map g := by
  induction h with
  | nil => rfl
  | cons hrs _ ih => rw [List.filterMap_cons_some hrs, ih, List.map_cons]

/-- What comes out of a function applied to a result that can be an error. -/
theorem exists_of_map_eq_ok {ε σ : Type*} {x : Except ε ρ} {f : ρ → σ} {s : σ}
    (h : x.map f = .ok s) : ∃ r, x = .ok r ∧ f r = s := by
  cases x with
  | error e => cases h
  | ok r => exact ⟨r, rfl, Except.ok.inj h⟩

/-- What comes out of a computation and the one that goes on with its result. -/
theorem exists_of_bind_eq_ok {ε σ : Type*} {x : Except ε ρ} {f : ρ → Except ε σ} {s : σ}
    (h : x.bind f = .ok s) : ∃ r, x = .ok r ∧ f r = .ok s := by
  cases x with
  | error e => cases h
  | ok r => exact ⟨r, rfl, h⟩

section AddCommMonoid

variable [AddCommMonoid M] (p : ρ → Bool) (f : ρ → M)

/-- The sum of `f` over the elements that satisfy `p`. -/
def sumIf (l : List ρ) : M := ((l.filter p).map f).sum

@[simp] theorem sumIf_nil : sumIf p f [] = 0 := rfl

theorem sumIf_cons (r : ρ) (l : List ρ) :
    sumIf p f (r :: l) = (if p r then f r else 0) + sumIf p f l := by
  by_cases h : p r <;> simp [sumIf, h]

@[simp] theorem sumIf_append (l l' : List ρ) :
    sumIf p f (l ++ l') = sumIf p f l + sumIf p f l' := by
  simp [sumIf]

theorem sumIf_perm {l l' : List ρ} (h : l.Perm l') : sumIf p f l = sumIf p f l' :=
  ((h.filter p).map f).sum_eq

/-- Changing every row. -/
theorem sumIf_map {σ : Type*} (g : σ → ρ) (l : List σ) :
    sumIf p f (l.map g) = sumIf (p ∘ g) (f ∘ g) l := by
  rw [sumIf, List.filter_map, List.map_map]
  rfl

theorem sumIf_filter (q : ρ → Bool) (l : List ρ) :
    sumIf p f (l.filter q) = sumIf (fun r => p r && q r) f l := by
  rw [sumIf, List.filter_filter]
  rfl

/-- Only some rows contribute. -/
theorem sumIf_ite (q : ρ → Bool) (l : List ρ) :
    sumIf p (fun r => if q r then f r else 0) l = sumIf p f (l.filter q) := by
  induction l with
  | nil => rfl
  | cons r l ih =>
    rw [sumIf_cons, ih, List.filter_cons]
    by_cases h : q r
    · rw [if_pos h, if_pos h, sumIf_cons]
    · rw [if_neg h, if_neg h, ite_self, zero_add]

/-- The rows made of the entries of a list. -/
theorem sumIf_flatMap {σ : Type*} (g : σ → List ρ) (l : List σ) :
    sumIf p f (l.flatMap g) = (l.map fun s => sumIf p f (g s)).sum := by
  induction l with
  | nil => rfl
  | cons s l ih => rw [List.flatMap_cons, sumIf_append, ih, List.map_cons, List.sum_cons]

/-- A sum with a condition, as a sum without one. -/
theorem sum_map_ite (P : ρ → Prop) [DecidablePred P] (l : List ρ) :
    (l.map fun r => if P r then f r else 0).sum = sumIf (fun r => decide (P r)) f l := by
  induction l with
  | nil => rfl
  | cons r l ih =>
    rw [List.map_cons, List.sum_cons, ih, sumIf_cons]
    by_cases h : P r <;> simp [h]

variable {p f}

theorem sumIf_congr {p' : ρ → Bool} {f' : ρ → M} {l : List ρ} (hp : ∀ r ∈ l, p r = p' r)
    (hf : ∀ r ∈ l, p r → f r = f' r) : sumIf p f l = sumIf p' f' l := by
  induction l with
  | nil => rfl
  | cons r l ih =>
    have hrest : sumIf p f l = sumIf p' f' l :=
      ih (fun s hs => hp s (List.mem_cons_of_mem r hs)) fun s hs =>
        hf s (List.mem_cons_of_mem r hs)
    rw [sumIf_cons, sumIf_cons, hrest, ← hp r List.mem_cons_self]
    by_cases h : p r
    · rw [if_pos h, if_pos h, hf r List.mem_cons_self h]
    · rw [if_neg h, if_neg h]

theorem sumIf_eq_zero {l : List ρ} (h : ∀ r ∈ l, p r → f r = 0) : sumIf p f l = 0 := by
  refine List.sum_eq_zero fun x hx => ?_
  obtain ⟨r, hr, rfl⟩ := List.mem_map.mp hx
  obtain ⟨hmem, hp⟩ := List.mem_filter.mp hr
  exact h r hmem hp

/-- Rows whose value is zero may be left out. -/
theorem sumIf_of_subset {q : ρ → Bool} {l : List ρ} (hq : ∀ r ∈ l, q r → p r)
    (hf : ∀ r ∈ l, p r → ¬ q r → f r = 0) : sumIf q f l = sumIf p f l := by
  induction l with
  | nil => rfl
  | cons r l ih =>
    rw [sumIf_cons, sumIf_cons, ih (fun s hs => hq s (List.mem_cons_of_mem r hs)) fun s hs =>
      hf s (List.mem_cons_of_mem r hs)]
    by_cases h : q r
    · rw [if_pos h, if_pos (hq r List.mem_cons_self h)]
    · by_cases hp : p r
      · rw [if_neg h, if_pos hp, hf r List.mem_cons_self hp h]
      · rw [if_neg h, if_neg hp]

/-- Two lists that correspond entry by entry. -/
theorem sumIf_forall₂ {σ : Type*} {R : ρ → σ → Prop} {q : σ → Bool} {g : σ → M} {l : List ρ}
    {l' : List σ} (h : List.Forall₂ R l l') (hp : ∀ r s, R r s → p r = q s)
    (hf : ∀ r s, R r s → p r → f r = g s) : sumIf p f l = sumIf q g l' := by
  induction h with
  | nil => rfl
  | @cons r s l l' hrs _ ih =>
    rw [sumIf_cons, sumIf_cons, ih, ← hp r s hrs]
    by_cases hr : p r
    · rw [if_pos hr, if_pos hr, hf r s hrs hr]
    · rw [if_neg hr, if_neg hr]

/-- All rows match. -/
theorem sumIf_of_forall {l : List ρ} (h : ∀ r ∈ l, p r) : sumIf p f l = (l.map f).sum := by
  rw [sumIf, List.filter_eq_self.mpr h]

/-- One row matches. -/
theorem sumIf_eq_single {l : List ρ} (hl : l.Nodup) {r : ρ} (hr : r ∈ l)
    (h : ∀ s ∈ l, p s ↔ s = r) : sumIf p f l = f r := by
  induction l with
  | nil => cases hr
  | cons s l ih =>
    obtain ⟨hs, hl⟩ := List.nodup_cons.mp hl
    rw [sumIf_cons]
    by_cases hsr : s = r
    · have hrest : sumIf p f l = 0 := by
        refine sumIf_eq_zero fun t ht hp => absurd ?_ hs
        rw [hsr, ← (h t (List.mem_cons_of_mem s ht)).mp hp]
        exact ht
      rw [if_pos ((h s List.mem_cons_self).mpr hsr), hrest, add_zero, hsr]
    · have hr : r ∈ l := (List.mem_cons.mp hr).resolve_left (Ne.symm hsr)
      rw [if_neg fun hp => hsr ((h s List.mem_cons_self).mp hp), zero_add]
      exact ih hl hr fun t ht => h t (List.mem_cons_of_mem s ht)

/-- Two conditions that exclude each other. -/
theorem sumIf_or {q : ρ → Bool} {l : List ρ} (h : ∀ r ∈ l, p r → ¬ q r) :
    sumIf (fun r => p r || q r) f l = sumIf p f l + sumIf q f l := by
  induction l with
  | nil => simp
  | cons r l ih =>
    rw [sumIf_cons, sumIf_cons, sumIf_cons, ih fun s hs => h s (List.mem_cons_of_mem r hs)]
    by_cases hp : p r
    · have hq : ¬ q r := h r List.mem_cons_self hp
      simp only [hp, hq, Bool.true_or, if_true, Bool.false_eq_true, if_false, zero_add]
      exact (add_assoc _ _ _).symm
    · simp only [hp, Bool.false_or, Bool.false_eq_true, if_false, zero_add]
      exact add_left_comm _ _ _

/-- **The groups of some keys** make up the rows with one of these keys. -/
theorem sum_sumIf_key [DecidableEq κ] (key : ρ → κ) (f : ρ → M) {ks : List κ} (hks : ks.Nodup)
    (l : List ρ) :
    (ks.map fun k => sumIf (fun r => key r = k) f l).sum = sumIf (fun r => key r ∈ ks) f l := by
  induction ks with
  | nil => exact (sumIf_eq_zero fun r _ hr => by simp at hr).symm
  | cons k ks ih =>
    obtain ⟨hk, hks⟩ := List.nodup_cons.mp hks
    have hor : sumIf (fun r => key r ∈ k :: ks) f l
        = sumIf (fun r => (decide (key r = k)) || decide (key r ∈ ks)) f l :=
      sumIf_congr (fun r _ => by simp) fun _ _ _ => rfl
    rw [List.map_cons, List.sum_cons, ih hks, hor]
    refine (sumIf_or fun r _ hr hmem => hk ?_).symm
    rw [← of_decide_eq_true hr]
    exact of_decide_eq_true hmem

end AddCommMonoid

theorem sumIf_sub [AddCommGroup M] (p : ρ → Bool) (f g : ρ → M) (l : List ρ) :
    sumIf p (fun r => f r - g r) l = sumIf p f l - sumIf p g l := by
  induction l with
  | nil => exact (sub_zero 0).symm
  | cons r l ih =>
    rw [sumIf_cons, sumIf_cons, sumIf_cons, ih]
    split
    · abel
    · rw [zero_add, zero_add, zero_add]

/-- A sum of integers that are not negative is not negative. -/
theorem sumIf_nonneg {p : ρ → Bool} {f : ρ → ℤ} {l : List ρ} (h : ∀ r ∈ l, 0 ≤ f r) :
    0 ≤ sumIf p f l := by
  refine List.sum_nonneg fun x hx => ?_
  obtain ⟨r, hr, rfl⟩ := List.mem_map.mp hx
  exact h r (List.mem_of_mem_filter hr)

/-- Fewer rows make no larger sum. -/
theorem sumIf_le_sumIf {p q : ρ → Bool} {f : ρ → ℤ} {l : List ρ} (hpq : ∀ r ∈ l, p r → q r)
    (hf : ∀ r ∈ l, 0 ≤ f r) : sumIf p f l ≤ sumIf q f l := by
  induction l with
  | nil => exact le_rfl
  | cons r l ih =>
    have hrest : sumIf p f l ≤ sumIf q f l :=
      ih (fun s hs => hpq s (List.mem_cons_of_mem r hs)) fun s hs =>
        hf s (List.mem_cons_of_mem r hs)
    have hr := hf r List.mem_cons_self
    rw [sumIf_cons, sumIf_cons]
    by_cases hp : p r
    · rw [if_pos hp, if_pos (hpq r List.mem_cons_self hp)]
      omega
    · rw [if_neg hp]
      split <;> omega

/-- Two sums are equal if they are row by row, where one is nowhere the larger. -/
theorem sum_map_eq_iff_of_le {f g : ρ → ℤ} {l : List ρ} (h : ∀ r ∈ l, f r ≤ g r) :
    (l.map f).sum = (l.map g).sum ↔ ∀ r ∈ l, f r = g r := by
  induction l with
  | nil => simp
  | cons r l ih =>
    have hrest : ∀ s ∈ l, f s ≤ g s := fun s hs => h s (List.mem_cons_of_mem r hs)
    have hle : (l.map f).sum ≤ (l.map g).sum := List.sum_le_sum hrest
    have hr := h r List.mem_cons_self
    rw [List.forall_mem_cons, ← ih hrest, List.map_cons, List.sum_cons, List.map_cons, List.sum_cons]
    omega

end Aggregates

end Aixinwu
