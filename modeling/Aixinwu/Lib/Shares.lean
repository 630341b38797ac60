import Mathlib.Algebra.BigOperators.Ring.List
import Mathlib.Algebra.Order.Field.Basic
import Mathlib.Tactic.Abel
import Mathlib.Tactic.FieldSimp
import Mathlib.Tactic.Ring

/-!
# Proportional shares

An amount `d` is spread over some parts in proportion to them: a part `x` of the whole `total`
carries `x / total * d`. The last part is often given what the others leave instead, so that the
shares add up to `d` whatever happens to them on the way. Where nothing is rounded the two are the
same, `remainder_eq_share`; the case to look at is that the whole is zero.

## Main definitions

* `share`, `remainder`

## Main results

* `remainder_eq_share`
* `share_nonneg`, `share_le`, `sum_sub_share`
-/

namespace Aixinwu

namespace Shares

variable {K : Type*} [Field K] {total d x : K}

/-- What a part carries. -/
def share (total d x : K) : K := x / total * d

/-- What the other parts leave. -/
def remainder (total d : K) (others : List K) : K := d - (others.map (share total d)).sum

theorem sum_share (total d : K) (xs : List K) :
    (xs.map (share total d)).sum = share total d xs.sum := by
  induction xs with
  | nil => rw [List.map_nil, List.sum_nil, share, zero_div, zero_mul]
  | cons x xs ih =>
    rw [List.map_cons, List.sum_cons, ih, List.sum_cons, share, share, share, add_div, add_mul]

/-- The whole carries everything. -/
theorem share_self (h : total ≠ 0) : share total d total = d := by
  rw [share, div_self h, one_mul]

/-- **The remainder is the share of the last part.** -/
theorem remainder_eq_share {others : List K} (hsum : others.sum + x = total) (h : total ≠ 0) :
    remainder total d others = share total d x := by
  have hadd : share total d others.sum + share total d x = d := by
    rw [share, share, ← add_mul, ← add_div, hsum]
    exact share_self h
  rw [remainder, sum_share]
  exact sub_eq_of_eq_add' hadd.symm

/-- What is left of the parts. -/
theorem sum_sub_share {xs : List K} (h : xs.sum ≠ 0) (d : K) :
    (xs.map fun x => x - share xs.sum d x).sum = xs.sum - d := by
  have hsub : ∀ ys : List K, (ys.map fun x => x - share xs.sum d x).sum =
      ys.sum - (ys.map (share xs.sum d)).sum := by
    intro ys
    induction ys with
    | nil => exact (sub_zero 0).symm
    | cons y ys ih =>
      rw [List.map_cons, List.sum_cons, ih, List.sum_cons, List.map_cons, List.sum_cons]
      abel
  rw [hsub, sum_share, share_self h]

variable [LinearOrder K] [IsStrictOrderedRing K]

theorem share_nonneg (hx : 0 ≤ x) (hd : 0 ≤ d) (h : 0 ≤ total) : 0 ≤ share total d x :=
  mul_nonneg (div_nonneg hx h) hd

/-- A part carries at most itself. -/
theorem share_le (hx : 0 ≤ x) (hd : d ≤ total) (h : 0 < total) : share total d x ≤ x := by
  have hle : share total d x ≤ share total total x :=
    mul_le_mul_of_nonneg_left hd (div_nonneg hx h.le)
  have hself : share total total x = x := div_mul_cancel₀ x h.ne'
  exact hle.trans_eq hself

end Shares

end Aixinwu
