import Aixinwu.Lib.KeyedSums
import Mathlib.Algebra.Order.Group.Int
import Mathlib.Logic.Function.Basic
import Mathlib.Tactic.Abel

/-!
# Draws on keyed accounts

Accounts are kept by key, and amounts are drawn from them one after another. A draw is covered if it
leaves the account at its floor or above. All draws of a list are covered one after another exactly
if every part of the list up to some draw leaves the accounts it touches at their floors or above,
and the accounts then hold what they held less the sums of their draws.

## Main definitions

* `drawn` — the accounts after a list of draws
* `Covers` — every part of a list up to some draw is covered

## Main results

* `covers_cons`
* `le_drawn_of_covers`
-/

namespace Aixinwu

namespace Keyed

variable {κ : Type*} [DecidableEq κ] {floor held : κ → ℤ} {k : κ} {n : ℤ} {draws : List (κ × ℤ)}

/-- What accounts hold after draws. -/
def drawn (held : κ → ℤ) (draws : List (κ × ℤ)) (k : κ) : ℤ := held k - sumAt k draws

@[simp] theorem drawn_nil : drawn held [] = held := by
  funext k
  exact sub_zero (held k)

/-- The first draw is done, and then the others. -/
theorem drawn_cons (k : κ) (n : ℤ) (draws : List (κ × ℤ)) :
    drawn held ((k, n) :: draws) = drawn (Function.update held k (held k - n)) draws := by
  funext j
  rw [drawn, drawn, sumAt_cons]
  by_cases hj : j = k
  · subst hj
    rw [Function.update_self, if_pos rfl]
    abel
  · rw [Function.update_of_ne hj, if_neg (Ne.symm hj), zero_add]

/-- Every part of the draws up to some draw leaves the accounts it touches at their floors or
above. -/
def Covers (floor held : κ → ℤ) (draws : List (κ × ℤ)) : Prop :=
  ∀ done, done <+: draws → ∀ k ∈ done.map Prod.fst, floor k ≤ drawn held done k

theorem covers_nil : Covers floor held [] := by
  intro done hdone k hk
  rw [List.prefix_nil.mp hdone] at hk
  cases hk

/-- **The draws are covered** one after another. -/
theorem covers_cons :
    Covers floor held ((k, n) :: draws)
      ↔ floor k ≤ held k - n ∧ Covers floor (Function.update held k (held k - n)) draws := by
  constructor
  · intro h
    constructor
    · have hfirst := h [(k, n)] ⟨draws, rfl⟩ k List.mem_cons_self
      rwa [drawn_cons, drawn_nil, Function.update_self] at hfirst
    · intro done hdone j hj
      rw [← drawn_cons]
      exact h ((k, n) :: done) ((List.prefix_cons_inj _).mpr hdone) j (List.mem_cons_of_mem _ hj)
  · rintro ⟨hfirst, hrest⟩ done hdone j hj
    rcases List.prefix_cons_iff.mp hdone with rfl | ⟨rest, rfl, hprefix⟩
    · cases hj
    · rw [drawn_cons]
      by_cases hlater : j ∈ rest.map Prod.fst
      · exact hrest rest hprefix j hlater
      · -- only the first draw touches the account
        have hjk : j = k := (List.mem_cons.mp hj).resolve_right hlater
        rw [drawn, sumAt_of_not_mem hlater, sub_zero, hjk, Function.update_self]
        exact hfirst

/-- Covered draws leave every account that is touched at its floor or above. -/
theorem le_drawn_of_covers (h : Covers floor held draws) (hk : k ∈ draws.map Prod.fst) :
    floor k ≤ drawn held draws k :=
  h draws (List.prefix_refl _) k hk

end Keyed

end Aixinwu
