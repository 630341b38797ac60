import Mathlib

/-!
# Streaks of consecutive days

Days are integers. A set of days, one of them the *starting day* `d₀` with a streak of `c` behind
it, determines the length of the run of consecutive days that ends at any later day: `streak`
counts it, day by day, from the starting day up. A run that reaches back to the starting day also
counts what was there before, which is how a counter that is switched on late behaves.

`streak` reads only the days strictly before the one it is asked about. That is the fact the
induction over a growing set of days lives on: a day added at the end changes no earlier streak.

## Main definitions

* `streak` — the length of the run of consecutive days ending at a day

## Main results

* `streak_congr` — only the days before count
-/

namespace Aixinwu

namespace Streak

/-- `streak` by the number of days since the starting day. -/
def streakFrom (D : ℤ → Prop) [DecidablePred D] (d₀ c : ℤ) : ℕ → ℤ
  | 0 => c
  | k + 1 => if D (d₀ + k) then streakFrom D d₀ c k + 1 else 1

/-- The length of the run of consecutive days of `D` that ends at day `n`, `n` itself counted as
one of them; a run that reaches the starting day `d₀` is longer by what had been counted before. -/
def streak (D : ℤ → Prop) [DecidablePred D] (d₀ c n : ℤ) : ℤ :=
  streakFrom D d₀ c (n - d₀).toNat

variable {D E : ℤ → Prop} [DecidablePred D] [DecidablePred E] {d₀ c : ℤ}

@[simp] theorem streak_self : streak D d₀ c d₀ = c := by simp [streak, streakFrom]

theorem streak_succ {n : ℤ} (h : d₀ ≤ n) :
    streak D d₀ c (n + 1) = if D n then streak D d₀ c n + 1 else 1 := by
  obtain ⟨k, rfl⟩ := Int.le.dest h
  rw [streak, streak, show (d₀ + k + 1 - d₀).toNat = k + 1 by omega,
    show (d₀ + k - d₀).toNat = k by omega, streakFrom]

/-- After a day without an entry the run starts anew. -/
theorem streak_of_not_mem {n : ℤ} (h : d₀ < n) (hn : ¬ D (n - 1)) : streak D d₀ c n = 1 := by
  have := streak_succ (D := D) (c := c) (n := n - 1) (by omega : d₀ ≤ n - 1)
  rw [sub_add_cancel] at this
  rw [this, if_neg hn]

/-- After a day with an entry the run goes on. -/
theorem streak_of_mem {n : ℤ} (h : d₀ < n) (hn : D (n - 1)) :
    streak D d₀ c n = streak D d₀ c (n - 1) + 1 := by
  have := streak_succ (D := D) (c := c) (n := n - 1) (by omega : d₀ ≤ n - 1)
  rw [sub_add_cancel] at this
  rw [this, if_pos hn]

/-- Only the days before `n` count, so later entries leave the streak at `n` alone. -/
theorem streak_congr {n : ℤ} (h : ∀ m, d₀ ≤ m → m < n → (D m ↔ E m)) :
    streak D d₀ c n = streak E d₀ c n := by
  have key : ∀ k : ℕ, (∀ m, d₀ ≤ m → m < d₀ + k → (D m ↔ E m)) →
      streakFrom D d₀ c k = streakFrom E d₀ c k := by
    intro k
    induction k with
    | zero => intro _; rfl
    | succ k ih =>
      intro hk
      rw [streakFrom, streakFrom, ih fun m h₁ h₂ => hk m h₁ (by push_cast; omega)]
      simp only [hk (d₀ + k) (by omega) (by push_cast; omega)]
  exact key _ fun m h₁ h₂ => h m h₁ (by omega)

end Streak

end Aixinwu
