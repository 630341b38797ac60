import Mathlib.Algebra.Group.Basic
import Mathlib.Algebra.BigOperators.Group.List.Basic

/-!
# Runs of a step function

A component that serves requests one after another is a step function `step : σ → α → σ`: the
state after the request `a` in state `s`. Requests that fail are steps too, so the function is
total and a failing request is one that leaves the state alone.

A run is a list of requests. What is wanted of it again and again is that an invariant holds in every
state it reaches. Often that is true only of runs whose steps meet a side condition, and the condition
is about the state *before* the step; `EachStep` carries it along the run.

## Main definitions

* `run` — the state after a list of requests
* `EachStep` — every step of the run meets a condition on the state before it
* `Reached` — a state reached somewhere along the run
* `countSteps` — how many steps are of a kind

## Main results

* `run_iff_exists`, `run_iff_forall` — what any step, or every step, decides
* `EachStep.inv`, `EachStep.inv_reached` — the invariant rule, for every state reached
* `eachStep_iff_reached` — when the condition is exact
* `countSteps_le_one`, `EachStep.countSteps_le_one` — the rule for what happens once
* `measure_run_le` — the rule for what comes to an end
-/

namespace Aixinwu

namespace Runs

variable {σ α : Type*} (step : σ → α → σ)

/-- The state after serving the requests `as`, in order, from `s`. -/
def run (s : σ) (as : List α) : σ := as.foldl step s

@[simp] theorem run_nil (s : σ) : run step s [] = s := rfl

@[simp] theorem run_cons (s : σ) (a : α) (as : List α) :
    run step s (a :: as) = run step (step s a) as := rfl

theorem run_append (s : σ) (as bs : List α) :
    run step s (as ++ bs) = run step (run step s as) bs :=
  List.foldl_append

variable {step} in
/-- What one of the requests brings about, and nothing undoes. -/
theorem run_iff_exists {P : σ → Prop} {Q : α → Prop} (h : ∀ s a, P (step s a) ↔ P s ∨ Q a) (s : σ)
    (as : List α) : P (run step s as) ↔ P s ∨ ∃ a ∈ as, Q a := by
  induction as generalizing s with
  | nil => simp
  | cons a as ih => rw [run_cons, ih, h, or_assoc, List.exists_mem_cons_iff]

variable {step} in
/-- What none of the requests may spoil, and nothing restores. -/
theorem run_iff_forall {P : σ → Prop} {Q : α → Prop} (h : ∀ s a, P (step s a) ↔ P s ∧ Q a) (s : σ)
    (as : List α) : P (run step s as) ↔ P s ∧ ∀ a ∈ as, Q a := by
  induction as generalizing s with
  | nil => simp
  | cons a as ih => rw [run_cons, ih, h, and_assoc, List.forall_mem_cons]

/-- Every step of the run from `s` meets `ok`, a condition on the state before the step and on
the request. -/
def EachStep (ok : σ → α → Prop) : σ → List α → Prop
  | _, [] => True
  | s, a :: as => ok s a ∧ EachStep ok (step s a) as

variable {step} {ok : σ → α → Prop}

@[simp] theorem eachStep_nil (s : σ) : EachStep step ok s [] := trivial

@[simp] theorem eachStep_cons (s : σ) (a : α) (as : List α) :
    EachStep step ok s (a :: as) ↔ ok s a ∧ EachStep step ok (step s a) as := Iff.rfl

theorem eachStep_append (s : σ) (as bs : List α) :
    EachStep step ok s (as ++ bs) ↔ EachStep step ok s as ∧ EachStep step ok (run step s as) bs := by
  induction as generalizing s with
  | nil => simp
  | cons a as ih => simp [ih, and_assoc]

variable (step) in
/-- `t` is the state after some first part of the run. -/
def Reached (s : σ) (as : List α) (t : σ) : Prop := ∃ bs, bs <+: as ∧ t = run step s bs

theorem reached_run (s : σ) (as : List α) : Reached step s as (run step s as) :=
  ⟨as, List.prefix_refl as, rfl⟩

/-- **The invariant rule.** What holds at the start and survives every step that meets the
condition holds at the end of a run of such steps. -/
theorem EachStep.inv {Inv : σ → Prop} (hstep : ∀ s a, Inv s → ok s a → Inv (step s a))
    {as : List α} {s : σ} (h : EachStep step ok s as) (hs : Inv s) : Inv (run step s as) := by
  induction as generalizing s with
  | nil => exact hs
  | cons a as ih => exact ih h.2 (hstep s a hs h.1)

/-- The invariant rule, in every state the run reaches. -/
theorem EachStep.inv_reached {Inv : σ → Prop} (hstep : ∀ s a, Inv s → ok s a → Inv (step s a))
    {as : List α} {s t : σ} (h : EachStep step ok s as) (hs : Inv s) (ht : Reached step s as t) :
    Inv t := by
  obtain ⟨bs, ⟨cs, rfl⟩, rfl⟩ := ht
  exact EachStep.inv hstep ((eachStep_append s bs cs).mp h).1 hs

/-- A run that meets a condition meets every weaker one. -/
theorem EachStep.mono {ok' : σ → α → Prop} (himp : ∀ s a, ok s a → ok' s a) :
    ∀ {as : List α} {s : σ}, EachStep step ok s as → EachStep step ok' s as
  | [], _, _ => trivial
  | _ :: _, _, h => ⟨himp _ _ h.1, EachStep.mono himp h.2⟩

/-- What an invariant and the condition say of a step, said of every step of the run. -/
theorem EachStep.inv_mono {Inv : σ → Prop} {ok' : σ → α → Prop}
    (hstep : ∀ s a, Inv s → ok s a → Inv (step s a)) (himp : ∀ s a, Inv s → ok s a → ok' s a) :
    ∀ {as : List α} {s : σ}, EachStep step ok s as → Inv s → EachStep step ok' s as
  | [], _, _, _ => trivial
  | _ :: _, _, h, hs => ⟨himp _ _ hs h.1, EachStep.inv_mono hstep himp h.2 (hstep _ _ hs h.1)⟩

/-- **The condition is exact.** Where the invariant gives the property, and the property after a step
gives back the condition, the property holds throughout a run exactly when every step meets the
condition. -/
theorem eachStep_iff_reached {Inv P : σ → Prop}
    (hstep : ∀ s a, Inv s → ok s a → Inv (step s a)) (hprop : ∀ s, Inv s → P s)
    (hback : ∀ s a, Inv s → P (step s a) → ok s a) {as : List α} {s : σ} (hs : Inv s) :
    (∀ t, Reached step s as t → P t) ↔ EachStep step ok s as := by
  constructor
  · intro h
    induction as generalizing s with
    | nil => trivial
    | cons a as ih =>
      have hok : ok s a := hback s a hs (h _ ⟨[a], ⟨as, rfl⟩, rfl⟩)
      refine ⟨hok, ih (hstep s a hs hok) ?_⟩
      rintro t ⟨bs, ⟨rest, rfl⟩, rfl⟩
      exact h _ ⟨a :: bs, ⟨rest, rfl⟩, rfl⟩
  · intro h t ht
    exact hprop t (EachStep.inv_reached hstep h hs ht)

/-! ### Steps that happen once -/

variable (step) in
/-- How many steps of the run are of the kind `p`. -/
def countSteps (p : σ → α → Bool) : σ → List α → ℕ
  | _, [] => 0
  | s, a :: as => (if p s a then 1 else 0) + countSteps p (step s a) as

/-- After the last step of a kind there is none of it. -/
theorem countSteps_eq_zero {p : σ → α → Bool} (Done : σ → Prop)
    (hkeep : ∀ s a, Done s → Done (step s a)) (hno : ∀ s a, Done s → p s a = false) :
    ∀ (as : List α) {s : σ}, Done s → countSteps step p s as = 0
  | [], _, _ => rfl
  | a :: as, s, h => by
    rw [countSteps, hno s a h, countSteps_eq_zero Done hkeep hno as (hkeep s a h)]
    rfl

/-- **The rule for what happens once.** A step of the kind leaves a mark, no step removes the mark,
and with the mark there is no further step of the kind. -/
theorem countSteps_le_one {p : σ → α → Bool} (Done : σ → Prop)
    (hkeep : ∀ s a, Done s → Done (step s a)) (hno : ∀ s a, Done s → p s a = false)
    (hmark : ∀ s a, p s a → Done (step s a)) :
    ∀ (as : List α) (s : σ), countSteps step p s as ≤ 1
  | [], _ => Nat.zero_le 1
  | a :: as, s => by
    rw [countSteps]
    by_cases h : p s a
    · rw [if_pos h]
      have hrest := countSteps_eq_zero Done hkeep hno as (hmark s a h)
      omega
    · rw [if_neg h, Nat.zero_add]
      exact countSteps_le_one Done hkeep hno hmark as (step s a)

/-- The rule for what happens once, where the steps meet a condition. -/
theorem EachStep.countSteps_le_one {p : σ → α → Bool} (Inv Done : σ → Prop)
    (hinv : ∀ s a, Inv s → ok s a → Inv (step s a))
    (hkeep : ∀ s a, Done s → ok s a → Done (step s a)) (hno : ∀ s a, Done s → p s a = false)
    (hmark : ∀ s a, Inv s → ok s a → p s a → Done (step s a)) {as : List α} {s : σ}
    (h : EachStep step ok s as) (hs : Inv s) : countSteps step p s as ≤ 1 := by
  have hzero : ∀ (as : List α) {s : σ}, EachStep step ok s as → Done s →
      countSteps step p s as = 0 := by
    intro as
    induction as with
    | nil => exact fun _ _ => rfl
    | cons a as ih =>
      intro s h hs
      rw [countSteps, hno s a hs, ih h.2 (hkeep s a hs h.1)]
      rfl
  induction as generalizing s with
  | nil => exact Nat.zero_le 1
  | cons a as ih =>
    rw [countSteps]
    by_cases hp : p s a
    · have hrest := hzero as h.2 (hmark s a hs h.1 hp)
      rw [if_pos hp]
      omega
    · rw [if_neg hp, Nat.zero_add]
      exact ih h.2 (hinv s a hs h.1)

/-! ### Steps that lead to an end -/

/-- **The rule for what comes to an end.** No step makes a measure larger, and every step of a kind
makes it smaller, while there is something left of it. -/
theorem measure_run_le {Inv : σ → Prop} {m : σ → ℕ} {p : α → Bool}
    (hinv : ∀ s a, Inv s → Inv (step s a))
    (hle : ∀ s a, Inv s → m (step s a) ≤ m s - if p a then 1 else 0) (as : List α) {s : σ}
    (hs : Inv s) : m (run step s as) ≤ m s - as.countP p := by
  induction as generalizing s with
  | nil => exact Nat.le_refl _
  | cons a as ih =>
    have hfirst := hle s a hs
    have hrest := ih (hinv s a hs)
    rw [run_cons, List.countP_cons]
    omega

/-- Without a condition every run qualifies. -/
theorem eachStep_true : ∀ (s : σ) (as : List α), EachStep step (fun _ _ => True) s as
  | _, [] => trivial
  | s, a :: as => ⟨trivial, eachStep_true (step s a) as⟩

end Runs

end Aixinwu
