import Mathlib.Data.List.Basic

/-!
# Steps that are tried on a copy

A list of steps is gone through. Each works on a copy of the state and gives a result; the copy takes
the place of the state only where the result says so.

So the last state is that of the results that were kept, one after the other, and a step that is not
kept could as well have been left out: **`attempts_eraseIdx`**.

## Main definitions

* `attempts`

## Main results

* `fst_attempts` — what the last state is
* `attempts_sim` — the steps on another state
* `attempts_eraseIdx` — a step left out
-/

namespace Aixinwu

namespace Tentative

variable {σ τ α β : Type*}

/-- The state after the steps, and their results. -/
def attempts (attempt : σ → α → σ × β) (keeps : β → Bool) : σ → List α → σ × List β
  | s, [] => (s, [])
  | s, a :: as =>
    let copy := attempt s a
    let rest := attempts attempt keeps (if keeps copy.2 then copy.1 else s) as
    (rest.1, copy.2 :: rest.2)

variable {attempt : σ → α → σ × β} {keeps : β → Bool} {s : σ}

@[simp] theorem attempts_nil : attempts attempt keeps s [] = (s, []) := rfl

theorem attempts_cons (a : α) (as : List α) :
    attempts attempt keeps s (a :: as)
      = ((attempts attempt keeps (if keeps (attempt s a).2 then (attempt s a).1 else s) as).1,
        (attempt s a).2 ::
          (attempts attempt keeps (if keeps (attempt s a).2 then (attempt s a).1 else s) as).2) :=
  rfl

theorem length_attempts (l : List α) : (attempts attempt keeps s l).2.length = l.length := by
  induction l generalizing s with
  | nil => rfl
  | cons a l ih => rw [attempts_cons, List.length_cons, List.length_cons, ih]

/-- What a result comes from. -/
theorem exists_of_mem_attempts {P : α → β → Prop} {l : List α} {b : β}
    (h : ∀ s, ∀ a ∈ l, P a (attempt s a).2) (hb : b ∈ (attempts attempt keeps s l).2) :
    ∃ a ∈ l, P a b := by
  induction l generalizing s with
  | nil => cases hb
  | cons a l ih =>
    rw [attempts_cons] at hb
    rcases List.mem_cons.mp hb with rfl | hb
    · exact ⟨a, List.mem_cons_self, h s a List.mem_cons_self⟩
    · obtain ⟨a', ha', hP⟩ := ih (fun s b hb => h s b (List.mem_cons_of_mem a hb)) hb
      exact ⟨a', List.mem_cons_of_mem a ha', hP⟩

/-- What a result comes from, by its place. -/
theorem exists_attempt_of_getElem {l : List α} {j : ℕ} {a : α} {b : β} (ha : l[j]? = some a)
    (hb : (attempts attempt keeps s l).2[j]? = some b) : ∃ t, (attempt t a).2 = b := by
  induction l generalizing s j with
  | nil => cases ha
  | cons a' l ih =>
    rw [attempts_cons] at hb
    cases j with
    | zero =>
      obtain rfl : a' = a := Option.some.inj ha
      exact ⟨s, Option.some.inj hb⟩
    | succ j => exact ih ha hb

/-- The last state is that of the results that were kept. -/
theorem fst_attempts {apply : σ → β → σ} {l : List α}
    (h : ∀ s, ∀ a ∈ l, keeps (attempt s a).2 = true →
      (attempt s a).1 = apply s (attempt s a).2) :
    (attempts attempt keeps s l).1
      = ((attempts attempt keeps s l).2.filter keeps).foldl apply s := by
  induction l generalizing s with
  | nil => rfl
  | cons a l ih =>
    have htail := fun s b hb => h s b (List.mem_cons_of_mem a hb)
    rw [attempts_cons]
    cases hkeeps : keeps (attempt s a).2 with
    | false =>
      rw [List.filter_cons_of_neg (by rw [hkeeps]; exact Bool.false_ne_true)]
      exact ih htail
    | true =>
      rw [List.filter_cons_of_pos hkeeps, List.foldl_cons, ← h s a List.mem_cons_self hkeeps]
      exact ih htail

/-- The steps on another state that goes along with the first. -/
theorem attempts_sim {attempt' : τ → α → τ × β} {φ : σ → τ} {l : List α}
    (h : ∀ s, ∀ a ∈ l, attempt' (φ s) a = (φ (attempt s a).1, (attempt s a).2)) :
    attempts attempt' keeps (φ s) l
      = (φ (attempts attempt keeps s l).1, (attempts attempt keeps s l).2) := by
  induction l generalizing s with
  | nil => rfl
  | cons a l ih =>
    have hnext : (if keeps (attempt s a).2 then φ (attempt s a).1 else φ s)
        = φ (if keeps (attempt s a).2 then (attempt s a).1 else s) := by
      split <;> rfl
    rw [attempts_cons, attempts_cons, h s a List.mem_cons_self]
    dsimp only
    rw [hnext, ih fun s b hb => h s b (List.mem_cons_of_mem a hb)]

/-- A step that is not kept, or that does not change the state, can be left out. -/
theorem attempts_eraseIdx {l : List α} {j : ℕ}
    (h : ∀ a ∈ l[j]?, ∀ b ∈ (attempts attempt keeps s l).2[j]?,
      keeps b = false ∨ ∀ t, (attempt t a).1 = t) :
    attempts attempt keeps s (l.eraseIdx j)
      = ((attempts attempt keeps s l).1, (attempts attempt keeps s l).2.eraseIdx j) := by
  induction l generalizing s j with
  | nil => rfl
  | cons a l ih =>
    cases j with
    | zero =>
      have hstate : (if keeps (attempt s a).2 then (attempt s a).1 else s) = s := by
        rcases h a rfl (attempt s a).2 rfl with hkeeps | hidle
        · rw [hkeeps]
          rfl
        · rw [hidle s]
          exact ite_self s
      rw [attempts_cons, hstate]
      rfl
    | succ j =>
      have htail := ih (s := if keeps (attempt s a).2 then (attempt s a).1 else s) (j := j) h
      rw [attempts_cons, List.eraseIdx_cons_succ, attempts_cons, htail]
      rfl

end Tentative

end Aixinwu
