import Aixinwu.Lib.Runs
import Mathlib.Logic.Function.Basic

/-!
# Interleaved requests

Requests that are served at the same time share a state and keep a memory of their own between
their reads and writes. `advance` takes one of them a step further: from the shared state and its
memory to both afterwards, and to what it has achieved, if that is the step that achieves it. A
schedule is a list of who goes next, so every interleaving is a run in the sense of `Runs`.

What a request has read may be out of date when it writes. Nothing here prevents that: `ok` is the
condition under which a step is a good one, on the shared state *as it is then* and the memory, and
the invariant rule asks for invariants of the shared state and of what has been achieved only. The
memories are arbitrary.

## Main definitions

* `Config`, `Interleaving.step`
* `Interleaving.Allowed`
* `Interleaving.alone` — one request by itself

## Main results

* `Interleaving.inv_reached` — the invariant rule
* `Interleaving.run_replicate` — a request that is not interrupted
-/

namespace Aixinwu

/-- A shared state, the memory of each request, and what has been achieved, in order. -/
structure Config (ι σ τ ε : Type*) where
  shared : σ
  threads : ι → τ
  log : List ε

namespace Interleaving

open Runs

variable {ι σ τ ε : Type*} [DecidableEq ι] (advance : σ → τ → σ × τ × Option ε)

/-- Request `i` goes one step further. -/
def step (c : Config ι σ τ ε) (i : ι) : Config ι σ τ ε :=
  let r := advance c.shared (c.threads i)
  { shared := r.1, threads := Function.update c.threads i r.2.1, log := c.log ++ r.2.2.toList }

variable {advance} {ok : σ → τ → Prop}

/-- The next step of request `i` is a good one. -/
def Allowed (ok : σ → τ → Prop) (c : Config ι σ τ ε) (i : ι) : Prop := ok c.shared (c.threads i)

/-- **The invariant rule** for every interleaving of good steps: what every good step keeps, from
any memory, holds in every configuration reached. -/
theorem inv_reached {Inv : σ → List ε → Prop}
    (hstep : ∀ s t l, Inv s l → ok s t → Inv (advance s t).1 (l ++ (advance s t).2.2.toList))
    {c c' : Config ι σ τ ε} {schedule : List ι}
    (h : EachStep (step advance) (Allowed ok) c schedule) (hc : Inv c.shared c.log)
    (hreached : Reached (step advance) c schedule c') : Inv c'.shared c'.log := by
  have hkeep : ∀ (c : Config ι σ τ ε) (i : ι), Inv c.shared c.log → Allowed ok c i →
      Inv (step advance c i).shared (step advance c i).log :=
    fun c i hinv hok => hstep c.shared (c.threads i) c.log hinv hok
  exact h.inv_reached hkeep hc hreached

variable (advance) in
/-- `n` steps of one request by itself. -/
def alone : ℕ → σ → τ → σ × τ
  | 0, s, t => (s, t)
  | n + 1, s, t => alone n (advance s t).1 (advance s t).2.1

theorem alone_succ {s s' : σ} {t t' : τ} {e : Option ε} (h : advance s t = (s', t', e)) (n : ℕ) :
    alone advance (n + 1) s t = alone advance n s' t' := by
  rw [alone, h]

/-- A request that is not interrupted does what it does by itself. -/
theorem run_replicate (n : ℕ) (c : Config ι σ τ ε) (i : ι) :
    (run (step advance) c (List.replicate n i)).shared
      = (alone advance n c.shared (c.threads i)).1 := by
  induction n generalizing c with
  | zero => rfl
  | succ n ih =>
    rw [List.replicate_succ, run_cons, ih, alone]
    congr 2
    exact Function.update_self ..

end Interleaving

end Aixinwu
