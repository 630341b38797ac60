import Mathlib.Logic.Basic

/-!
# Code that writes, raises and is rolled back

A piece of code over a database returns a value or raises, and in both cases the database is the
one it left behind: outside a transaction every write stays. `Action` is that, the exception
transformer over the state monad, with the state kept when something is raised. `atomic` is the one
operation that gives the state back, and only when an exception leaves it.

That split is the whole point. A handler that catches an exception outside the block runs on the
database from before the block; one that catches it inside runs on what the block has written so
far, and if it raises again its own writes are gone too.

## Main definitions

* `Action`, `Action.exec`
* `Action.atomic`

## Main results

* `Action.exec_bind` and its siblings — running composed code
-/

namespace Aixinwu

/-- Code over a database of type `σ` that returns an `α` or raises an `ε`. -/
abbrev Action (σ ε α : Type) := ExceptT ε (StateM σ) α

namespace Action

variable {σ ε α β τ : Type}

/-- What the code comes to and the database it leaves. -/
def exec (m : Action σ ε α) (s : σ) : Except ε α × σ := m s

/-- `transaction.atomic()`: when an exception leaves the block, nothing was written. -/
def atomic (m : Action σ ε α) : Action σ ε α := fun s =>
  match m.exec s with
  | (.ok a, s') => (.ok a, s')
  | (.error e, _) => (.error e, s)

/-! ### Running code -/

@[simp] theorem exec_pure (a : α) (s : σ) : exec (pure a : Action σ ε α) s = (.ok a, s) := rfl

@[simp] theorem exec_throw (e : ε) (s : σ) : exec (throw e : Action σ ε α) s = (.error e, s) := rfl

@[simp] theorem exec_get (s : σ) : exec (get : Action σ ε σ) s = (.ok s, s) := rfl

@[simp] theorem exec_modify (f : σ → σ) (s : σ) :
    exec (modify f : Action σ ε Unit) s = (.ok (), f s) := rfl

theorem exec_bind (m : Action σ ε α) (f : α → Action σ ε β) (s : σ) :
    exec (m >>= f) s =
      match exec m s with
      | (.ok a, s') => exec (f a) s'
      | (.error e, s') => (.error e, s') := by
  change (ExceptT.bindCont f (m s).1) (m s).2 = _
  rcases h : m s with ⟨a | e, s'⟩ <;> simp only [exec, h] <;> rfl

theorem exec_tryCatch (m : Action σ ε α) (handler : ε → Action σ ε α) (s : σ) :
    exec (tryCatch m handler) s =
      match exec m s with
      | (.ok a, s') => (.ok a, s')
      | (.error e, s') => exec (handler e) s' := by
  change (match (m s).1 with
    | .ok a => pure (Except.ok a)
    | .error e => handler e : StateM σ (Except ε α)) (m s).2 = _
  rcases h : m s with ⟨a | e, s'⟩ <;> simp only [exec, h] <;> rfl

theorem exec_atomic (m : Action σ ε α) (s : σ) :
    exec (atomic m) s =
      match exec m s with
      | (.ok a, s') => (.ok a, s')
      | (.error e, _) => (.error e, s) := rfl

/-! ### All or nothing -/

/-- A block whose body raises raises the same, on the database from before. -/
theorem exec_atomic_of_error {m : Action σ ε α} {s s' : σ} {e : ε}
    (h : exec m s = (.error e, s')) : exec (atomic m) s = (.error e, s) := by
  rw [exec_atomic, h]

theorem exec_atomic_of_ok {m : Action σ ε α} {s s' : σ} {a : α} (h : exec m s = (.ok a, s')) :
    exec (atomic m) s = (.ok a, s') := by
  rw [exec_atomic, h]

theorem exec_bind_of_ok {m : Action σ ε α} {g : α → Action σ ε β} {s s' : σ} {a : α}
    (h : exec m s = (.ok a, s')) : exec (m >>= g) s = exec (g a) s' := by
  rw [exec_bind, h]

theorem exec_bind_of_error {m : Action σ ε α} {g : α → Action σ ε β} {s s' : σ} {e : ε}
    (h : exec m s = (.error e, s')) : exec (m >>= g) s = (.error e, s') := by
  rw [exec_bind, h]

/-- Code that ends by raising raises, this or something earlier. -/
theorem exec_bind_throw (m : Action σ ε α) (e : ε) (s : σ) :
    ∃ e' s', exec (m >>= fun _ => (throw e : Action σ ε β)) s = (.error e', s') := by
  rw [exec_bind]
  rcases exec m s with ⟨e' | a, s'⟩
  · exact ⟨e', s', rfl⟩
  · exact ⟨e, s', rfl⟩

end Action

end Aixinwu
