import Mathlib.Data.List.Perm.Basic

/-!
# Callbacks made in a loop

A function goes through a list, and for some of the entries it leaves a callback that is called
after the function has returned. The callback is a closure over the variable of the loop, and a
closure looks its variables up when it is called: in the frame of the function, where the variable
then holds the last entry, for whichever entry the callback was made.

So as many callbacks run as were made, all of them for the last entry. That is what they were made
for only if it is what the last entry stands for, for every entry one was made for.

## Main definitions

* `Frame`, `loop`, `Frame.commit` — with closures over the variable
* `called` — what the callbacks are made for

## Main results

* `commit_loop`
* `commit_loop_perm_iff`
-/

namespace Aixinwu

namespace Closures

variable {α E : Type*}

/-- The frame of a function: the variable of its loop, if it has been assigned, and the callbacks
that are left, which read it. -/
structure Frame (α E : Type*) where
  entry? : Option α := none
  callbacks : List (α → E) := []

/-- The loop: each entry is assigned, and for some of them a callback is left. -/
def loop (test : α → Bool) (body : α → E) : Frame α E → List α → Frame α E
  | frame, [] => frame
  | frame, a :: entries =>
    loop test body
      { entry? := some a
        callbacks := if test a then frame.callbacks ++ [body] else frame.callbacks } entries

/-- The callbacks run, with what the variable holds then. -/
def Frame.commit (frame : Frame α E) : List E :=
  match frame.entry? with
  | some a => frame.callbacks.map fun callback => callback a
  | none => []

/-- What the callbacks are made for. -/
def called (test : α → Bool) (body : α → E) (entries : List α) : List E :=
  (entries.filter test).map body

variable {test : α → Bool} {body : α → E}

/-- The variable holds the last entry, and there is a callback for each entry that passed. -/
theorem loop_eq (callbacks : List (α → E)) (a? : Option α) (entries : List α) :
    loop test body ⟨a?, callbacks⟩ entries
      = ⟨entries.getLast?.or a?, callbacks ++ List.replicate (entries.countP test) body⟩ := by
  induction entries generalizing callbacks a? with
  | nil => simp [loop]
  | cons a entries ih =>
    have hlast : (a :: entries).getLast?.or a? = entries.getLast?.or (some a) := by
      rw [List.getLast?_cons]
      cases entries.getLast? <;> rfl
    rw [loop, ih, hlast, List.countP_cons]
    by_cases h : test a
    · rw [if_pos h, if_pos h, List.append_assoc, List.replicate_succ, List.singleton_append]
    · rw [if_neg h, if_neg h, Nat.add_zero]

/-- **All callbacks run for the last entry.** -/
theorem commit_loop (entries : List α) {last : α} (h : entries.getLast? = some last) :
    (loop test body {} entries).commit = List.replicate (entries.countP test) (body last) := by
  show (loop test body ⟨none, []⟩ entries).commit = _
  rw [loop_eq, h, Frame.commit]
  simp

/-- **The callbacks run for what they were made for**, each once, exactly if the last entry stands
for the same as every entry that passed. -/
theorem commit_loop_perm_iff (entries : List α) :
    (loop test body {} entries).commit.Perm (called test body entries)
      ↔ ∀ a ∈ entries, test a = true → ∀ last, entries.getLast? = some last →
        body a = body last := by
  cases hlast : entries.getLast? with
  | none =>
    obtain rfl := List.getLast?_eq_none_iff.mp hlast
    exact ⟨fun _ a ha => absurd ha List.not_mem_nil, fun _ => List.Perm.nil⟩
  | some last =>
    have hlength : (called test body entries).length = entries.countP test := by
      rw [called, List.length_map, List.countP_eq_length_filter]
    rw [commit_loop entries hlast, List.replicate_perm, ← hlength, eq_comm, List.eq_replicate_iff]
    constructor
    · rintro ⟨-, h⟩ a ha htest other hother
      obtain rfl := Option.some.inj hother
      exact h (body a) (List.mem_map_of_mem (List.mem_filter.mpr ⟨ha, htest⟩))
    · intro h
      refine ⟨rfl, fun e he => ?_⟩
      obtain ⟨a, ha, rfl⟩ := List.mem_map.mp he
      obtain ⟨hmem, htest⟩ := List.mem_filter.mp ha
      exact h a hmem htest last rfl

end Closures

end Aixinwu
