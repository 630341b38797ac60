import Mathlib.Data.List.Nodup
import Mathlib.Data.List.Dedup
import Mathlib.Data.Finset.Card
import Mathlib.Order.Interval.Finset.Nat
import Mathlib.Order.Interval.Set.Nat

/-!
# Numbers taken from a count

Records are numbered `1, 2, 3, …` by counting: a new record gets the number of records there are,
plus one. Nothing keeps the numbers apart except that the records which are counted carry exactly
the numbers up to the count; then the next number is new. `Consecutive` says this, and it is the
only arrangement that never gives a number twice (`consecutive_iff_forall_iterate`): where a number
is missing, a larger one is in use, and counting on arrives at it.

Two ways of breaking it are of interest: records numbered together, from one count, and records
removed from the middle.

## Main definitions

* `issue` — several records numbered from one count
* `Consecutive`

## Main results

* `Consecutive.issue_one`, `Consecutive.of_sublist`
* `consecutive_iff_forall_iterate`
* `not_nodup_issue`
-/

namespace Aixinwu

namespace Numbering

/-- `k` more records, all numbered from the count there is now. -/
def issue (k : ℕ) (ns : List ℕ) : List ℕ := ns ++ List.replicate k (ns.length + 1)

/-- The numbers are those from `1` to the count, each once. -/
structure Consecutive (ns : List ℕ) : Prop where
  nodup : ns.Nodup
  pos : ∀ n ∈ ns, 1 ≤ n
  le_length : ∀ n ∈ ns, n ≤ ns.length

theorem consecutive_nil : Consecutive [] := ⟨List.nodup_nil, by simp, by simp⟩

variable {ns : List ℕ}

/-- No number up to the count is missing. -/
theorem Consecutive.mem_iff (h : Consecutive ns) {n : ℕ} : n ∈ ns ↔ 1 ≤ n ∧ n ≤ ns.length := by
  have hsub : ns.toFinset ⊆ Finset.Icc 1 ns.length := by
    intro m hm
    rw [List.mem_toFinset] at hm
    exact Finset.mem_Icc.mpr ⟨h.pos m hm, h.le_length m hm⟩
  have hcard : (Finset.Icc 1 ns.length).card ≤ ns.toFinset.card := by
    rw [List.toFinset_card_of_nodup h.nodup, Nat.card_Icc, Nat.add_sub_cancel]
  have heq : ns.toFinset = Finset.Icc 1 ns.length := Finset.eq_of_subset_of_card_le hsub hcard
  rw [← List.mem_toFinset, heq, Finset.mem_Icc]

/-- The next number is new, and numbers stay consecutive. -/
theorem Consecutive.issue_one (h : Consecutive ns) : Consecutive (issue 1 ns) := by
  have hnew : ns.length + 1 ∉ ns := fun hmem => absurd (h.le_length _ hmem) (by omega)
  refine ⟨?_, fun n hn => ?_, fun n hn => ?_⟩
  · rw [issue, List.replicate_one]
    exact List.nodup_append'.mpr ⟨h.nodup, List.nodup_singleton _, List.disjoint_singleton.mpr hnew⟩
  · rcases List.mem_append.mp hn with hn | hn
    · exact h.pos n hn
    · have := List.eq_of_mem_replicate hn
      omega
  · rw [issue, List.length_append, List.length_replicate]
    rcases List.mem_append.mp hn with hn | hn
    · exact (h.le_length n hn).trans (Nat.le_succ _)
    · exact (List.eq_of_mem_replicate hn).le

theorem Consecutive.issue_le_one {k : ℕ} (h : Consecutive ns) (hk : k ≤ 1) :
    Consecutive (issue k ns) := by
  obtain rfl | rfl : k = 0 ∨ k = 1 := by omega
  · rw [issue, List.replicate_zero, List.append_nil]
    exact h
  · exact h.issue_one

/-- Taking the largest numbers away leaves consecutive numbers. -/
theorem Consecutive.of_sublist {ms : List ℕ} (h : Consecutive ns) (hsub : ms.Sublist ns)
    (htop : ∀ m ∈ ns, m ∉ ms → ∀ n ∈ ms, n < m) : Consecutive ms := by
  refine ⟨h.nodup.sublist hsub, fun n hn => h.pos n (hsub.subset hn), fun n hn => ?_⟩
  -- with `n` all smaller numbers are kept, and there are `n` of them
  have hkept : Finset.Icc 1 n ⊆ ms.toFinset := by
    intro m hm
    obtain ⟨hpos, hle⟩ := Finset.mem_Icc.mp hm
    rw [List.mem_toFinset]
    by_contra hgone
    have hmns : m ∈ ns := h.mem_iff.mpr ⟨hpos, hle.trans (h.le_length n (hsub.subset hn))⟩
    have := htop m hmns hgone n hn
    omega
  have hcard := Finset.card_le_card hkept
  rw [Nat.card_Icc, List.toFinset_card_of_nodup (h.nodup.sublist hsub)] at hcard
  omega

/-- Records numbered from one count share their number. -/
theorem not_nodup_issue {k : ℕ} (hk : 2 ≤ k) : ¬ (issue k ns).Nodup := by
  obtain ⟨j, rfl⟩ := Nat.exists_eq_add_of_le hk
  intro h
  have hdup := (List.nodup_append'.mp h).2.1
  rw [Nat.add_comm, List.replicate_succ, List.replicate_succ] at hdup
  exact (List.nodup_cons.mp hdup).1 List.mem_cons_self

/-- One record after another: the numbers from the count on. -/
theorem iterate_issue_one (k : ℕ) :
    (issue 1)^[k] ns = ns ++ List.range' (ns.length + 1) k := by
  induction k with
  | zero => simp
  | succ k ih =>
    rw [Function.iterate_succ_apply', ih, issue, List.replicate_one, List.length_append,
      List.length_range', List.append_assoc, List.range'_concat, Nat.one_mul,
      show ns.length + k + 1 = ns.length + 1 + k by omega]

/-- **Consecutive numbers are the ones that counting on never repeats.** -/
theorem consecutive_iff_forall_iterate (hpos : ∀ n ∈ ns, 1 ≤ n) :
    Consecutive ns ↔ ∀ k, ((issue 1)^[k] ns).Nodup := by
  constructor
  · intro h k
    suffices Consecutive ((issue 1)^[k] ns) from this.nodup
    induction k with
    | zero => exact h
    | succ k ih =>
      rw [Function.iterate_succ_apply']
      exact ih.issue_one
  · intro h
    refine ⟨h 0, hpos, fun n hn => ?_⟩
    by_contra hlarge
    -- a number beyond the count is reached again
    have hnodup := h (n - ns.length)
    rw [iterate_issue_one] at hnodup
    refine (List.nodup_append'.mp hnodup).2.2 hn (List.mem_range'_1.mpr ?_)
    omega

end Numbering

end Aixinwu
