import Aixinwu.Lib.Aggregates
import Mathlib.Data.List.Dedup

/-!
# Aggregates over a left join

A query that aggregates a column of a table and a column of a table that refers to it runs over the
left join of the two: a row of the first table once for each row that refers to it, and once, with
nothing, if there is none. A sum over the column of the second table adds up what it would add up
row by row. A sum over a column of the first table counts a row as often as it is joined.

`SUM(DISTINCT …)` is no remedy for that: it does not see how often a row is joined, but it does not
see how many rows there are with a value either.

## Main definitions

* `leftJoin`
* `sumOfSome`, `sumDistinct`

## Main results

* `sumOfSome_leftJoin`, `sumDistinct_leftJoin`
-/

namespace Aixinwu

namespace LeftJoin

variable {α β M : Type*}

/-- The rows of a left join. -/
def leftJoin (on : α → β → Bool) (l : List α) (r : List β) : List (α × Option β) :=
  l.flatMap fun a =>
    match r.filter (on a) with
    | [] => [(a, none)]
    | matched => matched.map fun b => (a, some b)

/-- What a row is joined with. -/
theorem map_snd_joined (a : α) (matched : List β) :
    ((match matched with
      | [] => [(a, none)]
      | matched => matched.map fun b => (a, some b)).filterMap Prod.snd) = matched := by
  cases matched with
  | nil => rfl
  | cons b matched =>
    rw [List.filterMap_map]
    exact List.filterMap_some

/-- A row is in the join, and nothing else stands in its column. -/
theorem mem_map_fst_leftJoin {on : α → β → Bool} {l : List α} {r : List β} {a : α} :
    a ∈ (leftJoin on l r).map Prod.fst ↔ a ∈ l := by
  rw [leftJoin, List.map_flatMap, List.mem_flatMap]
  constructor
  · rintro ⟨a', ha', h⟩
    have heq : a = a' := by
      split at h
      · exact List.mem_singleton.mp h
      · obtain ⟨e, he, rfl⟩ := List.mem_map.mp h
        obtain ⟨b, -, rfl⟩ := List.mem_map.mp he
        rfl
    exact heq ▸ ha'
  · intro ha
    refine ⟨a, ha, ?_⟩
    split
    · exact List.mem_singleton.mpr rfl
    · rename_i hne
      obtain ⟨b, hb⟩ := List.exists_mem_of_ne_nil _ hne
      exact List.mem_map.mpr ⟨(a, some b), List.mem_map_of_mem hb, rfl⟩

section AddCommMonoid

variable [AddCommMonoid M]

/-- `SUM` of a column of the second table, which passes over the rows without one. -/
def sumOfSome (f : β → M) (rows : List (α × Option β)) : M :=
  ((rows.filterMap Prod.snd).map f).sum

/-- `SUM(DISTINCT …)`. -/
def sumDistinct [DecidableEq M] (f : α → M) (rows : List α) : M := (rows.map f).dedup.sum

/-- A sum over the second table is the sum of what is found for each row of the first. -/
theorem sumOfSome_leftJoin (on : α → β → Bool) (f : β → M) (l : List α) (r : List β) :
    sumOfSome f (leftJoin on l r) = (l.map fun a => sumIf (on a) f r).sum := by
  induction l with
  | nil => rfl
  | cons a l ih =>
    have happend : sumOfSome f (leftJoin on (a :: l) r)
        = sumIf (on a) f r + sumOfSome f (leftJoin on l r) := by
      rw [leftJoin, List.flatMap_cons, sumOfSome, List.filterMap_append, map_snd_joined,
        List.map_append, List.sum_append]
      rfl
    rw [happend, ih, List.map_cons, List.sum_cons]

/-- Only the values count. -/
theorem sumDistinct_congr [DecidableEq M] {f : α → M} {g : β → M} {l : List α} {l' : List β}
    (h : ∀ m, m ∈ l.map f ↔ m ∈ l'.map g) : sumDistinct f l = sumDistinct g l' := by
  have hperm : (l.map f).dedup.Perm (l'.map g).dedup := by
    refine (List.perm_ext_iff_of_nodup (List.nodup_dedup _) (List.nodup_dedup _)).mpr fun m => ?_
    rw [List.mem_dedup, List.mem_dedup]
    exact h m
  exact hperm.sum_eq

/-- **The distinct values of a column of the first table** do not depend on what is joined. -/
theorem sumDistinct_leftJoin [DecidableEq M] (on : α → β → Bool) (f : α → M) (l : List α)
    (r : List β) : sumDistinct (fun e => f e.1) (leftJoin on l r) = sumDistinct f l := by
  refine sumDistinct_congr fun m => ?_
  have hcomp : (leftJoin on l r).map (fun e => f e.1) = ((leftJoin on l r).map Prod.fst).map f := by
    rw [List.map_map]
    rfl
  rw [hcomp]
  simp only [List.mem_map (f := f), mem_map_fst_leftJoin]

end AddCommMonoid

end LeftJoin

end Aixinwu
