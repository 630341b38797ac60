import Mathlib.Algebra.BigOperators.Group.List.Basic
import Mathlib.Data.List.Nodup
import Mathlib.Tactic.Abel

/-!
# Tables of rows with a primary key

A table is a list of rows, in the order the database returns them, no two with the same primary
key. The key condition is a field of the structure, so a table with a repeated key cannot be
built and no lemma has to ask for it.

The operations are the ones an object-relational mapper performs: look a row up by key, look one
up by a condition that is supposed to be unique, write a row back under its key, change one row in
place, add a row. Writing back never adds a row: it is an `UPDATE … WHERE pk = …`.

## Main definitions

* `Table`, `Table.find?`, `Table.get`
* `Table.modify`, `Table.save`, `Table.bulkUpdate`, `Table.insert`, `Table.insertAll`,
  `Table.insertIgnoring`, `Table.map`
* `Table.Queryset`, `Table.filter` — some rows of a table, each once

## Main results

* `Table.find?_modify`, `Table.find?_save`, `Table.find?_bulkUpdate`, `Table.find?_insert` — reading
  after writing
* `Table.get_eq_ok` — when a unique lookup succeeds
* `Table.sum_modify`, `Table.sum_delete` — how a sum over the rows changes
-/

namespace Aixinwu

/-- Rows have a primary key. -/
class HasPk (ρ : Type*) (κ : outParam Type*) where
  /-- The primary key of a row. -/
  pk : ρ → κ

export HasPk (pk)

/-- The ways a lookup that should find exactly one row can fail. -/
inductive GetError where
  | doesNotExist
  | multipleObjectsReturned
deriving DecidableEq, Repr

/-- Rows with pairwise different primary keys, in database order. -/
structure Table (ρ : Type*) {κ : Type*} [HasPk ρ κ] where
  rows : List ρ
  nodup : (rows.map pk).Nodup

namespace Table

variable {ρ κ : Type*} [HasPk ρ κ]

@[ext] theorem ext {t u : Table ρ} (h : t.rows = u.rows) : t = u := by
  cases t; cases u; cases h; rfl

/-- The table without rows. -/
def empty : Table ρ := ⟨[], List.nodup_nil⟩

/-- The table with one row. -/
def singleton (r : ρ) : Table ρ := ⟨[r], List.nodup_singleton _⟩

instance : Membership ρ (Table ρ) := ⟨fun t r => r ∈ t.rows⟩

theorem mem_def {t : Table ρ} {r : ρ} : r ∈ t ↔ r ∈ t.rows := Iff.rfl

/-- Two rows of a table with the same key are the same row. -/
theorem eq_of_pk_eq {t : Table ρ} {r s : ρ} (hr : r ∈ t) (hs : s ∈ t) (h : pk r = pk s) : r = s :=
  List.inj_on_of_nodup_map t.nodup hr hs h

/-- Apply `f`, which keeps primary keys, to every row. -/
def map (t : Table ρ) (f : ρ → ρ) (hf : ∀ r, pk (f r) = pk r) : Table ρ where
  rows := t.rows.map f
  nodup := by
    rw [List.map_map, show pk ∘ f = (pk : ρ → κ) from funext hf]
    exact t.nodup

@[simp] theorem rows_map (t : Table ρ) (f : ρ → ρ) (hf : ∀ r, pk (f r) = pk r) :
    (t.map f hf).rows = t.rows.map f := rfl

/-! ### Lookups -/

/-- `get(p)`: the one row that satisfies `p`. -/
def get (t : Table ρ) (p : ρ → Bool) : Except GetError ρ :=
  match t.rows.filter p with
  | [] => .error .doesNotExist
  | [r] => .ok r
  | _ :: _ :: _ => .error .multipleObjectsReturned

theorem get_eq_ok {t : Table ρ} {p : ρ → Bool} {r : ρ} :
    t.get p = .ok r ↔ r ∈ t ∧ p r ∧ ∀ s ∈ t, p s → s = r := by
  have hfilter : t.get p = .ok r ↔ t.rows.filter p = [r] := by
    rw [get]
    match t.rows.filter p with
    | [] => simp
    | [s] => simp
    | _ :: _ :: _ => simp
  rw [hfilter]
  constructor
  · intro h
    have hr : r ∈ t.rows.filter p := by rw [h]; exact List.mem_singleton_self r
    obtain ⟨hmem, hp⟩ := List.mem_filter.mp hr
    refine ⟨hmem, hp, fun s hs hps => ?_⟩
    have : s ∈ t.rows.filter p := List.mem_filter.mpr ⟨hs, hps⟩
    rw [h] at this
    exact List.mem_singleton.mp this
  · rintro ⟨hmem, hp, huniq⟩
    have hnodup : (t.rows.filter p).Nodup := t.nodup.of_map.filter p
    have hall : ∀ s ∈ t.rows.filter p, s = r := fun s hs =>
      huniq s (List.mem_filter.mp hs).1 (List.mem_filter.mp hs).2
    have hr : r ∈ t.rows.filter p := List.mem_filter.mpr ⟨hmem, hp⟩
    match hL : t.rows.filter p, hnodup, hall, hr with
    | [s], _, hall, _ => rw [hall s (by simp)]
    | s₁ :: s₂ :: _, hnodup, hall, _ =>
      have h₁ := hall s₁ (by simp)
      have h₂ := hall s₂ (by simp)
      rw [h₁, h₂] at hnodup
      simp at hnodup

theorem get_eq_doesNotExist {t : Table ρ} {p : ρ → Bool} :
    t.get p = .error .doesNotExist ↔ ∀ r ∈ t, ¬ p r := by
  have hnil : (∀ r ∈ t, ¬ p r) ↔ t.rows.filter p = [] := List.filter_eq_nil_iff.symm
  rw [get, hnil]
  match t.rows.filter p with
  | [] => simp
  | [_] => simp
  | _ :: _ :: _ => simp

/-- A lookup depends on the rows only through what `p` says about them. -/
theorem get_map {t : Table ρ} {f : ρ → ρ} {hf : ∀ r, pk (f r) = pk r} {p : ρ → Bool}
    (hp : ∀ r, p (f r) = p r) : (t.map f hf).get p = (t.get p).map f := by
  have : (t.rows.map f).filter p = (t.rows.filter p).map f := by
    rw [List.filter_map, show p ∘ f = p from funext hp]
  rw [get, get, rows_map, this]
  match t.rows.filter p with
  | [] => rfl
  | [_] => rfl
  | _ :: _ :: _ => rfl

section Keyed

variable [DecidableEq κ]

/-- The row with primary key `k`. -/
def find? (t : Table ρ) (k : κ) : Option ρ := t.rows.find? fun r => pk r = k

theorem find?_eq_some {t : Table ρ} {k : κ} {r : ρ} :
    t.find? k = some r ↔ r ∈ t ∧ pk r = k := by
  constructor
  · intro h
    exact ⟨List.mem_of_find?_eq_some h, by simpa using List.find?_some h⟩
  · rintro ⟨hmem, rfl⟩
    obtain ⟨s, hs⟩ := Option.isSome_iff_exists.mp
      (List.find?_isSome.mpr ⟨r, hmem, decide_eq_true rfl⟩ :
        (t.rows.find? fun x => pk x = pk r).isSome)
    have hpk : pk s = pk r := by simpa using List.find?_some hs
    rw [find?, hs, eq_of_pk_eq (List.mem_of_find?_eq_some hs) hmem hpk]

theorem find?_eq_none {t : Table ρ} {k : κ} : t.find? k = none ↔ ∀ r ∈ t, pk r ≠ k := by
  simp [find?, List.find?_eq_none, mem_def]

theorem mem_iff_find? {t : Table ρ} {r : ρ} : r ∈ t ↔ t.find? (pk r) = some r := by
  simp [find?_eq_some]

/-- Rows looked up by some keys, and one of them by its own. -/
theorem find?_filterMap_find? (t : Table ρ) (ks : List κ) (k : κ) :
    (ks.filterMap t.find?).find? (fun m => pk m = k) = if k ∈ ks then t.find? k else none := by
  induction ks with
  | nil => rfl
  | cons j ks ih =>
    cases hj : t.find? j with
    | none =>
      rw [List.filterMap_cons_none hj, ih]
      by_cases hk : k = j
      · simp [hk, hj]
      · simp [hk]
    | some r =>
      obtain ⟨-, rfl⟩ := find?_eq_some.mp hj
      rw [List.filterMap_cons_some hj, List.find?_cons]
      by_cases hk : pk r = k
      · subst hk
        simp [hj]
      · simp [hk, Ne.symm hk, ih]

theorem find?_map (t : Table ρ) (f : ρ → ρ) (hf : ∀ r, pk (f r) = pk r) (k : κ) :
    (t.map f hf).find? k = (t.find? k).map f := by
  simp [find?, List.find?_map, Function.comp_def, hf]

/-! ### Writing one row -/

/-- Change the row with key `k` by `f`, which keeps its key. -/
def modify (t : Table ρ) (k : κ) (f : ρ → ρ) (hf : ∀ r, pk (f r) = pk r) : Table ρ :=
  t.map (fun r => if pk r = k then f r else r) fun r => by split <;> simp [hf]

theorem find?_modify (t : Table ρ) (k j : κ) (f : ρ → ρ) (hf : ∀ r, pk (f r) = pk r) :
    (t.modify k f hf).find? j = if j = k then (t.find? j).map f else t.find? j := by
  rw [modify, find?_map]
  cases hj : t.find? j with
  | none => simp
  | some r =>
    have hr : pk r = j := (find?_eq_some.mp hj).2
    by_cases h : j = k <;> simp [hr, h]

/-- Changing a row is no change exactly when `f` does not change it. -/
theorem modify_eq_self_iff {t : Table ρ} {r : ρ} (hr : r ∈ t) (f : ρ → ρ)
    (hf : ∀ s, pk (f s) = pk s) : t.modify (pk r) f hf = t ↔ f r = r := by
  constructor
  · intro h
    have hfind := congrArg (·.find? (pk r)) h
    simpa [find?_modify, mem_iff_find?.mp hr] using hfind
  · intro h
    ext1
    refine (List.map_congr_left fun s hs => ?_).trans (List.map_id _)
    by_cases hk : pk s = pk r
    · rw [if_pos hk, eq_of_pk_eq hs hr hk, h]
      rfl
    · rw [if_neg hk]
      rfl

/-- A column that `f` keeps is the same after the change. -/
theorem map_rows_modify {τ : Type*} (t : Table ρ) (k : κ) (f : ρ → ρ) (hf : ∀ r, pk (f r) = pk r)
    {g : ρ → τ} (hg : ∀ r, g (f r) = g r) :
    (t.modify k f hf).rows.map g = t.rows.map g := by
  rw [modify, rows_map, List.map_map]
  refine List.map_congr_left fun r _ => ?_
  by_cases h : pk r = k <;> simp [h, hg]

/-- `save()`: write `r` over the row with its key. -/
def save (t : Table ρ) (r : ρ) : Table ρ :=
  t.map (fun s => if pk s = pk r then r else s) fun s => by split <;> simp_all

theorem find?_save (t : Table ρ) (r : ρ) (k : κ) :
    (t.save r).find? k = if k = pk r then (t.find? k).map (fun _ => r) else t.find? k := by
  rw [save, find?_map]
  cases hk : t.find? k with
  | none => simp
  | some s =>
    have hs : pk s = k := (find?_eq_some.mp hk).2
    by_cases h : k = pk r <;> simp [hs, h]

theorem mem_save {t : Table ρ} {r s : ρ} (hr : ∃ x ∈ t, pk x = pk r) :
    s ∈ t.save r ↔ s = r ∨ (s ∈ t ∧ pk s ≠ pk r) := by
  obtain ⟨x, hx, hxr⟩ := hr
  rw [mem_iff_find?, find?_save]
  by_cases h : pk s = pk r
  · have : t.find? (pk s) = some x := find?_eq_some.mpr ⟨hx, hxr.trans h.symm⟩
    simp [h ▸ this, h, eq_comm]
  · simp only [h, if_false, ← mem_iff_find?, ne_eq, not_false_eq_true, and_true]
    exact ⟨Or.inr, fun h' => h'.resolve_left fun h'' => h (by rw [h''])⟩

theorem mem_save_self {t : Table ρ} {r x : ρ} (hx : x ∈ t) (h : pk x = pk r) : r ∈ t.save r :=
  (mem_save ⟨x, hx, h⟩).mpr (Or.inl rfl)

theorem mem_save_of_ne {t : Table ρ} {r s x : ρ} (hx : x ∈ t) (h : pk x = pk r) (hs : s ∈ t)
    (hne : pk s ≠ pk r) : s ∈ t.save r :=
  (mem_save ⟨x, hx, h⟩).mpr (Or.inr ⟨hs, hne⟩)

/-- How a sum over the rows changes when the row with key `k` changes. -/
theorem sum_modify {G : Type*} [AddCommGroup G] (t : Table ρ) {r : ρ} (hr : r ∈ t) (f : ρ → ρ)
    (hf : ∀ s, pk (f s) = pk s) (g : ρ → G) :
    (((t.modify (pk r) f hf).rows).map g).sum = (t.rows.map g).sum + (g (f r) - g r) := by
  obtain ⟨rows, nodup⟩ := t
  change ((rows.map fun s => if pk s = pk r then f s else s).map g).sum = _
  change r ∈ rows at hr
  induction rows with
  | nil => cases hr
  | cons s rows ih =>
    simp only [List.map_cons, List.nodup_cons] at nodup
    simp only [List.map_cons, List.sum_cons]
    rcases List.mem_cons.mp hr with rfl | hr
    · -- the row stands first, and no later row has its key
      have hrest : (rows.map fun s => if pk s = pk r then f s else s) = rows := by
        refine (List.map_congr_left fun s hs => if_neg fun h => ?_).trans (List.map_id rows)
        exact nodup.1 (List.mem_map.mpr ⟨s, hs, h⟩)
      rw [hrest, if_pos rfl]
      abel
    · have hne : pk s ≠ pk r := fun h => nodup.1 (List.mem_map.mpr ⟨r, hr, h.symm⟩)
      rw [ih nodup.2 hr, if_neg hne]
      abel

theorem save_eq_modify (t : Table ρ) {r s : ρ} (h : pk s = pk r) :
    t.save r = t.modify (pk s) (fun x => if pk x = pk r then r else x)
      (fun x => by split <;> simp_all) := by
  ext1
  simp only [save, modify, rows_map, h]
  refine List.map_congr_left fun x _ => ?_
  by_cases hx : pk x = pk r <;> simp [hx]

theorem sum_save {G : Type*} [AddCommGroup G] (t : Table ρ) {r s : ρ} (hs : s ∈ t)
    (h : pk s = pk r) (g : ρ → G) :
    ((t.save r).rows.map g).sum = (t.rows.map g).sum + (g r - g s) := by
  rw [save_eq_modify t h, sum_modify t hs]
  simp [h]

/-! ### Writing many rows at once -/

/-- `bulk_update(objs, fields)`: one statement with a condition `pk = …` for each instance, of which
the first that matches a row wins; `set` puts the fields of an instance on a row. -/
def bulkUpdate (t : Table ρ) (objs : List ρ) (set : ρ → ρ → ρ)
    (hset : ∀ m r, pk (set m r) = pk r) : Table ρ :=
  t.map
    (fun r =>
      match objs.find? fun m => pk m = pk r with
      | some m => set m r
      | none => r)
    fun r => by split <;> simp [hset]

/-- A column that is not among the fields is the same after the update. -/
theorem map_rows_bulkUpdate {τ : Type*} (t : Table ρ) (objs : List ρ) (set : ρ → ρ → ρ)
    (hset : ∀ m r, pk (set m r) = pk r) {g : ρ → τ} (hg : ∀ m r, g (set m r) = g r) :
    (t.bulkUpdate objs set hset).rows.map g = t.rows.map g := by
  rw [bulkUpdate, rows_map, List.map_map]
  refine List.map_congr_left fun r _ => ?_
  show g (match objs.find? fun m => pk m = pk r with | some m => set m r | none => r) = g r
  split <;> simp [hg]

theorem pks_bulkUpdate (t : Table ρ) (objs : List ρ) (set : ρ → ρ → ρ)
    (hset : ∀ m r, pk (set m r) = pk r) :
    (t.bulkUpdate objs set hset).rows.map pk = t.rows.map pk :=
  map_rows_bulkUpdate t objs set hset hset

theorem find?_bulkUpdate (t : Table ρ) (objs : List ρ) (set : ρ → ρ → ρ)
    (hset : ∀ m r, pk (set m r) = pk r) (k : κ) :
    (t.bulkUpdate objs set hset).find? k
      = (t.find? k).map fun r =>
          match objs.find? fun m => pk m = k with
          | some m => set m r
          | none => r := by
  rw [bulkUpdate, find?_map]
  cases hk : t.find? k with
  | none => rfl
  | some r =>
    obtain ⟨-, rfl⟩ := find?_eq_some.mp hk
    rfl

theorem bulkUpdate_nil (t : Table ρ) (set : ρ → ρ → ρ) (hset : ∀ m r, pk (set m r) = pk r) :
    t.bulkUpdate [] set hset = t := by
  ext1
  rw [bulkUpdate, rows_map]
  exact List.map_id _

theorem mem_bulkUpdate {t : Table ρ} {objs : List ρ} {set : ρ → ρ → ρ}
    (hset : ∀ m r, pk (set m r) = pk r) (hobjs : ∀ m ∈ objs, ∀ m' ∈ objs, pk m = pk m' → m = m')
    {s : ρ} :
    s ∈ t.bulkUpdate objs set hset ↔
      (∃ r ∈ t, ∃ m ∈ objs, pk m = pk r ∧ set m r = s) ∨ s ∈ t ∧ ∀ m ∈ objs, pk m ≠ pk s := by
  have hpk_of : ∀ {k : κ} {m : ρ}, (objs.find? fun m => pk m = k) = some m → pk m = k :=
    fun h => by simpa using List.find?_some h
  rw [mem_iff_find?, find?_bulkUpdate, Option.map_eq_some_iff]
  constructor
  · rintro ⟨r, hfound, hs⟩
    obtain ⟨hr, hpk⟩ := find?_eq_some.mp hfound
    cases hfind : objs.find? fun m => pk m = pk s with
    | none =>
      rw [hfind] at hs
      have hrs : r = s := hs
      subst hrs
      exact Or.inr ⟨hr, fun m hm => by simpa using List.find?_eq_none.mp hfind m hm⟩
    | some m =>
      rw [hfind] at hs
      exact Or.inl ⟨r, hr, m, List.mem_of_find?_eq_some hfind,
        (hpk_of hfind).trans hpk.symm, hs⟩
  · rintro (⟨r, hr, m, hm, hmr, rfl⟩ | ⟨hs, hnone⟩)
    · refine ⟨r, find?_eq_some.mpr ⟨hr, (hset m r).symm⟩, ?_⟩
      have hsome : (objs.find? fun m' => pk m' = pk (set m r)).isSome :=
        List.find?_isSome.mpr ⟨m, hm, decide_eq_true (hmr.trans (hset m r).symm)⟩
      obtain ⟨m', hm'⟩ := Option.isSome_iff_exists.mp hsome
      have hpk : pk m' = pk m := by
        rw [hpk_of hm', hset, hmr]
      rw [hm', hobjs m' (List.mem_of_find?_eq_some hm') m hm hpk]
    · have hfind : objs.find? (fun m => pk m = pk s) = none :=
        List.find?_eq_none.mpr fun m hm => by simpa using hnone m hm
      refine ⟨s, find?_eq_some.mpr ⟨hs, rfl⟩, ?_⟩
      rw [hfind]

/-- Some rows of a table, each once: what a query set evaluates to. -/
structure Queryset (t : Table ρ) where
  rows : List ρ
  mem : ∀ r ∈ rows, r ∈ t
  nodup : (rows.map pk).Nodup

/-- `filter(p)`. -/
def filter (t : Table ρ) (p : ρ → Bool) : t.Queryset where
  rows := t.rows.filter p
  mem := fun _ hr => List.mem_of_mem_filter hr
  nodup := (List.filter_sublist.map pk).nodup t.nodup

/-- `filter(p).delete()`. -/
def delete (t : Table ρ) (p : ρ → Bool) : Table ρ where
  rows := t.rows.filter (!p ·)
  nodup := (List.filter_sublist.map pk).nodup t.nodup

omit [DecidableEq κ] in
theorem mem_delete {t : Table ρ} {p : ρ → Bool} {r : ρ} :
    r ∈ t.delete p ↔ r ∈ t ∧ p r = false := by
  rw [mem_def, delete, List.mem_filter, Bool.not_eq_true', mem_def]

/-- A sum over the rows loses what the deleted rows had. -/
theorem sum_delete {G : Type*} [AddCommGroup G] (t : Table ρ) {ds : List ρ}
    (hds : ∀ d ∈ ds, d ∈ t) (hnodup : (ds.map pk).Nodup) (g : ρ → G) :
    ((t.delete fun r => decide (pk r ∈ ds.map pk)).rows.map g).sum
      = (t.rows.map g).sum - (ds.map g).sum := by
  have hperm : (t.rows.filter fun r => decide (pk r ∈ ds.map pk)).Perm ds := by
    refine (List.perm_ext_iff_of_nodup (t.nodup.of_map.filter _) hnodup.of_map).mpr fun r => ?_
    rw [List.mem_filter, decide_eq_true_iff]
    constructor
    · rintro ⟨hr, hpk⟩
      obtain ⟨d, hd, hdr⟩ := List.mem_map.mp hpk
      exact eq_of_pk_eq (hds d hd) hr hdr ▸ hd
    · exact fun hr => ⟨hds r hr, List.mem_map_of_mem hr⟩
  rw [eq_sub_iff_add_eq, ← (hperm.map g).sum_eq, add_comm]
  simpa only [delete, decide_not] using
    List.sum_map_filter_add_sum_map_filter_not (pk · ∈ ds.map pk) g t.rows

/-! ### Adding a row -/

/-- `create()`: add a row whose key is not yet taken. -/
def insert (t : Table ρ) (r : ρ) : Option (Table ρ) :=
  if h : ∀ s ∈ t.rows, pk s ≠ pk r then
    some ⟨t.rows ++ [r], by
      simpa [List.nodup_append, t.nodup] using fun s hs => h s hs⟩
  else none

theorem insert_eq_some {t u : Table ρ} {r : ρ} (h : t.insert r = some u) :
    u.rows = t.rows ++ [r] ∧ ∀ s ∈ t, pk s ≠ pk r := by
  rw [insert] at h
  split at h
  · rename_i hfresh
    cases h
    exact ⟨rfl, hfresh⟩
  · cases h

theorem find?_insert {t u : Table ρ} {r : ρ} (h : t.insert r = some u) (k : κ) :
    u.find? k = if k = pk r then some r else t.find? k := by
  obtain ⟨hrows, hfresh⟩ := insert_eq_some h
  rw [find?, hrows, List.find?_append, ← find?]
  by_cases hk : k = pk r
  · have hnone : t.find? k = none := find?_eq_none.mpr fun s hs => hk ▸ hfresh s hs
    rw [hnone, if_pos hk]
    simp [hk]
  · cases hf : t.find? k <;> simp [hk, Ne.symm hk]

/-- `bulk_create()`: add rows whose keys are not yet taken, by a row of the table or by each
other. -/
def insertAll (t : Table ρ) (rs : List ρ) : Option (Table ρ) :=
  if h : ((t.rows ++ rs).map pk).Nodup then some ⟨t.rows ++ rs, h⟩ else none

theorem insertAll_eq_some {t u : Table ρ} {rs : List ρ} :
    t.insertAll rs = some u ↔ u.rows = t.rows ++ rs := by
  rw [insertAll]
  constructor
  · intro h
    split at h
    · cases h
      rfl
    · cases h
  · intro h
    have hnodup : ((t.rows ++ rs).map pk).Nodup := h ▸ u.nodup
    rw [dif_pos hnodup]
    exact congrArg some (Table.ext h.symm)

/-- They are added if their keys are different and new. -/
theorem insertAll_isSome_iff {t : Table ρ} {rs : List ρ} :
    (t.insertAll rs).isSome ↔ (rs.map pk).Nodup ∧ ∀ r ∈ rs, ∀ s ∈ t, pk s ≠ pk r := by
  have hiff : (t.insertAll rs).isSome ↔ ((t.rows ++ rs).map pk).Nodup := by
    rw [insertAll]
    split_ifs with h
    · exact iff_of_true rfl h
    · exact iff_of_false (by simp) h
  rw [hiff, List.map_append, List.nodup_append]
  constructor
  · rintro ⟨-, hnew, hdisjoint⟩
    exact ⟨hnew, fun r hr s hs =>
      hdisjoint _ (List.mem_map_of_mem hs) _ (List.mem_map_of_mem hr)⟩
  · rintro ⟨hnew, hdisjoint⟩
    refine ⟨t.nodup, hnew, fun x hx y hy => ?_⟩
    obtain ⟨s, hs, rfl⟩ := List.mem_map.mp hx
    obtain ⟨r, hr, rfl⟩ := List.mem_map.mp hy
    exact hdisjoint r hr s hs

/-- `bulk_create(objs, ignore_conflicts=True)`: add the rows whose keys are not yet taken. -/
def insertIgnoring (t : Table ρ) (rs : List ρ) : Table ρ :=
  rs.foldl (fun t r => (t.insert r).getD t) t

/-- Ignoring conflicts loses nothing where the rows of a key are equal. -/
theorem mem_insertIgnoring {t : Table ρ} {rs : List ρ}
    (h : ∀ r ∈ rs, ∀ s, s ∈ t ∨ s ∈ rs → pk s = pk r → s = r) {s : ρ} :
    s ∈ t.insertIgnoring rs ↔ s ∈ t ∨ s ∈ rs := by
  induction rs generalizing t with
  | nil => simp [insertIgnoring]
  | cons r rs ih =>
    -- the first row is in the table after it has been added, or was there before
    have hfirst : ∀ x, x ∈ (t.insert r).getD t ↔ x ∈ t ∨ x = r := by
      intro x
      cases hins : t.insert r with
      | some u =>
        rw [Option.getD_some, mem_def, (insert_eq_some hins).1, List.mem_append,
          List.mem_singleton, mem_def]
      | none =>
        have htaken : ¬ ∀ s ∈ t.rows, pk s ≠ pk r := by
          intro hfresh
          rw [insert, dif_pos hfresh] at hins
          cases hins
        push Not at htaken
        obtain ⟨s, hs, hpk⟩ := htaken
        have hsr : s = r := h r List.mem_cons_self s (Or.inl hs) hpk
        rw [Option.getD_none]
        exact ⟨Or.inl, fun hx => hx.elim id fun hx => hx ▸ hsr ▸ hs⟩
    have hrest : s ∈ ((t.insert r).getD t).insertIgnoring rs ↔ s ∈ (t.insert r).getD t ∨ s ∈ rs := by
      refine ih fun q hq x hx hpk => h q (List.mem_cons_of_mem r hq) x ?_ hpk
      rcases hx with hx | hx
      · exact ((hfirst x).mp hx).imp_right fun hx => List.mem_cons.mpr (Or.inl hx)
      · exact Or.inr (List.mem_cons_of_mem r hx)
    rw [insertIgnoring, List.foldl_cons]
    exact hrest.trans (by rw [hfirst, List.mem_cons, or_assoc])

end Keyed

end Table

end Aixinwu
