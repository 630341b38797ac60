import Aixinwu.Lib.Table
import Mathlib.Order.Basic

/-!
# Tables whose keys are handed out

The key of a new row is not chosen by the code that makes the row: a sequence hands it out, or it is
drawn so that it never comes twice. Either way it is *fresh*, so creating a row cannot fail.
`Serial` is a table together with the next key; that every key given out so far is below it is a
field.

Deleting a row does not give its key back.

## Main definitions

* `Serial`, `Serial.empty`
* `Serial.create`, `Serial.save`, `Serial.modify`, `Serial.bulkUpdate`, `Serial.delete`
-/

namespace Aixinwu

/-- A table and the key that its next row gets. -/
structure Serial (ρ : Type*) [HasPk ρ ℕ] extends Table ρ where
  next : ℕ
  fresh : ∀ r ∈ rows, pk r < next

namespace Serial

variable {ρ : Type*} [HasPk ρ ℕ]

/-- No rows yet; keys start with `1`. -/
def empty : Serial ρ := ⟨Table.empty, 1, fun _ hr => absurd hr List.not_mem_nil⟩

instance : Membership ρ (Serial ρ) := ⟨fun t r => r ∈ t.rows⟩

theorem mem_def {t : Serial ρ} {r : ρ} : r ∈ t ↔ r ∈ t.rows := Iff.rfl

theorem not_mem_empty (r : ρ) : r ∉ (empty : Serial ρ) := List.not_mem_nil

/-- Two rows with the same key are the same row. -/
theorem eq_of_pk_eq {t : Serial ρ} {r s : ρ} (hr : r ∈ t) (hs : s ∈ t) (h : pk r = pk s) : r = s :=
  Table.eq_of_pk_eq (t := t.toTable) hr hs h

/-! ### Adding rows -/

theorem nodup_concat (t : Serial ρ) {r : ρ} (hr : pk r = t.next) :
    ((t.rows ++ [r]).map pk).Nodup := by
  rw [List.map_append]
  refine List.nodup_append'.mpr ⟨t.nodup, List.nodup_singleton _, ?_⟩
  rw [List.map_singleton, List.disjoint_singleton, hr]
  intro hmem
  obtain ⟨s, hs, hpk⟩ := List.mem_map.mp hmem
  exact (t.fresh s hs).ne hpk

theorem fresh_concat (t : Serial ρ) {r : ρ} (hr : pk r = t.next) :
    ∀ s ∈ t.rows ++ [r], pk s < t.next + 1 := by
  intro s hs
  rcases List.mem_append.mp hs with hs | hs
  · exact Nat.lt_succ_of_lt (t.fresh s hs)
  · rw [List.mem_singleton.mp hs, hr]
    exact Nat.lt_succ_self _

/-- `create()`: add the row that `make` builds around its key. -/
def create (t : Serial ρ) (make : ℕ → ρ) (hmake : ∀ k, pk (make k) = k) : Serial ρ :=
  ⟨⟨t.rows ++ [make t.next], t.nodup_concat (hmake _)⟩, t.next + 1, t.fresh_concat (hmake _)⟩

@[simp] theorem rows_create (t : Serial ρ) (make : ℕ → ρ) (hmake : ∀ k, pk (make k) = k) :
    (t.create make hmake).rows = t.rows ++ [make t.next] := rfl

theorem mem_create {t : Serial ρ} {make : ℕ → ρ} {hmake : ∀ k, pk (make k) = k} {r : ρ} :
    r ∈ t.create make hmake ↔ r ∈ t ∨ r = make t.next := by
  rw [mem_def, rows_create, List.mem_append, List.mem_singleton, mem_def]

/-! ### Changing and deleting rows -/

theorem fresh_save (t : Serial ρ) (r : ρ) : ∀ s ∈ (t.toTable.save r).rows, pk s < t.next := by
  intro s hs
  obtain ⟨c, hc, rfl⟩ := List.mem_map.mp hs
  have hlt : pk c < t.next := t.fresh c hc
  by_cases h : pk c = pk r
  · rw [if_pos h, ← h]
    exact hlt
  · rw [if_neg h]
    exact hlt

/-- `save()`: write `r` over the row with its key. -/
def save (t : Serial ρ) (r : ρ) : Serial ρ := ⟨t.toTable.save r, t.next, t.fresh_save r⟩

theorem mem_save {t : Serial ρ} {r s : ρ} (hr : ∃ x ∈ t, pk x = pk r) :
    s ∈ t.save r ↔ s = r ∨ (s ∈ t ∧ pk s ≠ pk r) :=
  Table.mem_save (t := t.toTable) hr

theorem fresh_map (t : Serial ρ) (f : ρ → ρ) (hf : ∀ r, pk (f r) = pk r) :
    ∀ s ∈ (t.toTable.map f hf).rows, pk s < t.next := by
  intro s hs
  obtain ⟨r, hr, rfl⟩ := List.mem_map.mp hs
  rw [hf]
  exact t.fresh r hr

/-- Change the row with key `k` by `f`, which keeps its key. -/
def modify (t : Serial ρ) (k : ℕ) (f : ρ → ρ) (hf : ∀ r, pk (f r) = pk r) : Serial ρ :=
  ⟨t.toTable.modify k f hf, t.next, t.fresh_map _ _⟩

/-- `bulk_update(objs, fields)`. -/
def bulkUpdate (t : Serial ρ) (objs : List ρ) (set : ρ → ρ → ρ)
    (hset : ∀ m r, pk (set m r) = pk r) : Serial ρ :=
  ⟨t.toTable.bulkUpdate objs set hset, t.next, t.fresh_map _ _⟩

theorem fresh_delete (t : Serial ρ) (p : ρ → Bool) :
    ∀ s ∈ (t.toTable.delete p).rows, pk s < t.next :=
  fun s hs => t.fresh s (List.mem_of_mem_filter hs)

/-- `filter(p).delete()`. -/
def delete (t : Serial ρ) (p : ρ → Bool) : Serial ρ :=
  ⟨t.toTable.delete p, t.next, t.fresh_delete p⟩

@[simp] theorem rows_delete (t : Serial ρ) (p : ρ → Bool) :
    (t.delete p).rows = t.rows.filter (!p ·) := rfl

end Serial

end Aixinwu
