import Mathlib.Algebra.BigOperators.Group.List.Basic
import Mathlib.Algebra.Order.BigOperators.Group.List
import Mathlib.Algebra.Order.Ring.Int
import Mathlib.Data.List.Basic
import Mathlib.Data.List.Nodup

/-!
# Grouping in a `defaultdict`

Entries are gathered under keys: the value under the key of an entry is changed by it, and a key that
is new starts from a default and stands last. What comes of this is read off in two lemmas: a key is
there if an entry has it (`mem_keys_gather`), and its value is what the entries with that key make of
the default, one after another (`get_gather`). Entries with other keys leave it alone.

## Main definitions

* `alter` — change the value under a key
* `get`
* `gather`
* `total` — a sum over all values, where these are lists

## Main results

* `nodup_keys_gather`, `mem_keys_gather`, `get_gather`
* `mem_gather_iff`
* `total_alter_append`, `mem_values_alter_append`
* `sum_map_eq_iff_of_le`, `sum_weighted_le_iff`, `max_sum_weighted_eq_iff`
-/

namespace Aixinwu

namespace Grouping

variable {κ ν ε : Type*} [DecidableEq κ] {m : List (κ × ν)} {d : ν} {key k : κ} {f : ν → ν}

/-- Change `m[key]`, where a missing key has the default. -/
def alter (d : ν) (key : κ) (f : ν → ν) : List (κ × ν) → List (κ × ν)
  | [] => [(key, f d)]
  | (k, v) :: m => if k = key then (k, f v) :: m else (k, v) :: alter d key f m

/-- `m[k]`. -/
def get (d : ν) (m : List (κ × ν)) (k : κ) : ν := (m.find? (·.1 = k)).elim d (·.2)

@[simp] theorem get_nil (d : ν) (k : κ) : get d [] k = d := rfl

theorem get_cons (d : ν) (e : κ × ν) (m : List (κ × ν)) (k : κ) :
    get d (e :: m) k = if e.1 = k then e.2 else get d m k := by
  by_cases h : e.1 = k <;> simp [get, h]

theorem get_alter : get d (alter d key f m) k = if key = k then f (get d m key) else get d m k := by
  induction m with
  | nil => simp [alter, get_cons]
  | cons e m ih =>
    rw [alter]
    by_cases hkey : e.1 = key
    · by_cases hk : key = k <;> simp [get_cons, hkey, hk]
    · rw [if_neg hkey, get_cons, ih, get_cons, get_cons, if_neg hkey]
      by_cases hk : key = k
      · simp [← hk, hkey]
      · simp [hk]

theorem mem_keys_alter : k ∈ (alter d key f m).map (·.1) ↔ k = key ∨ k ∈ m.map (·.1) := by
  induction m with
  | nil => simp [alter]
  | cons e m ih =>
    rw [alter]
    by_cases hkey : e.1 = key
    · simp [hkey]
    · rw [if_neg hkey, List.map_cons, List.mem_cons, ih, List.map_cons, List.mem_cons]
      tauto

theorem nodup_keys_alter (h : (m.map (·.1)).Nodup) : ((alter d key f m).map (·.1)).Nodup := by
  induction m with
  | nil => simp [alter]
  | cons e m ih =>
    obtain ⟨hfirst, hrest⟩ := List.nodup_cons.mp h
    rw [alter]
    by_cases hkey : e.1 = key
    · simpa [hkey] using h
    · rw [if_neg hkey, List.map_cons, List.nodup_cons, mem_keys_alter]
      exact ⟨not_or.mpr ⟨hkey, hfirst⟩, ih hrest⟩

/-- A new key stands last. -/
theorem alter_of_not_mem (h : key ∉ m.map (·.1)) (f : ν → ν) :
    alter d key f m = m ++ [(key, f d)] := by
  induction m with
  | nil => rfl
  | cons e m ih =>
    rw [List.map_cons, List.mem_cons, not_or] at h
    rw [alter, if_neg (Ne.symm h.1), ih h.2, List.cons_append]

/-- A key is found if it is there. -/
theorem find?_key (d : ν) (m : List (κ × ν)) (k : κ) :
    m.find? (·.1 = k) = if k ∈ m.map (·.1) then some (k, get d m k) else none := by
  induction m with
  | nil => rfl
  | cons e m ih =>
    by_cases hk : e.1 = k
    · subst hk
      simp [get_cons]
    · have hmem : k ∈ (e :: m).map (·.1) ↔ k ∈ m.map (·.1) := by simp [Ne.symm hk]
      rw [List.find?_cons_of_neg (by simp [hk]), ih, get_cons, if_neg hk]
      simp only [hmem]

/-- Where every key is there once, the entries are the values under the keys. -/
theorem mem_iff_get (h : (m.map (·.1)).Nodup) {v : ν} :
    (k, v) ∈ m ↔ k ∈ m.map (·.1) ∧ get d m k = v := by
  induction m with
  | nil => simp
  | cons e m ih =>
    obtain ⟨hfirst, hrest⟩ := List.nodup_cons.mp h
    rw [List.mem_cons, ih hrest, get_cons, List.map_cons, List.mem_cons]
    by_cases hk : e.1 = k
    · subst hk
      simp [hfirst, Prod.ext_iff, eq_comm]
    · simp [hk, Ne.symm hk, Prod.ext_iff]

variable (d) (keyOf : ε → κ) (write : ε → ν → ν) {es : List ε}

/-- The entries, one after another. -/
def gather (es : List ε) (m : List (κ × ν)) : List (κ × ν) :=
  es.foldl (fun m e => alter d (keyOf e) (write e) m) m

theorem gather_cons (e : ε) (es : List ε) (m : List (κ × ν)) :
    gather d keyOf write (e :: es) m = gather d keyOf write es (alter d (keyOf e) (write e) m) := rfl

theorem nodup_keys_gather (h : (m.map (·.1)).Nodup) :
    ((gather d keyOf write es m).map (·.1)).Nodup := by
  induction es generalizing m with
  | nil => exact h
  | cons e es ih => exact ih (nodup_keys_alter h)

theorem mem_keys_gather : k ∈ (gather d keyOf write es m).map (·.1) ↔
    k ∈ es.map keyOf ∨ k ∈ m.map (·.1) := by
  induction es generalizing m with
  | nil => simp [gather]
  | cons e es ih =>
    rw [gather_cons, ih, mem_keys_alter, List.map_cons, List.mem_cons]
    tauto

/-- **The value under a key** is what its entries make of the one it had. -/
theorem get_gather : get d (gather d keyOf write es m) k
    = (es.filter (keyOf · = k)).foldl (fun v e => write e v) (get d m k) := by
  induction es generalizing m with
  | nil => rfl
  | cons e es ih =>
    rw [gather_cons, ih, get_alter]
    by_cases hk : keyOf e = k
    · simp [hk]
    · simp [hk]

/-- What is gathered from nothing. -/
theorem mem_gather_iff {v : ν} : (k, v) ∈ gather d keyOf write es [] ↔
    k ∈ es.map keyOf ∧ (es.filter (keyOf · = k)).foldl (fun v e => write e v) d = v := by
  have hnodup : ((gather d keyOf write es []).map (·.1)).Nodup :=
    nodup_keys_gather d keyOf write List.nodup_nil
  have hkeys := @mem_keys_gather κ ν ε _ [] d k keyOf write es
  have hget := @get_gather κ ν ε _ [] d k keyOf write es
  rw [@mem_iff_get κ ν _ _ d k hnodup v, hkeys, hget]
  simp

/-! ### Values that are lists -/

section Lists

variable {β M : Type*} [AddCommMonoid M] {m : List (κ × List β)}

/-- What the items under all keys come to. -/
def total (g : β → M) (m : List (κ × List β)) : M := (m.map fun e => (e.2.map g).sum).sum

theorem total_alter {g : β → M} {f : List β → List β} {x : M}
    (h : ∀ l : List β, ((f l).map g).sum = (l.map g).sum + x) :
    total g (alter [] key f m) = total g m + x := by
  induction m with
  | nil => simpa [total, alter] using h []
  | cons e m ih =>
    rw [alter]
    rw [total] at ih
    split_ifs with hkey
    · simp only [total, List.map_cons, List.sum_cons, h]
      exact add_right_comm _ _ _
    · simp only [total, List.map_cons, List.sum_cons, ih]
      exact (add_assoc _ _ _).symm

/-- An item that is appended to a list is counted once more. -/
theorem total_alter_append (g : β → M) (b : β) :
    total g (alter [] key (· ++ [b]) m) = total g m + g b :=
  total_alter fun l => by simp

omit [DecidableEq κ] in
theorem total_append (g : β → M) (m m' : List (κ × List β)) :
    total g (m ++ m') = total g m + total g m' := by
  rw [total, List.map_append, List.sum_append, total, total]

theorem mem_values_alter_append {b b' : β} :
    b' ∈ (alter [] key (· ++ [b]) m).flatMap (·.2) ↔ b' = b ∨ b' ∈ m.flatMap (·.2) := by
  induction m with
  | nil => simp [alter]
  | cons e m ih =>
    rw [alter]
    split_ifs with hkey
    · simp only [List.flatMap_cons, List.mem_append, List.mem_singleton]
      tauto
    · rw [List.flatMap_cons, List.mem_append, ih, List.flatMap_cons, List.mem_append]
      tauto

end Lists

/-! ### Items that are counted several times -/

section Weights

variable {α : Type*} {l : List α} {k t c : α → ℤ}

/-- Two sums, one below the other item by item, are equal if the items are. -/
theorem sum_map_eq_iff_of_le {M : Type*} [AddCommMonoid M] [PartialOrder M]
    [IsOrderedCancelAddMonoid M] {f g : α → M} (h : ∀ x ∈ l, f x ≤ g x) :
    (l.map f).sum = (l.map g).sum ↔ ∀ x ∈ l, f x = g x := by
  induction l with
  | nil => simp
  | cons a l ih =>
    obtain ⟨ha, hl⟩ := List.forall_mem_cons.mp h
    rw [List.forall_mem_cons, ← ih hl]
    simp only [List.map_cons, List.sum_cons]
    exact add_eq_add_iff_eq_and_eq ha (List.sum_le_sum hl)

theorem sum_weighted_le_iff (hk : ∀ x ∈ l, 1 ≤ k x) (ht : ∀ x ∈ l, 0 ≤ t x) :
    (l.map fun x => k x * t x).sum ≤ (l.map t).sum ↔ ∀ x ∈ l, 0 < t x → k x ≤ 1 := by
  have hle : ∀ x ∈ l, t x ≤ k x * t x := fun x hx => le_mul_of_one_le_left (ht x hx) (hk x hx)
  have hsum := List.sum_le_sum hle
  have heq : (l.map fun x => k x * t x).sum ≤ (l.map t).sum
      ↔ (l.map t).sum = (l.map fun x => k x * t x).sum :=
    ⟨fun hge => le_antisymm hsum hge, fun heq => heq.ge⟩
  rw [heq, sum_map_eq_iff_of_le hle]
  refine forall₂_congr fun x hx => ?_
  have hone := hk x hx
  rcases (ht x hx).lt_or_eq with hpos | hzero
  · rw [eq_comm, mul_eq_right₀ hpos.ne']
    exact ⟨fun h _ => h.le, fun h => le_antisymm (h hpos) hone⟩
  · simp [← hzero]

/-- A sum that is clipped at zero is as large as it could be if all is there, or there is nothing. -/
theorem max_sum_weighted_eq_iff (hk : ∀ x ∈ l, 1 ≤ k x) (ht : ∀ x ∈ l, 0 ≤ t x)
    (hc : ∀ x ∈ l, c x ≤ t x) :
    max 0 (l.map fun x => k x * c x).sum = (l.map fun x => k x * t x).sum ↔
      (∀ x ∈ l, t x = 0) ∨ ∀ x ∈ l, c x = t x := by
  have hpos : ∀ x ∈ l, 0 < k x := fun x hx => Int.lt_of_lt_of_le Int.one_pos (hk x hx)
  have hle : ∀ x ∈ l, k x * c x ≤ k x * t x := fun x hx =>
    mul_le_mul_of_nonneg_left (hc x hx) (hpos x hx).le
  have hnonneg : ∀ x ∈ l, 0 ≤ k x * t x := fun x hx => mul_nonneg (hpos x hx).le (ht x hx)
  have hsum := List.sum_le_sum hle
  have hzero : 0 = (l.map fun x => k x * t x).sum ↔ ∀ x ∈ l, t x = 0 := by
    have h := sum_map_eq_iff_of_le (f := fun _ => 0) hnonneg
    rw [List.map_const', List.sum_replicate, nsmul_zero] at h
    rw [h]
    refine forall₂_congr fun x hx => ?_
    rw [eq_comm, mul_eq_zero, or_iff_right (hpos x hx).ne']
  have hall : (l.map fun x => k x * c x).sum = (l.map fun x => k x * t x).sum
      ↔ ∀ x ∈ l, c x = t x := by
    rw [sum_map_eq_iff_of_le hle]
    exact forall₂_congr fun x hx => mul_right_inj' (hpos x hx).ne'
  have htotal : 0 ≤ (l.map fun x => k x * t x).sum :=
    List.sum_nonneg (List.forall_mem_map.mpr hnonneg)
  rw [← hzero, ← hall]
  omega

end Weights

end Grouping

end Aixinwu
