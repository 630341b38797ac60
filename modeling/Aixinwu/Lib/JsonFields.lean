import Aixinwu.Lib.Json

/-!
# Reading and writing the fields of an object

An object is a list of keys with values. Writing a key replaces its value where it is, or puts a new
one behind the others; updating a key leaves the object alone that does not have it. What is no
object has no fields and stays as it is.

## Main definitions

* `Json.get?`, `Json.set`, `Json.update`
* `Json.IsObject` — an object with at least one field

## Main results

* `Json.get?_update_self`, `Json.get?_update_of_ne`
* `Json.update_eq_self` — an update that leaves the value alone
-/

namespace Aixinwu

namespace Json

/-- Texts with the same code points are the same. -/
theorem codes_inj {s t : String} : codes s = codes t ↔ s = t := by
  rw [codes, codes, List.map_inj_right (fun c d h => Char.toNat_inj.mp h), String.toList_inj]

/-- Some key's value, written over or behind the others. -/
def setItem (key : List ℕ) (value : Json) : List (List ℕ × Json) → List (List ℕ × Json)
  | [] => [(key, value)]
  | item :: items =>
    if item.1 = key then (key, value) :: items else item :: setItem key value items

/-- `value.get(key)`. -/
def get? (j : Json) (key : List ℕ) : Option Json :=
  match j with
  | dict items => items.lookup key
  | _ => none

/-- `j[key] = value`. -/
def set (j : Json) (key : List ℕ) (value : Json) : Json :=
  match j with
  | dict items => dict (setItem key value items)
  | _ => j

/-- The value under a key, replaced by what a function makes of it. -/
def update (j : Json) (key : List ℕ) (f : Json → Json) : Json :=
  match j.get? key with
  | some value => j.set key (f value)
  | none => j

/-- An object with a field. -/
def IsObject (j : Json) : Prop := ∃ item items, j = dict (item :: items)

variable {j v w : Json} {k k' : List ℕ} {items : List (List ℕ × Json)} {f : Json → Json}

theorem lookup_setItem_self : (setItem k v items).lookup k = some v := by
  induction items with
  | nil => simp [setItem]
  | cons item items ih =>
    rw [setItem]
    split
    · exact List.lookup_cons_self
    · rename_i hne
      rw [List.lookup_cons, beq_eq_false_iff_ne.mpr (Ne.symm hne)]
      exact ih

theorem lookup_setItem_of_ne (h : k' ≠ k) : (setItem k v items).lookup k' = items.lookup k' := by
  induction items with
  | nil => simp [setItem, List.lookup_cons, beq_eq_false_iff_ne.mpr h]
  | cons item items ih =>
    obtain ⟨key, value⟩ := item
    rw [setItem]
    split
    · rename_i heq
      subst heq
      rw [List.lookup_cons, List.lookup_cons, beq_eq_false_iff_ne.mpr h]
    · rw [List.lookup_cons, List.lookup_cons, ih]

theorem setItem_of_lookup (h : items.lookup k = some v) : setItem k v items = items := by
  induction items with
  | nil => cases h
  | cons item items ih =>
    obtain ⟨key, value⟩ := item
    rw [setItem]
    by_cases heq : key = k
    · subst heq
      rw [List.lookup_cons_self] at h
      rw [if_pos rfl, Option.some.inj h]
    · rw [List.lookup_cons, beq_eq_false_iff_ne.mpr (Ne.symm heq)] at h
      rw [if_neg heq, ih h]

theorem get?_set_self (h : j.get? k = some w) : (j.set k v).get? k = some v := by
  cases j with
  | dict items => exact lookup_setItem_self
  | null | bool | number | str | list => cases h

theorem get?_set_of_ne (h : k' ≠ k) : (j.set k v).get? k' = j.get? k' := by
  cases j with
  | dict items => exact lookup_setItem_of_ne h
  | null | bool | number | str | list => rfl

theorem set_eq_self (h : j.get? k = some v) : j.set k v = j := by
  cases j with
  | dict items => exact congrArg dict (setItem_of_lookup h)
  | null | bool | number | str | list => rfl

theorem update_of_get? (h : j.get? k = some v) : j.update k f = j.set k (f v) := by
  rw [update, h]

theorem update_of_none (h : j.get? k = none) : j.update k f = j := by
  rw [update, h]

theorem get?_update_self : (j.update k f).get? k = (j.get? k).map f := by
  cases h : j.get? k with
  | some v =>
    rw [update_of_get? h]
    exact get?_set_self h
  | none => rw [update_of_none h, h, Option.map_none]

theorem get?_update_of_ne (h : k' ≠ k) : (j.update k f).get? k' = j.get? k' := by
  cases hget : j.get? k with
  | some v => rw [update_of_get? hget, get?_set_of_ne h]
  | none => rw [update_of_none hget]

/-- **An update** that leaves the value alone leaves the object alone. -/
theorem update_eq_self (h : ∀ v, j.get? k = some v → f v = v) : j.update k f = j := by
  cases hget : j.get? k with
  | some v => rw [update_of_get? hget, h v hget, set_eq_self hget]
  | none => exact update_of_none hget

theorem IsObject.set (h : j.IsObject) : (j.set k v).IsObject := by
  obtain ⟨item, items, rfl⟩ := h
  by_cases hkey : item.1 = k
  · exact ⟨(k, v), items, by rw [Json.set, setItem, if_pos hkey]⟩
  · exact ⟨item, setItem k v items, by rw [Json.set, setItem, if_neg hkey]⟩

theorem IsObject.update (h : j.IsObject) : (j.update k f).IsObject := by
  rw [Json.update]
  split
  · exact h.set
  · exact h

end Json

end Aixinwu
