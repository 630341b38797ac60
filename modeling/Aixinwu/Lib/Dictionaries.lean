import Mathlib.Data.List.Basic
import Mathlib.Data.List.Nodup
import Mathlib.Logic.Function.Basic

/-!
# Dictionaries filled from rows

A dictionary is filled by going through rows and storing the value of each under all of its keys. A
key that several rows have is the last one's, so reading a key finds the last row that has it. Whether
that is the row one meant is a matter of what other rows come after it.

The keys of such a dictionary are often texts put together from names and a value, with dots in
between. The value is arbitrary and may have dots of its own; the names have none, and that is
enough for the parts to be read off again.

## Main definitions

* `Dict.set`, `Dict.setAll`, `Dict.store`
* `dotted` — a model, a field and a value in one text

## Main results

* `Dict.store_apply` — reading finds the last row with the key
* `find?_reverse_eq_some_iff` — which row that is
* `named_iff_find?_reverse` — when it is the one that is named
* `dotted_inj` — two such texts are the same only if their parts are
-/

namespace Aixinwu

/-! ### Texts with dots -/

/-- What stands before the first dot is read off. -/
theorem append_dot_inj {m m' f f' : List Char} (hm : '.' ∉ m) (hm' : '.' ∉ m') :
    m ++ '.' :: f = m' ++ '.' :: f' ↔ m = m' ∧ f = f' := by
  induction m generalizing m' with
  | nil =>
    cases m' with
    | nil => simp
    | cons c m' =>
      refine ⟨fun h => ?_, fun h => by cases h.1⟩
      obtain ⟨rfl, -⟩ := List.cons.inj h
      exact absurd List.mem_cons_self hm'
  | cons c m ih =>
    cases m' with
    | nil =>
      refine ⟨fun h => ?_, fun h => by cases h.1⟩
      obtain ⟨rfl, -⟩ := List.cons.inj h
      exact absurd List.mem_cons_self hm
    | cons c' m' =>
      have hrest := @ih m' (fun h => hm (List.mem_cons_of_mem _ h))
        (fun h => hm' (List.mem_cons_of_mem _ h))
      simp only [List.cons_append, List.cons.injEq, hrest, and_assoc]

/-- `".".join((model, field, value))`. -/
def dotted (model field value : String) : String := ".".intercalate [model, field, value]

theorem toList_dotted (model field value : String) :
    (dotted model field value).toList = model.toList ++ '.' :: (field.toList ++ '.' :: value.toList) := by
  rw [dotted, String.toList_intercalate]
  simp

/-- Texts of different models are different. -/
theorem dotted_ne_of_model_ne {model model' field field' value value' : String}
    (hm : '.' ∉ model.toList) (hm' : '.' ∉ model'.toList) (h : model ≠ model') :
    dotted model field value ≠ dotted model' field' value' := by
  rw [ne_eq, ← String.toList_inj, toList_dotted, toList_dotted, append_dot_inj hm hm',
    String.toList_inj]
  exact fun heq => h heq.1

/-- **The parts are read off**: the model and the field have no dot, the value may have any. -/
theorem dotted_inj {model model' field field' value value' : String} (hm : '.' ∉ model.toList)
    (hm' : '.' ∉ model'.toList) (hf : '.' ∉ field.toList) (hf' : '.' ∉ field'.toList) :
    dotted model field value = dotted model' field' value' ↔
      model = model' ∧ field = field' ∧ value = value' := by
  rw [← String.toList_inj, toList_dotted, toList_dotted, append_dot_inj hm hm',
    append_dot_inj hf hf', String.toList_inj, String.toList_inj, String.toList_inj]

/-- The same among the texts of one model. -/
theorem dotted_inj_right {model field field' value value' : String} (hm : '.' ∉ model.toList)
    (hf : '.' ∉ field.toList) (hf' : '.' ∉ field'.toList) :
    dotted model field value = dotted model field' value' ↔ field = field' ∧ value = value' := by
  rw [dotted_inj hm hm hf hf']
  exact and_iff_right rfl

theorem mem_map_dotted {model field field' value : String} {values : List String}
    (hm : '.' ∉ model.toList) (hf : '.' ∉ field.toList) (hf' : '.' ∉ field'.toList) :
    dotted model field value ∈ values.map (dotted model field') ↔ field = field' ∧ value ∈ values := by
  rw [List.mem_map]
  refine ⟨fun ⟨value', hmem, heq⟩ => ?_, fun ⟨hfield, hmem⟩ => ⟨value, hmem, by rw [hfield]⟩⟩
  obtain ⟨rfl, rfl⟩ := (dotted_inj_right hm hf hf').mp heq.symm
  exact ⟨rfl, hmem⟩

/-! ### Dictionaries -/

/-- Values under keys. -/
def Dict (κ ν : Type*) := κ → Option ν

namespace Dict

variable {κ ν ρ : Type*}

/-- The dictionary without values. -/
def empty : Dict κ ν := fun _ => none

@[simp] theorem empty_apply (k : κ) : (empty : Dict κ ν) k = none := rfl

section Set

variable [DecidableEq κ]

/-- `d[k] = v`. -/
def set (d : Dict κ ν) (k : κ) (v : ν) : Dict κ ν := Function.update d k (some v)

/-- The same value under several keys. -/
def setAll (d : Dict κ ν) (ks : List κ) (v : ν) : Dict κ ν := ks.foldl (fun d k => d.set k v) d

theorem set_apply (d : Dict κ ν) (k k' : κ) (v : ν) :
    d.set k v k' = if k' = k then some v else d k' :=
  Function.update_apply d k (some v) k'

theorem setAll_apply (ks : List κ) (d : Dict κ ν) (v : ν) (k : κ) :
    d.setAll ks v k = if k ∈ ks then some v else d k := by
  induction ks generalizing d with
  | nil => rfl
  | cons k' ks ih =>
    have hcons : d.setAll (k' :: ks) v = (d.set k' v).setAll ks v := rfl
    rw [hcons, ih, set_apply]
    by_cases hrest : k ∈ ks
    · rw [if_pos hrest, if_pos (List.mem_cons_of_mem _ hrest)]
    · rw [if_neg hrest]
      by_cases hfirst : k = k'
      · rw [if_pos hfirst, if_pos (hfirst ▸ List.mem_cons_self)]
      · rw [if_neg hfirst, if_neg (List.not_mem_cons_of_ne_of_not_mem hfirst hrest)]

/-- Every row's value under all of its keys, row after row. -/
def store (d : Dict κ ν) (keys : ρ → List κ) (value : ρ → ν) (rows : List ρ) : Dict κ ν :=
  rows.foldl (fun d row => d.setAll (keys row) (value row)) d

variable (keys : ρ → List κ) (value : ρ → ν)

/-- **The last row that has a key** is the one that is found under it. -/
theorem store_apply (rows : List ρ) (d : Dict κ ν) (k : κ) :
    d.store keys value rows k
      = ((rows.reverse.find? fun row => decide (k ∈ keys row)).map value).or (d k) := by
  induction rows generalizing d with
  | nil => rfl
  | cons row rows ih =>
    have hcons : d.store keys value (row :: rows)
        = (d.setAll (keys row) (value row)).store keys value rows := rfl
    rw [hcons, ih, setAll_apply, List.reverse_cons, List.find?_append, List.find?_singleton]
    cases rows.reverse.find? fun row => decide (k ∈ keys row) with
    | some later => rfl
    | none =>
      by_cases hrow : k ∈ keys row
      · rw [if_pos hrow, decide_eq_true hrow]
        rfl
      · rw [if_neg hrow, decide_eq_false hrow]
        rfl

/-- A key that no row has is left alone. -/
theorem store_apply_of_not_mem (rows : List ρ) (d : Dict κ ν) {k : κ}
    (h : ∀ row ∈ rows, k ∉ keys row) : d.store keys value rows k = d k := by
  have hnone : (rows.reverse.find? fun row => decide (k ∈ keys row)) = none := by
    rw [List.find?_eq_none]
    intro row hrow
    rw [decide_eq_true_eq]
    exact h row (List.mem_reverse.mp hrow)
  rw [store_apply, hnone]
  rfl

end Set

/-- Rows of one model, each under one text, leave the texts of other models alone. -/
theorem store_dotted_apply {model model' field field' t : String} (value : ρ → String)
    (instance_ : ρ → ν) (rows : List ρ) (d : Dict String ν) (hm : '.' ∉ model.toList)
    (hm' : '.' ∉ model'.toList) (h : model' ≠ model) :
    d.store (fun row => [dotted model field (value row)]) instance_ rows (dotted model' field' t)
      = d (dotted model' field' t) := by
  refine store_apply_of_not_mem _ _ rows d fun row _ hmem => ?_
  exact dotted_ne_of_model_ne hm' hm h (List.mem_singleton.mp hmem)

end Dict

section Last

variable {ρ : Type*}

/-- The second row comes somewhere after the first. -/
def ComesAfter (rows : List ρ) (row later : ρ) : Prop :=
  ∃ front back, rows = front ++ row :: back ∧ later ∈ back

/-- **The last row that something is true of**: it is, and of no row that comes after it. -/
theorem find?_reverse_eq_some_iff {rows : List ρ} (hnodup : rows.Nodup) {p : ρ → Bool} {row : ρ} :
    rows.reverse.find? p = some row ↔
      row ∈ rows ∧ p row = true ∧ ∀ later, ComesAfter rows row later → p later = false := by
  rw [List.find?_eq_some_iff_append]
  refine ⟨fun ⟨hp, back, front, hrows, hback⟩ => ?_, fun ⟨hmem, hp, hlater⟩ => ⟨hp, ?_⟩⟩
  · have hsplit : rows = front.reverse ++ row :: back.reverse := by
      rw [← List.reverse_reverse rows, hrows, List.reverse_append, List.reverse_cons,
        List.append_assoc]
      rfl
    refine ⟨hsplit ▸ List.mem_append_right _ List.mem_cons_self, hp, ?_⟩
    rintro later ⟨front', back', hsplit', hlater⟩
    -- a row that is there once splits the list in one way
    rw [hsplit] at hnodup hsplit'
    have honce := (List.nodup_middle.mp hnodup).notMem
    rw [List.mem_append, not_or] at honce
    obtain ⟨-, -, rfl⟩ := (List.append_cons_inj_of_notMem honce.1 honce.2).mp hsplit'
    have hnot := hback later (List.mem_reverse.mp hlater)
    rwa [Bool.not_eq_true'] at hnot
  · obtain ⟨front, back, hsplit⟩ := List.append_of_mem hmem
    refine ⟨back.reverse, front.reverse, ?_, fun later hback => ?_⟩
    · rw [hsplit, List.reverse_append, List.reverse_cons, List.append_assoc]
      rfl
    · rw [Bool.not_eq_true']
      exact hlater later ⟨front, back, hsplit, List.mem_reverse.mp hback⟩

theorem not_comesAfter_self {rows : List ρ} (hnodup : rows.Nodup) (row : ρ) :
    ¬ ComesAfter rows row row := by
  rintro ⟨front, back, rfl, hback⟩
  have honce := (List.nodup_middle.mp hnodup).notMem
  exact honce (List.mem_append_right _ hback)

theorem ComesAfter.mem {rows : List ρ} {row later : ρ} (h : ComesAfter rows row later) :
    later ∈ rows := by
  obtain ⟨front, back, rfl, hback⟩ := h
  exact List.mem_append_right _ (List.mem_cons_of_mem _ hback)

variable {rows : List ρ} {named : ρ → Prop} {p : ρ → Bool}

/-- **Finding exactly what is named**: a row that is named is found, and no row that comes after it
would be; if none is named, none would be found. -/
theorem named_iff_find?_reverse (hnodup : rows.Nodup) :
    (∀ row, row ∈ rows ∧ named row ↔ rows.reverse.find? p = some row) ↔
      (∀ row ∈ rows, named row →
        p row = true ∧ ∀ later, ComesAfter rows row later → p later = false) ∧
      ((∀ row ∈ rows, ¬ named row) → ∀ row ∈ rows, p row = false) := by
  constructor
  · intro h
    refine ⟨fun row hrow hnamed => ?_, fun hnone row hrow => ?_⟩
    · exact ((find?_reverse_eq_some_iff hnodup).mp ((h row).mp ⟨hrow, hnamed⟩)).2
    · cases hfind : rows.reverse.find? p with
      | some found =>
        obtain ⟨hfound, hnamed⟩ := (h found).mpr hfind
        exact absurd hnamed (hnone found hfound)
      | none =>
        rw [← Bool.not_eq_true]
        exact List.find?_eq_none.mp hfind row (List.mem_reverse.mpr hrow)
  · rintro ⟨hfirst, hnone⟩ row
    have hfound : ∀ row, row ∈ rows ∧ named row → rows.reverse.find? p = some row :=
      fun row h => (find?_reverse_eq_some_iff hnodup).mpr ⟨h.1, hfirst row h.1 h.2⟩
    refine ⟨hfound row, fun hfind => ?_⟩
    by_cases hsome : ∃ other ∈ rows, named other
    · obtain ⟨other, hother⟩ := hsome
      rw [hfound other hother] at hfind
      exact Option.some.inj hfind ▸ hother
    · have hmem := (find?_reverse_eq_some_iff hnodup).mp hfind
      have hnot := hnone (fun row hrow hnamed => hsome ⟨row, hrow, hnamed⟩) row hmem.1
      rw [hmem.2.1] at hnot
      cases hnot

/-- Where only what is named would be found, and at most one row is named, it has to be found. -/
theorem named_iff_find?_reverse_of_unique (hnodup : rows.Nodup)
    (hp : ∀ row ∈ rows, p row = true → named row)
    (hunique : ∀ row ∈ rows, ∀ other ∈ rows, named row → named other → row = other) :
    (∀ row, row ∈ rows ∧ named row ↔ rows.reverse.find? p = some row) ↔
      ∀ row ∈ rows, named row → p row = true := by
  rw [named_iff_find?_reverse hnodup]
  refine ⟨fun h row hrow hnamed => (h.1 row hrow hnamed).1, fun h => ⟨fun row hrow hnamed => ?_, ?_⟩⟩
  · refine ⟨h row hrow hnamed, fun later hlater => ?_⟩
    rw [← Bool.not_eq_true]
    intro hplater
    obtain rfl := hunique row hrow later hlater.mem hnamed (hp later hlater.mem hplater)
    exact not_comesAfter_self hnodup row hlater
  · intro hnone row hrow
    rw [← Bool.not_eq_true]
    exact fun hprow => hnone row hrow (hp row hrow hprow)

end Last

end Aixinwu
