import Mathlib.Data.Finset.Basic
import Mathlib.Data.Finset.Lattice.Basic

/-!
# Catalogue predicates

The predicate of a promotion rule, and `get_variants_for_predicate` of
`saleor/graphql/discount/utils.py`, which narrows a set of variants down to those that meet it. A
predicate is a JSON object: conditions on products, variants, collections and categories, and lists
`AND` and `OR` of further predicates. An empty object is met by no variant.

A member of such a list that has itself an operator is a predicate. One that has not is read by the
operator of the list: its conditions are all required in an `AND`, and in an `OR` one of them is
enough. `Satisfies` says this of a single variant, and `mem_getVariantsForPredicate` that the sets
are those of `Satisfies`.

Evaluating pops `AND` and `OR` off the object, and more off the conditions; what is left is
`consumed`. The conditions themselves are filters of other modules, `CatalogueFilters`.

## Main definitions

* `Predicate`, `Predicate.consumed`
* `getVariantsForPredicate`
* `Predicate.Satisfies`

## Main results

* `mem_getVariantsForPredicate`
-/

namespace Aixinwu

namespace RuleTargets

/-- `PREDICATE_TO_HANDLE_METHOD`. -/
inductive CatalogueField where
  | productPredicate
  | variantPredicate
  | collectionPredicate
  | categoryPredicate
deriving DecidableEq, Repr

/-- The order in which the fields are handled. -/
def catalogueFields : List CatalogueField :=
  [.productPredicate, .variantPredicate, .collectionPredicate, .categoryPredicate]

theorem mem_catalogueFields (field : CatalogueField) : field ∈ catalogueFields := by
  cases field <;> decide

/-- A predicate: its keys, each present or not. The value of a field is a condition, or empty. -/
inductive Predicate (δ : Type*) where
  | mk (and_ or_ : Option (List (Predicate δ))) (not_ : Bool)
    (fields : CatalogueField → Option (Option δ))

/-- The filters of products, variants, collections and categories on a catalogue: the variants that
a condition is true of, among all, and what evaluating leaves of a condition. -/
structure CatalogueFilters (γ δ ν : Type*) where
  variants : γ → Finset ν
  handle : γ → CatalogueField → δ → Finset ν
  handle_subset : ∀ catalogue field data, handle catalogue field data ⊆ variants catalogue
  consume : δ → δ

variable {γ δ ν : Type*}

namespace Predicate

/-- `contains_filter_operator`. -/
def containsFilterOperator : Predicate δ → Bool
  | mk and_ or_ not_ _ => and_.isSome || or_.isSome || not_

/-- The condition of a field, if there is one. -/
def condition : Predicate δ → CatalogueField → Option δ
  | mk _ _ _ fields, field => (fields field).join

/-- The object has keys besides `AND` and `OR`. -/
def hasOther : Predicate δ → Bool
  | mk _ _ not_ fields => not_ || catalogueFields.any fun field => (fields field).isSome

/-- `not predicate`. -/
def isEmpty : Predicate δ → Bool
  | mk and_ or_ not_ fields => !(and_.isSome || or_.isSome || (mk and_ or_ not_ fields).hasOther)

/-- What `get_variants_for_predicate` leaves of its argument. -/
def consumed (filters : CatalogueFilters γ δ ν) : Predicate δ → Predicate δ
  | mk _ _ not_ fields => mk none none not_ fun field => (fields field).map (·.map filters.consume)

end Predicate

variable [DecidableEq ν] (filters : CatalogueFilters γ δ ν) (catalogue : γ)

/-! ### `get_variants_for_predicate` -/

/-- `_handle_catalogue_predicate` with `Operators.AND`. -/
def handleCatalogueAnd (queryset : Finset ν) (predicate : Predicate δ) : Finset ν :=
  catalogueFields.foldl (fun queryset field => match predicate.condition field with
    | some data => queryset ∩ filters.handle catalogue field data
    | none => queryset) queryset

/-- `_handle_catalogue_predicate` with `Operators.OR`. -/
def handleCatalogueOr (queryset : Finset ν) (predicate : Predicate δ) : Finset ν :=
  catalogueFields.foldl (fun queryset field => match predicate.condition field with
    | some data => queryset ∪ filters.handle catalogue field data
    | none => queryset) queryset

mutual

/-- `get_variants_for_predicate`. -/
def getVariantsForPredicate : Predicate δ → Finset ν → Finset ν
  | .mk and_ or_ not_ fields, queryset =>
    if (Predicate.mk and_ or_ not_ fields).isEmpty then ∅
    else
      let queryset := match and_ with
        | none => queryset
        | some andData => handleAndData andData queryset
      let queryset := match or_ with
        | none => queryset
        | some orData =>
          if orData.isEmpty then queryset else queryset ∩ handleOrData orData queryset ∅
      if (Predicate.mk and_ or_ not_ fields).hasOther then
        handleCatalogueAnd filters catalogue queryset (.mk and_ or_ not_ fields)
      else queryset

/-- `_handle_and_data`. -/
def handleAndData : List (Predicate δ) → Finset ν → Finset ν
  | [], queryset => queryset
  | data :: andData, queryset =>
    handleAndData andData
      (if data.containsFilterOperator then queryset ∩ getVariantsForPredicate data queryset
      else handleCatalogueAnd filters catalogue queryset data)

/-- The loop of `_handle_or_data`. -/
def handleOrData : List (Predicate δ) → Finset ν → Finset ν → Finset ν
  | [], _, qs => qs
  | data :: orData, queryset, qs =>
    handleOrData orData queryset
      (if data.containsFilterOperator then qs ∪ getVariantsForPredicate data queryset
      else handleCatalogueOr filters catalogue qs data)

end

/-! ### What a predicate says of a variant -/

/-- The variant meets all conditions of the object. -/
def Predicate.SatisfiesAll (predicate : Predicate δ) (v : ν) : Prop :=
  ∀ field data, predicate.condition field = some data → v ∈ filters.handle catalogue field data

/-- The variant meets one condition of the object. -/
def Predicate.SatisfiesSome (predicate : Predicate δ) (v : ν) : Prop :=
  ∃ field data, predicate.condition field = some data ∧ v ∈ filters.handle catalogue field data

mutual

/-- The variant meets the predicate: all members of `AND`, one of `OR` and all conditions. -/
def Predicate.Satisfies : Predicate δ → ν → Prop
  | .mk and_ or_ not_ fields, v =>
    (Predicate.mk and_ or_ not_ fields).isEmpty = false ∧
      (match and_ with
        | none => True
        | some andData => SatisfiesEvery andData v) ∧
      (match or_ with
        | none => True
        | some orData => orData = [] ∨ SatisfiesAny orData v) ∧
      (Predicate.mk and_ or_ not_ fields).SatisfiesAll filters catalogue v

/-- The variant meets every member of an `AND`. -/
def SatisfiesEvery : List (Predicate δ) → ν → Prop
  | [], _ => True
  | data :: andData, v =>
    (if data.containsFilterOperator then data.Satisfies v else data.SatisfiesAll filters catalogue v) ∧
      SatisfiesEvery andData v

/-- The variant meets a member of an `OR`. -/
def SatisfiesAny : List (Predicate δ) → ν → Prop
  | [], _ => False
  | data :: orData, v =>
    (if data.containsFilterOperator then data.Satisfies v else data.SatisfiesSome filters catalogue v) ∨
      SatisfiesAny orData v

end

variable {filters catalogue}

theorem mem_foldl_inter {fields : List CatalogueField} {predicate : Predicate δ} {queryset : Finset ν}
    {v : ν} :
    v ∈ fields.foldl (fun queryset field => match predicate.condition field with
        | some data => queryset ∩ filters.handle catalogue field data
        | none => queryset) queryset ↔
      v ∈ queryset ∧ ∀ field ∈ fields, ∀ data, predicate.condition field = some data →
        v ∈ filters.handle catalogue field data := by
  induction fields generalizing queryset with
  | nil => simp
  | cons field fields ih =>
    rw [List.foldl_cons, ih, List.forall_mem_cons, ← and_assoc]
    refine and_congr_left fun _ => ?_
    cases predicate.condition field with
    | none => simp
    | some data => simp

theorem mem_foldl_union {fields : List CatalogueField} {predicate : Predicate δ} {queryset : Finset ν}
    {v : ν} :
    v ∈ fields.foldl (fun queryset field => match predicate.condition field with
        | some data => queryset ∪ filters.handle catalogue field data
        | none => queryset) queryset ↔
      v ∈ queryset ∨ ∃ field ∈ fields, ∃ data, predicate.condition field = some data ∧
        v ∈ filters.handle catalogue field data := by
  induction fields generalizing queryset with
  | nil => simp
  | cons field fields ih =>
    rw [List.foldl_cons, ih, List.exists_mem_cons_iff, ← or_assoc]
    refine or_congr_left ?_
    cases predicate.condition field with
    | none => simp
    | some data => simp

theorem mem_handleCatalogueAnd {predicate : Predicate δ} {queryset : Finset ν} {v : ν} :
    v ∈ handleCatalogueAnd filters catalogue queryset predicate ↔
      v ∈ queryset ∧ predicate.SatisfiesAll filters catalogue v := by
  rw [handleCatalogueAnd, mem_foldl_inter]
  refine and_congr_right fun _ => ?_
  exact ⟨fun h field data => h field (mem_catalogueFields field) data, fun h field _ data => h field data⟩

theorem mem_handleCatalogueOr {predicate : Predicate δ} {queryset : Finset ν} {v : ν} :
    v ∈ handleCatalogueOr filters catalogue queryset predicate ↔
      v ∈ queryset ∨ predicate.SatisfiesSome filters catalogue v := by
  rw [handleCatalogueOr, mem_foldl_union]
  refine or_congr_right ?_
  constructor
  · rintro ⟨field, -, data, h⟩
    exact ⟨field, data, h⟩
  · rintro ⟨field, data, h⟩
    exact ⟨field, mem_catalogueFields field, data, h⟩

omit [DecidableEq ν] in
/-- Without other keys there are no conditions. -/
theorem satisfiesAll_of_not_hasOther {predicate : Predicate δ} {v : ν}
    (h : predicate.hasOther = false) : predicate.SatisfiesAll filters catalogue v := by
  intro field data hdata
  cases predicate with
  | mk and_ or_ not_ fields =>
    rw [Predicate.hasOther, Bool.or_eq_false_iff] at h
    have hnone := List.any_eq_false.mp h.2 field (mem_catalogueFields field)
    rw [Predicate.condition] at hdata
    cases hfield : fields field with
    | none => simp [hfield] at hdata
    | some value => simp [hfield] at hnone

mutual

/-- **The sets are those of `Satisfies`.** -/
theorem mem_getVariantsForPredicate : ∀ (predicate : Predicate δ) (queryset : Finset ν) (v : ν),
    v ∈ getVariantsForPredicate filters catalogue predicate queryset ↔
      v ∈ queryset ∧ predicate.Satisfies filters catalogue v
  | .mk and_ or_ not_ fields, queryset, v => by
    -- the other keys, and an `OR` that is there
    have hother : ∀ q, v ∈ (if (Predicate.mk and_ or_ not_ fields).hasOther then
        handleCatalogueAnd filters catalogue q (.mk and_ or_ not_ fields) else q) ↔
          v ∈ q ∧ (Predicate.mk and_ or_ not_ fields).SatisfiesAll filters catalogue v := by
      intro q
      split
      · exact mem_handleCatalogueAnd
      · rename_i hnone
        exact (and_iff_left (satisfiesAll_of_not_hasOther (by simpa using hnone))).symm
    have hor : ∀ orData q, or_ = some orData → (v ∈ (if orData.isEmpty then q
        else q ∩ handleOrData filters catalogue orData q ∅) ↔
          v ∈ q ∧ (orData = [] ∨ SatisfiesAny filters catalogue orData v)) := by
      rintro orData q rfl
      split
      · rename_i hempty
        simp [List.isEmpty_iff.mp hempty]
      · rename_i hempty
        rw [Finset.mem_inter]
        refine and_congr_right fun hv => (mem_handleOrData orData q ∅ v hv).trans ?_
        simp [show orData ≠ [] by simpa using hempty]
    by_cases hempty : (Predicate.mk and_ or_ not_ fields).isEmpty = true
    · rw [getVariantsForPredicate.eq_def, Predicate.Satisfies.eq_def]
      simp [hempty]
    · have hempty' : (Predicate.mk and_ or_ not_ fields).isEmpty = false := by simpa using hempty
      rw [getVariantsForPredicate.eq_def, Predicate.Satisfies.eq_def]
      rcases and_ with _ | andData <;> rcases or_ with _ | orData
      · simp only [hempty', hother, Bool.false_eq_true, if_false]
        tauto
      · simp only [hempty', hother, hor orData _ rfl, Bool.false_eq_true, if_false]
        tauto
      · simp only [hempty', hother, mem_handleAndData andData, Bool.false_eq_true, if_false]
        tauto
      · simp only [hempty', hother, hor orData _ rfl, mem_handleAndData andData,
          Bool.false_eq_true, if_false]
        tauto

theorem mem_handleAndData : ∀ (andData : List (Predicate δ)) (queryset : Finset ν) (v : ν),
    v ∈ handleAndData filters catalogue andData queryset ↔
      v ∈ queryset ∧ SatisfiesEvery filters catalogue andData v
  | [], queryset, v => by simp [handleAndData, SatisfiesEvery]
  | data :: andData, queryset, v => by
    rw [handleAndData, mem_handleAndData andData, SatisfiesEvery, ← and_assoc]
    refine and_congr_left fun _ => ?_
    split
    · rw [Finset.mem_inter, mem_getVariantsForPredicate data]
      tauto
    · exact mem_handleCatalogueAnd

theorem mem_handleOrData : ∀ (orData : List (Predicate δ)) (queryset qs : Finset ν) (v : ν),
    v ∈ queryset → (v ∈ handleOrData filters catalogue orData queryset qs ↔
      v ∈ qs ∨ SatisfiesAny filters catalogue orData v)
  | [], queryset, qs, v, _ => by simp [handleOrData, SatisfiesAny]
  | data :: orData, queryset, qs, v, hv => by
    rw [handleOrData, mem_handleOrData orData queryset _ v hv, SatisfiesAny, ← or_assoc]
    refine or_congr_left ?_
    split
    · rw [Finset.mem_union, mem_getVariantsForPredicate data]
      tauto
    · exact mem_handleCatalogueOr

end

end RuleTargets

end Aixinwu
