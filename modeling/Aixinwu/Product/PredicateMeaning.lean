import Aixinwu.Lib.Aggregates
import Aixinwu.Product.CataloguePredicates

/-!
# What a predicate means

A predicate reads like a formula: an `AND` is the conjunction of its members, an `OR` is *a list of
conditions of which at least one must be met*, and an object with several conditions asks for all of
them. `Means` is that formula. `Satisfies` is what the evaluation makes of it, and the two differ in
one place: an object with several conditions that is a member of an `OR` is read as if each of its
conditions were a member.

Whether that shows depends on the catalogue. In an `OR` it shows when a variant meets a condition of
such a member, but no member as a whole; further out, an enclosing `AND` may hide it again. So the
condition is about every `OR` in the predicate, and `rightEverywhere_iff` about every object in it.

`clean_predicate` lets an operator stand only alone in its object. Without that, conditions beside
an `OR` would be asked for as well, and the two readings would have to be compared under them.

## Main definitions

* `cleanPredicate`, `Predicate.Unmixed`
* `Predicate.Means`
* `RightEverywhere`, `OrsAgree`

## Main results

* `unmixed_of_cleanPredicate`
* `satisfies_iff_means` — the readings agree where the `OR`s do
* `rightEverywhere_iff`
-/

namespace Aixinwu

namespace RuleTargets

variable {γ δ ν : Type*}

/-! ### Cleaning -/

/-- The `ValidationError` of `clean_predicate`. -/
structure PredicateError where
  message : String
  code : String
  index : Option ℕ
deriving DecidableEq, Repr

/-- `len(predicate.keys())`. -/
def Predicate.keyCount : Predicate δ → ℕ
  | mk and_ or_ not_ fields =>
    and_.isSome.toNat + or_.isSome.toNat + not_.toNat
      + (catalogueFields.filter fun field => (fields field).isSome).length

/-- `_contains_operator`. -/
def Predicate.containsOperator : Predicate δ → Bool
  | mk and_ or_ _ _ => and_.isSome || or_.isSome

section Clean

variable (cleanCondition : δ → Except PredicateError δ) (index : Option ℕ)

/-- The value of a field. -/
def cleanField : Option (Option δ) → Except PredicateError (Option (Option δ))
  | some (some data) => (cleanCondition data).map fun data => some (some data)
  | value => .ok value

/-- The values of the fields. -/
def cleanFields (fields : CatalogueField → Option (Option δ)) :
    Except PredicateError (CatalogueField → Option (Option δ)) := do
  let product ← cleanField cleanCondition (fields .productPredicate)
  let variant ← cleanField cleanCondition (fields .variantPredicate)
  let collection ← cleanField cleanCondition (fields .collectionPredicate)
  let category ← cleanField cleanCondition (fields .categoryPredicate)
  return fun field => match field with
    | .productPredicate => product
    | .variantPredicate => variant
    | .collectionPredicate => collection
    | .categoryPredicate => category

mutual

/-- `clean_predicate` of an object; the keys of a predicate are those in camel case. -/
def cleanPredicate : Predicate δ → Except PredicateError (Predicate δ)
  | .mk and_ or_ not_ fields =>
    if (Predicate.mk and_ or_ not_ fields).containsOperator
        && 1 < (Predicate.mk and_ or_ not_ fields).keyCount then
      .error ⟨"Cannot mix operators with other filter inputs.", "INVALID", index⟩
    else do
      let and_ ← cleanOperator and_
      let or_ ← cleanOperator or_
      let fields ← cleanFields cleanCondition fields
      return .mk and_ or_ not_ fields

/-- The value of an operator that may be there. -/
def cleanOperator :
    Option (List (Predicate δ)) → Except PredicateError (Option (List (Predicate δ)))
  | none => .ok none
  | some data => (cleanPredicates data).map some

/-- `clean_predicate` of a list. -/
def cleanPredicates : List (Predicate δ) → Except PredicateError (List (Predicate δ))
  | [] => .ok []
  | data :: rest => do
    let data ← cleanPredicate data
    let rest ← cleanPredicates rest
    return data :: rest

end

end Clean

mutual

/-- No object in the predicate has an operator beside other keys. -/
def Predicate.Unmixed : Predicate δ → Prop
  | .mk and_ or_ not_ fields =>
    ((Predicate.mk and_ or_ not_ fields).containsOperator = true →
      (Predicate.mk and_ or_ not_ fields).keyCount ≤ 1) ∧
      OperatorUnmixed and_ ∧ OperatorUnmixed or_

/-- The members of an operator are unmixed, if it is there. -/
def OperatorUnmixed : Option (List (Predicate δ)) → Prop
  | none => True
  | some data => AllUnmixed data

/-- The members are unmixed. -/
def AllUnmixed : List (Predicate δ) → Prop
  | [] => True
  | data :: rest => data.Unmixed ∧ AllUnmixed rest

end

mutual

/-- The objects in the lists of the predicate have keys, of those that the input type has, and a
field stands for a condition. -/
def Predicate.NonEmpty : Predicate δ → Prop
  | .mk and_ or_ not_ fields =>
    not_ = false ∧ (∀ field, fields field ≠ some none) ∧
      (match and_ with
        | none => True
        | some andData => AllNonEmpty andData) ∧
      (match or_ with
        | none => True
        | some orData => AllNonEmpty orData)

/-- The members have keys. -/
def AllNonEmpty : List (Predicate δ) → Prop
  | [] => True
  | data :: rest => (data.isEmpty = false ∧ data.NonEmpty) ∧ AllNonEmpty rest

end

/-! ### The formula -/

section Meaning

variable (filters : CatalogueFilters γ δ ν) (catalogue : γ)

mutual

/-- The predicate is true of the variant. -/
def Predicate.Means : Predicate δ → ν → Prop
  | .mk and_ or_ not_ fields, v =>
    (Predicate.mk and_ or_ not_ fields).isEmpty = false ∧
      (match and_ with
        | none => True
        | some andData => MeansEvery andData v) ∧
      (match or_ with
        | none => True
        | some orData => MeansAny orData v) ∧
      (Predicate.mk and_ or_ not_ fields).SatisfiesAll filters catalogue v

/-- Every member is true of the variant. -/
def MeansEvery : List (Predicate δ) → ν → Prop
  | [], _ => True
  | data :: andData, v => data.Means v ∧ MeansEvery andData v

/-- A member is true of the variant. -/
def MeansAny : List (Predicate δ) → ν → Prop
  | [], _ => False
  | data :: orData, v => data.Means v ∨ MeansAny orData v

end

mutual

/-- In every `OR`, a variant that meets a condition of a member without operators is one that a
member is true of; and an `OR` has members, unless there are no variants. -/
def Predicate.OrsAgree : Predicate δ → Prop
  | .mk and_ or_ _ _ =>
    (match and_ with
      | none => True
      | some andData => AllOrsAgree andData) ∧
      (match or_ with
        | none => True
        | some orData => AllOrsAgree orData ∧
          ∀ v ∈ filters.variants catalogue,
            (orData = [] ∨ ∃ data ∈ orData, data.containsFilterOperator = false ∧
              data.SatisfiesSome filters catalogue v) → MeansAny filters catalogue orData v)

/-- The `OR`s of the members. -/
def AllOrsAgree : List (Predicate δ) → Prop
  | [] => True
  | data :: rest => data.OrsAgree ∧ AllOrsAgree rest

end

variable [DecidableEq ν]

/-- `get_variants_for_predicate` returns the variants that the predicate is true of. -/
def Right (predicate : Predicate δ) : Prop :=
  ∀ v, v ∈ getVariantsForPredicate filters catalogue predicate (filters.variants catalogue) ↔
    v ∈ filters.variants catalogue ∧ predicate.Means filters catalogue v

mutual

/-- It does so for the predicate and every object in it. -/
def RightEverywhere : Predicate δ → Prop
  | .mk and_ or_ not_ fields =>
    Right filters catalogue (.mk and_ or_ not_ fields) ∧
      (match and_ with
        | none => True
        | some andData => AllRightEverywhere andData) ∧
      (match or_ with
        | none => True
        | some orData => AllRightEverywhere orData)

/-- It does so for the members. -/
def AllRightEverywhere : List (Predicate δ) → Prop
  | [] => True
  | data :: rest => RightEverywhere data ∧ AllRightEverywhere rest

end

end Meaning

/-! ### What is accepted -/

theorem isSome_of_cleanField {cleanCondition : δ → Except PredicateError δ}
    {value value' : Option (Option δ)} (h : cleanField cleanCondition value = .ok value') :
    value'.isSome = value.isSome := by
  rcases value with _ | _ | data
  · obtain rfl := Except.ok.inj h
    rfl
  · obtain rfl := Except.ok.inj h
    rfl
  · rw [cleanField] at h
    obtain ⟨data', -, rfl⟩ := exists_of_map_eq_ok h
    rfl

theorem isSome_of_cleanFields {cleanCondition : δ → Except PredicateError δ}
    {fields fields' : CatalogueField → Option (Option δ)}
    (h : cleanFields cleanCondition fields = .ok fields') (field : CatalogueField) :
    (fields' field).isSome = (fields field).isSome := by
  rw [cleanFields] at h
  obtain ⟨product, hproduct, h⟩ := exists_of_bind_eq_ok h
  obtain ⟨variant, hvariant, h⟩ := exists_of_bind_eq_ok h
  obtain ⟨collection, hcollection, h⟩ := exists_of_bind_eq_ok h
  obtain ⟨category, hcategory, h⟩ := exists_of_bind_eq_ok h
  obtain rfl := Except.ok.inj h
  cases field with
  | productPredicate => exact isSome_of_cleanField hproduct
  | variantPredicate => exact isSome_of_cleanField hvariant
  | collectionPredicate => exact isSome_of_cleanField hcollection
  | categoryPredicate => exact isSome_of_cleanField hcategory

section

variable {cleanCondition : δ → Except PredicateError δ} {index : Option ℕ}

theorem isSome_of_cleanOperator {op op' : Option (List (Predicate δ))}
    (h : cleanOperator cleanCondition index op = .ok op') : op'.isSome = op.isSome := by
  cases op with
  | none =>
    rw [cleanOperator] at h
    obtain rfl := Except.ok.inj h
    rfl
  | some data =>
    rw [cleanOperator] at h
    obtain ⟨data', -, rfl⟩ := exists_of_map_eq_ok h
    rfl

mutual

/-- **What is accepted is unmixed.** -/
theorem unmixed_of_cleanPredicate : ∀ {p p' : Predicate δ},
    cleanPredicate cleanCondition index p = .ok p' → p'.Unmixed
  | .mk and_ or_ not_ fields, p', h => by
    rw [cleanPredicate.eq_def] at h
    dsimp only at h
    split at h
    · cases h
    · rename_i hkeys
      obtain ⟨and', hand, h⟩ := exists_of_bind_eq_ok h
      obtain ⟨or', hor, h⟩ := exists_of_bind_eq_ok h
      obtain ⟨fields', hfields, h⟩ := exists_of_bind_eq_ok h
      obtain rfl := Except.ok.inj h
      have hand_some := isSome_of_cleanOperator hand
      have hor_some := isSome_of_cleanOperator hor
      have hfields_some : (fun field => (fields' field).isSome)
          = fun field => (fields field).isSome := by
        funext field
        exact isSome_of_cleanFields hfields field
      rw [Predicate.Unmixed.eq_def]
      refine ⟨?_, ?_, ?_⟩
      · rw [Predicate.containsOperator, Predicate.keyCount, hand_some, hor_some, hfields_some]
        rw [Predicate.containsOperator, Predicate.keyCount] at hkeys
        intro hop
        rw [hop, Bool.true_and, decide_eq_true_eq, not_lt] at hkeys
        exact hkeys
      · exact allUnmixed_of_cleanOperator hand
      · exact allUnmixed_of_cleanOperator hor

theorem allUnmixed_of_cleanOperator : ∀ {op op' : Option (List (Predicate δ))},
    cleanOperator cleanCondition index op = .ok op' → OperatorUnmixed op'
  | none, op', h => by
    rw [cleanOperator] at h
    obtain rfl := Except.ok.inj h
    exact trivial
  | some data, op', h => by
    rw [cleanOperator] at h
    obtain ⟨data', hdata, rfl⟩ := exists_of_map_eq_ok h
    exact allUnmixed_of_cleanPredicates hdata

theorem allUnmixed_of_cleanPredicates : ∀ {ds ds' : List (Predicate δ)},
    cleanPredicates cleanCondition index ds = .ok ds' → AllUnmixed ds'
  | [], ds', h => by
    rw [cleanPredicates] at h
    obtain rfl := Except.ok.inj h
    exact trivial
  | data :: rest, ds', h => by
    rw [cleanPredicates] at h
    obtain ⟨data', hdata, h⟩ := exists_of_bind_eq_ok h
    obtain ⟨rest', hrest, h⟩ := exists_of_bind_eq_ok h
    obtain rfl := Except.ok.inj h
    exact ⟨unmixed_of_cleanPredicate hdata, allUnmixed_of_cleanPredicates hrest⟩

end

end

/-! ### Objects with an operator, and objects without -/

/-- An operator stands alone in its object. -/
theorem alone_of_unmixed {and_ or_ : Option (List (Predicate δ))} {not_ : Bool}
    {fields : CatalogueField → Option (Option δ)}
    (h : (Predicate.mk and_ or_ not_ fields).Unmixed)
    (hop : (Predicate.mk and_ or_ not_ fields).containsOperator = true) :
    (and_ = none ∨ or_ = none) ∧ not_ = false ∧ ∀ field, fields field = none := by
  rw [Predicate.Unmixed] at h
  have hkeys := h.1 hop
  rw [Predicate.keyCount] at hkeys
  rw [Predicate.containsOperator] at hop
  have hlength : (catalogueFields.filter fun field => (fields field).isSome).length = 0
      ∧ not_ = false ∧ (and_ = none ∨ or_ = none) := by
    cases and_ <;> cases or_ <;> cases not_ <;> simp_all <;> omega
  refine ⟨hlength.2.2, hlength.2.1, fun field => ?_⟩
  have hnone := List.filter_eq_nil_iff.mp (List.length_eq_zero_iff.mp hlength.1) field
    (mem_catalogueFields field)
  simpa using hnone

variable {filters : CatalogueFilters γ δ ν} {catalogue : γ}

/-- No fields, no conditions. -/
theorem satisfiesAll_of_fields {and_ or_ : Option (List (Predicate δ))} {not_ : Bool}
    {fields : CatalogueField → Option (Option δ)} (h : ∀ field, fields field = none) (v : ν) :
    (Predicate.mk and_ or_ not_ fields).SatisfiesAll filters catalogue v := by
  intro field data hdata
  rw [Predicate.condition, h field] at hdata
  cases hdata

/-- An object without operators means its conditions. -/
theorem means_iff_satisfiesAll {d : Predicate δ} (hop : d.containsFilterOperator = false)
    (hempty : d.isEmpty = false) (v : ν) :
    d.Means filters catalogue v ↔ d.SatisfiesAll filters catalogue v := by
  obtain ⟨and_, or_, not_, fields⟩ := d
  rw [Predicate.containsFilterOperator, Bool.or_eq_false_iff, Bool.or_eq_false_iff,
    Option.isSome_eq_false_iff, Option.isSome_eq_false_iff, Option.isNone_iff_eq_none,
    Option.isNone_iff_eq_none] at hop
  obtain ⟨⟨rfl, rfl⟩, rfl⟩ := hop
  rw [Predicate.Means]
  exact ⟨fun h => h.2.2.2, fun h => ⟨hempty, trivial, trivial, h⟩⟩

/-- It has a condition, so who meets all of them meets one. -/
theorem satisfiesSome_of_satisfiesAll {d : Predicate δ} (hop : d.containsFilterOperator = false)
    (hempty : d.isEmpty = false) (hne : d.NonEmpty) {v : ν}
    (h : d.SatisfiesAll filters catalogue v) : d.SatisfiesSome filters catalogue v := by
  obtain ⟨and_, or_, not_, fields⟩ := d
  rw [Predicate.containsFilterOperator, Bool.or_eq_false_iff, Bool.or_eq_false_iff] at hop
  rw [Predicate.isEmpty, Predicate.hasOther, hop.1.1, hop.1.2, hop.2] at hempty
  rw [Predicate.NonEmpty.eq_def] at hne
  have hany : (catalogueFields.any fun field => (fields field).isSome) = true := by
    simpa using hempty
  obtain ⟨field, -, hfield⟩ := List.any_eq_true.mp hany
  obtain ⟨value, hvalue⟩ := Option.isSome_iff_exists.mp hfield
  cases value with
  | none => exact absurd hvalue (hne.2.1 field)
  | some data =>
    have hcondition : (Predicate.mk and_ or_ not_ fields).condition field = some data := by
      rw [Predicate.condition, hvalue]
      rfl
    exact ⟨field, data, hcondition, h field data hcondition⟩

/-- A member without operators that is met in part meets the `OR`. -/
theorem satisfiesAny_of_mem {ds : List (Predicate δ)} {v : ν}
    (h : ∃ data ∈ ds, data.containsFilterOperator = false ∧
      data.SatisfiesSome filters catalogue v) : SatisfiesAny filters catalogue ds v := by
  induction ds with
  | nil => obtain ⟨data, hdata, -⟩ := h; cases hdata
  | cons d ds ih =>
    rw [SatisfiesAny]
    obtain ⟨data, hdata, hop, hsome⟩ := h
    rcases List.mem_cons.mp hdata with rfl | hdata
    · rw [hop, if_neg Bool.false_ne_true]
      exact Or.inl hsome
    · exact Or.inr (ih ⟨data, hdata, hop, hsome⟩)

/-! ### The two readings -/

mutual

/-- **The readings agree** where they agree on every `OR`. -/
theorem satisfies_iff_means : ∀ {p : Predicate δ}, p.NonEmpty → p.OrsAgree filters catalogue →
    ∀ {v : ν}, v ∈ filters.variants catalogue →
      (p.Satisfies filters catalogue v ↔ p.Means filters catalogue v)
  | .mk and_ or_ not_ fields, hne, hors, v, hv => by
    rw [Predicate.NonEmpty.eq_def] at hne
    rw [Predicate.OrsAgree.eq_def] at hors
    obtain ⟨-, -, hne_and, hne_or⟩ := hne
    obtain ⟨hors_and, hors_or⟩ := hors
    rw [Predicate.Satisfies.eq_def, Predicate.Means.eq_def]
    refine and_congr_right fun _ => and_congr ?_ (and_congr ?_ Iff.rfl)
    · cases and_ with
      | none => exact Iff.rfl
      | some andData => exact satisfiesEvery_iff_meansEvery hne_and hors_and hv
    · cases or_ with
      | none => exact Iff.rfl
      | some orData =>
        obtain ⟨hto, hfrom⟩ := satisfiesAny_of_meansAny hne_or hors_or.1 hv
        constructor
        · rintro (hnil | hany)
          · exact hors_or.2 v hv (Or.inl hnil)
          · exact (hfrom hany).elim id fun hsome => hors_or.2 v hv (Or.inr hsome)
        · exact fun hany => Or.inr (hto hany)

theorem satisfiesEvery_iff_meansEvery : ∀ {ds : List (Predicate δ)}, AllNonEmpty ds →
    AllOrsAgree filters catalogue ds → ∀ {v : ν}, v ∈ filters.variants catalogue →
      (SatisfiesEvery filters catalogue ds v ↔ MeansEvery filters catalogue ds v)
  | [], _, _, v, _ => by rw [SatisfiesEvery, MeansEvery]
  | d :: ds, hne, hors, v, hv => by
    rw [AllNonEmpty] at hne
    rw [AllOrsAgree] at hors
    rw [SatisfiesEvery, MeansEvery]
    refine and_congr ?_ (satisfiesEvery_iff_meansEvery hne.2 hors.2 hv)
    split
    · exact satisfies_iff_means hne.1.2 hors.1 hv
    · rename_i hop
      exact (means_iff_satisfiesAll (Bool.eq_false_iff.mpr hop) hne.1.1 v).symm

theorem satisfiesAny_of_meansAny : ∀ {ds : List (Predicate δ)}, AllNonEmpty ds →
    AllOrsAgree filters catalogue ds → ∀ {v : ν}, v ∈ filters.variants catalogue →
      (MeansAny filters catalogue ds v → SatisfiesAny filters catalogue ds v) ∧
      (SatisfiesAny filters catalogue ds v → MeansAny filters catalogue ds v ∨
        ∃ data ∈ ds, data.containsFilterOperator = false ∧
          data.SatisfiesSome filters catalogue v)
  | [], _, _, v, _ => by
    rw [SatisfiesAny, MeansAny]
    exact ⟨id, Or.inl⟩
  | d :: ds, hne, hors, v, hv => by
    rw [AllNonEmpty] at hne
    rw [AllOrsAgree] at hors
    obtain ⟨hto, hfrom⟩ := satisfiesAny_of_meansAny hne.2 hors.2 hv
    have hlater : SatisfiesAny filters catalogue ds v →
        (d.Means filters catalogue v ∨ MeansAny filters catalogue ds v) ∨
          ∃ data ∈ d :: ds, data.containsFilterOperator = false ∧
            data.SatisfiesSome filters catalogue v := by
      intro hany
      rcases hfrom hany with hmeans | ⟨data, hdata, hsome⟩
      · exact Or.inl (Or.inr hmeans)
      · exact Or.inr ⟨data, List.mem_cons_of_mem d hdata, hsome⟩
    rw [SatisfiesAny, MeansAny]
    split
    · have hd := satisfies_iff_means hne.1.2 hors.1 hv
      exact ⟨Or.imp hd.mpr hto, fun h => h.elim (fun h => Or.inl (Or.inl (hd.mp h))) hlater⟩
    · rename_i hop
      have hop' := Bool.eq_false_iff.mpr hop
      have hd := @means_iff_satisfiesAll γ δ ν filters catalogue d hop' hne.1.1 v
      refine ⟨Or.imp (fun h => ?_) hto, fun h => h.elim (fun h => ?_) hlater⟩
      · exact satisfiesSome_of_satisfiesAll hop' hne.1.1 hne.1.2 (hd.mp h)
      · exact Or.inr ⟨d, List.mem_cons_self, hop', h⟩

end

/-! ### One condition a member -/

mutual

/-- Every `OR` in the predicate has members, and none of several conditions. -/
def Predicate.SingleInOrs : Predicate δ → Prop
  | .mk and_ or_ _ _ =>
    (match and_ with
      | none => True
      | some andData => AllSingleInOrs andData) ∧
      (match or_ with
        | none => True
        | some orData => AllSingleInOrs orData ∧ orData ≠ [] ∧
          ∀ data ∈ orData, data.isEmpty = false ∧ ∀ field field',
            (data.condition field).isSome → (data.condition field').isSome → field = field')

/-- The `OR`s of the members. -/
def AllSingleInOrs : List (Predicate δ) → Prop
  | [] => True
  | data :: rest => data.SingleInOrs ∧ AllSingleInOrs rest

end

theorem meansAny_of_mem {ds : List (Predicate δ)} {d : Predicate δ} (hd : d ∈ ds) {v : ν}
    (h : d.Means filters catalogue v) : MeansAny filters catalogue ds v := by
  induction ds with
  | nil => cases hd
  | cons e ds ih =>
    rw [MeansAny]
    rcases List.mem_cons.mp hd with rfl | hd
    · exact Or.inl h
    · exact Or.inr (ih hd)

mutual

/-- Where no member of an `OR` has several conditions, the readings agree over every catalogue. -/
theorem orsAgree_of_singleInOrs : ∀ {p : Predicate δ}, p.SingleInOrs →
    p.OrsAgree filters catalogue
  | .mk and_ or_ _ _, h => by
    rw [Predicate.SingleInOrs.eq_def] at h
    rw [Predicate.OrsAgree.eq_def]
    refine ⟨?_, ?_⟩
    · cases and_ with
      | none => exact trivial
      | some andData => exact allOrsAgree_of_allSingleInOrs h.1
    · cases or_ with
      | none => exact trivial
      | some orData =>
        obtain ⟨hmembers, hnil, hsingle⟩ := h.2
        refine ⟨allOrsAgree_of_allSingleInOrs hmembers, fun v hv hsome => ?_⟩
        obtain ⟨data, hdata, hop, field, value, hvalue, hmem⟩ := hsome.resolve_left hnil
        refine meansAny_of_mem hdata ((means_iff_satisfiesAll hop (hsingle data hdata).1 v).mpr ?_)
        intro field' value' hvalue'
        obtain rfl := (hsingle data hdata).2 field field' (by rw [hvalue]; rfl)
          (by rw [hvalue']; rfl)
        obtain rfl := Option.some.inj (hvalue.symm.trans hvalue')
        exact hmem

theorem allOrsAgree_of_allSingleInOrs : ∀ {ds : List (Predicate δ)}, AllSingleInOrs ds →
    AllOrsAgree filters catalogue ds
  | [], _ => by rw [AllOrsAgree]; exact trivial
  | d :: ds, h => by
    rw [AllSingleInOrs] at h
    rw [AllOrsAgree]
    exact ⟨orsAgree_of_singleInOrs h.1, allOrsAgree_of_allSingleInOrs h.2⟩

end

/-! ### The variants that are returned -/

variable [DecidableEq ν]

/-- The variants returned are those that satisfy the predicate. -/
theorem right_iff {p : Predicate δ} :
    Right filters catalogue p ↔ ∀ v ∈ filters.variants catalogue,
      (p.Satisfies filters catalogue v ↔ p.Means filters catalogue v) := by
  refine forall_congr' fun v => ?_
  rw [mem_getVariantsForPredicate]
  exact and_congr_right_iff

/-- An `OR` that is right is one on which the readings agree. -/
theorem orAgrees_of_right {or_ : Option (List (Predicate δ))} {and_ : Option (List (Predicate δ))}
    {not_ : Bool} {fields : CatalogueField → Option (Option δ)} {orData : List (Predicate δ)}
    (hor : or_ = some orData) (hunmixed : (Predicate.mk and_ or_ not_ fields).Unmixed)
    (h : Right filters catalogue (Predicate.mk and_ or_ not_ fields)) {v : ν}
    (hv : v ∈ filters.variants catalogue)
    (hsome : orData = [] ∨ ∃ data ∈ orData, data.containsFilterOperator = false ∧
      data.SatisfiesSome filters catalogue v) : MeansAny filters catalogue orData v := by
  subst hor
  obtain ⟨hand, rfl, hfields⟩ := alone_of_unmixed hunmixed (by simp [Predicate.containsOperator])
  obtain rfl : and_ = none := hand.resolve_right (Option.some_ne_none _)
  have hsatisfies : (Predicate.mk none (some orData) false fields).Satisfies filters catalogue v := by
    rw [Predicate.Satisfies]
    refine ⟨by simp [Predicate.isEmpty], trivial, ?_, satisfiesAll_of_fields hfields v⟩
    exact hsome.imp_right satisfiesAny_of_mem
  have hmeans := (right_iff.mp h v hv).mp hsatisfies
  rw [Predicate.Means] at hmeans
  exact hmeans.2.2.1

mutual

/-- **`get_variants_for_predicate` returns the variants that a predicate is true of**, for a
predicate and every object in it, exactly if every `OR` in it is one on which the readings agree. -/
theorem rightEverywhere_iff_orsAgree : ∀ {p : Predicate δ}, p.Unmixed → p.NonEmpty →
    (RightEverywhere filters catalogue p ↔ p.OrsAgree filters catalogue)
  | .mk and_ or_ not_ fields, hunmixed, hne => by
    have hsound : (Predicate.mk and_ or_ not_ fields).OrsAgree filters catalogue →
        Right filters catalogue (.mk and_ or_ not_ fields) := fun hors =>
      right_iff.mpr fun v hv => satisfies_iff_means hne hors hv
    have hor : ∀ {orData}, or_ = some orData →
        Right filters catalogue (.mk and_ or_ not_ fields) → ∀ v ∈ filters.variants catalogue,
          (orData = [] ∨ ∃ data ∈ orData, data.containsFilterOperator = false ∧
            data.SatisfiesSome filters catalogue v) → MeansAny filters catalogue orData v :=
      fun hor h v hv hsome => orAgrees_of_right hor hunmixed h hv hsome
    rw [Predicate.NonEmpty.eq_def] at hne
    rw [Predicate.Unmixed.eq_def] at hunmixed
    obtain ⟨-, -, hne_and, hne_or⟩ := hne
    obtain ⟨-, hunmixed_and, hunmixed_or⟩ := hunmixed
    rw [Predicate.OrsAgree.eq_def] at hsound ⊢
    rw [RightEverywhere.eq_def]
    constructor
    · rintro ⟨hright, hand, hors⟩
      refine ⟨?_, ?_⟩
      · cases and_ with
        | none => exact trivial
        | some andData =>
          exact (allRightEverywhere_iff_allOrsAgree hunmixed_and hne_and).mp hand
      · cases or_ with
        | none => exact trivial
        | some orData =>
          exact ⟨(allRightEverywhere_iff_allOrsAgree hunmixed_or hne_or).mp hors, hor rfl hright⟩
    · intro hagree
      refine ⟨hsound hagree, ?_, ?_⟩
      · cases and_ with
        | none => exact trivial
        | some andData =>
          exact (allRightEverywhere_iff_allOrsAgree hunmixed_and hne_and).mpr hagree.1
      · cases or_ with
        | none => exact trivial
        | some orData =>
          exact (allRightEverywhere_iff_allOrsAgree hunmixed_or hne_or).mpr hagree.2.1

theorem allRightEverywhere_iff_allOrsAgree : ∀ {ds : List (Predicate δ)}, AllUnmixed ds →
    AllNonEmpty ds → (AllRightEverywhere filters catalogue ds ↔ AllOrsAgree filters catalogue ds)
  | [], _, _ => by rw [AllRightEverywhere, AllOrsAgree]
  | d :: ds, hunmixed, hne => by
    rw [AllUnmixed] at hunmixed
    rw [AllNonEmpty] at hne
    rw [AllRightEverywhere, AllOrsAgree]
    exact and_congr (rightEverywhere_iff_orsAgree hunmixed.1 hne.1.2)
      (allRightEverywhere_iff_allOrsAgree hunmixed.2 hne.2)

end

/-- **What `clean_predicate` accepts** is evaluated to the variants it is true of, it and every
object in it, exactly if every `OR` in it is one on which the readings agree. -/
theorem rightEverywhere_iff {cleanCondition : δ → Except PredicateError δ} {index : Option ℕ}
    {p p' : Predicate δ} (h : cleanPredicate cleanCondition index p = .ok p') (hne : p'.NonEmpty) :
    RightEverywhere filters catalogue p' ↔ p'.OrsAgree filters catalogue :=
  rightEverywhere_iff_orsAgree (unmixed_of_cleanPredicate h) hne

/-! ### Two conditions in an `OR` -/

/-- A catalogue of three variants; a condition lists the variants that meet it. -/
def listedVariants : CatalogueFilters Unit (Finset ℕ) ℕ where
  variants _ := {1, 2, 3}
  handle _ _ data := data ∩ {1, 2, 3}
  handle_subset _ _ _ := Finset.inter_subset_right
  consume := id

/-- An object with conditions on products and categories. -/
def conditions (product category : Option (Finset ℕ)) : Predicate (Finset ℕ) :=
  .mk none none false fun field => match field with
    | .productPredicate => product.map some
    | .categoryPredicate => category.map some
    | _ => none

/-- An `OR`. -/
def anyOf (data : List (Predicate (Finset ℕ))) : Predicate (Finset ℕ) :=
  .mk none (some data) false fun _ => none

theorem conditions_nonEmpty (product category : Option (Finset ℕ)) :
    (conditions product category).NonEmpty := by
  rw [conditions, Predicate.NonEmpty]
  refine ⟨rfl, fun field => ?_, trivial, trivial⟩
  cases field <;> cases product <;> cases category <;> simp

/-- The products or the categories. -/
def eitherListed : Predicate (Finset ℕ) :=
  anyOf [conditions (some {1, 2}) none, conditions none (some {2, 3})]

/-- The products and the categories, in an `OR`. -/
def bothListed : Predicate (Finset ℕ) := anyOf [conditions (some {1, 2}) (some {2, 3})]

theorem cleanFields_ok (fields : CatalogueField → Option (Option (Finset ℕ))) :
    cleanFields .ok fields = .ok fields := by
  have hfield : ∀ value : Option (Option (Finset ℕ)), cleanField .ok value = .ok value := by
    intro value
    rcases value with _ | _ | data <;> rfl
  rw [cleanFields, hfield, hfield, hfield, hfield]
  refine congrArg Except.ok (funext fun field => ?_)
  cases field <;> rfl

theorem cleanPredicate_conditions (product category : Option (Finset ℕ)) :
    cleanPredicate .ok none (conditions product category) = .ok (conditions product category) := by
  rw [conditions, cleanPredicate, cleanOperator, cleanFields_ok]
  rfl

theorem cleanPredicate_anyOf {data : List (Predicate (Finset ℕ))}
    (h : cleanPredicates .ok none data = .ok data) :
    cleanPredicate .ok none (anyOf data) = .ok (anyOf data) := by
  rw [anyOf, cleanPredicate, cleanOperator, cleanOperator, h, cleanFields_ok]
  rfl

theorem cleanPredicate_eitherListed : cleanPredicate .ok none eitherListed = .ok eitherListed := by
  refine cleanPredicate_anyOf ?_
  rw [cleanPredicates, cleanPredicates, cleanPredicates, cleanPredicate_conditions,
    cleanPredicate_conditions]
  rfl

theorem cleanPredicate_bothListed : cleanPredicate .ok none bothListed = .ok bothListed := by
  refine cleanPredicate_anyOf ?_
  rw [cleanPredicates, cleanPredicates, cleanPredicate_conditions]
  rfl

theorem nonEmpty_eitherListed : eitherListed.NonEmpty := by
  rw [eitherListed, anyOf, Predicate.NonEmpty, AllNonEmpty, AllNonEmpty, AllNonEmpty]
  exact ⟨rfl, fun _ => by simp, trivial, ⟨rfl, conditions_nonEmpty _ _⟩,
    ⟨rfl, conditions_nonEmpty _ _⟩, trivial⟩

theorem nonEmpty_bothListed : bothListed.NonEmpty := by
  rw [bothListed, anyOf, Predicate.NonEmpty, AllNonEmpty, AllNonEmpty]
  exact ⟨rfl, fun _ => by simp, trivial, ⟨rfl, conditions_nonEmpty _ _⟩, trivial⟩

theorem rightEverywhere_eitherListed_iff :
    RightEverywhere listedVariants () eitherListed ↔ eitherListed.OrsAgree listedVariants () :=
  rightEverywhere_iff cleanPredicate_eitherListed nonEmpty_eitherListed

/-- Variant 1 is in the products, but not in the categories, and it is selected. -/
theorem not_right_bothListed :
    ¬ ∀ (filters : CatalogueFilters Unit (Finset ℕ) ℕ) (p p' : Predicate (Finset ℕ)),
      cleanPredicate .ok none p = .ok p' → p'.NonEmpty → Right filters () p' := by
  intro h
  have hright := h listedVariants bothListed bothListed cleanPredicate_bothListed
    nonEmpty_bothListed 1
  have hselected : 1 ∈ getVariantsForPredicate listedVariants () bothListed
      (listedVariants.variants ()) := by
    decide +kernel
  have hmeans := (hright.mp hselected).2
  rw [bothListed, anyOf, Predicate.Means, MeansAny, MeansAny, or_false] at hmeans
  have hcategory := (means_iff_satisfiesAll rfl rfl 1).mp hmeans.2.2.1 .categoryPredicate {2, 3} rfl
  revert hcategory
  decide

end RuleTargets

end Aixinwu
