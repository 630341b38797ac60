import Aixinwu.Lib.Runs
import Aixinwu.Product.CataloguePredicates
import Aixinwu.Product.Promotions

/-!
# The variants of promotion rules

`PromotionRule.variants` stores which variants meet the predicate of a rule. Three functions bring
it up to date: `get_products_for_rule` replaces the variants of one rule, the other two collect the
pairs for several rules and hand them to `update_rule_variant_relation`, which deletes what is no
longer there and adds what is new.

`get_variants_for_promotion` hands them over *only if there are any*. When the last variant of a
promotion has left the catalogue of its rules, the rows it had stay, and the discount with them.
**`follows_iff`**: that is all that goes wrong, over every history of catalogue changes and runs.

Evaluating a predicate takes it apart. Two of the functions evaluate the predicate of an instance
they have read and throw the instance away, one evaluates a copy; the stored predicates are the same
afterwards.

## Main definitions

* `Db`, `updateRuleVariantRelation`
* `getVariantsForPromotion`, `fetchVariantsForPromotionRules`, `getProductsForRule`
* `Event`, `step` — catalogue changes and runs
* `Follows` — the relation is that of the predicates after a run

## Main results

* `mem_updateRuleVariantRelation`
* `follows_run_iff` — one run
* `follows_iff` — every history
-/

namespace Aixinwu

namespace RuleTargets

open Promotions (PromotionRuleVariant)
open Runs

/-- `PromotionRule`, its promotion and its predicate. -/
structure PromotionRule (δ : Type*) where
  pk : ℕ
  promotion : ℕ
  cataloguePredicate : Predicate δ

instance {δ : Type*} : HasPk (PromotionRule δ) ℕ := ⟨PromotionRule.pk⟩

/-- The catalogue, the promotions, their rules and `PromotionRule.variants.through`. -/
structure Db (γ δ : Type*) where
  catalogue : γ
  promotions : List ℕ
  rules : Table (PromotionRule δ)
  ruleVariants : Table PromotionRuleVariant

variable {γ δ : Type*} (filters : CatalogueFilters γ δ ℕ)

/-- The variants that the predicate of a rule selects. -/
def variantsOfRule (db : Db γ δ) (rule : PromotionRule δ) : Finset ℕ :=
  getVariantsForPredicate filters db.catalogue rule.cataloguePredicate (filters.variants db.catalogue)

/-- The instance of a rule after its predicate has been evaluated. -/
def PromotionRule.evaluated (rule : PromotionRule δ) : PromotionRule δ :=
  { rule with
    cataloguePredicate := if rule.cataloguePredicate.isEmpty then rule.cataloguePredicate
      else rule.cataloguePredicate.consumed filters }

/-- The rows that say a rule is for its variants. -/
def newRuleVariants (rule : PromotionRule δ) (variants : Finset ℕ) : List PromotionRuleVariant :=
  (variants.sort (· ≤ ·)).map (⟨rule.pk, ·⟩)

/-- `update_rule_variant_relation`, for the rules with these keys. -/
def updateRuleVariantRelation (ruleVariants : Table PromotionRuleVariant) (rules : List ℕ)
    (newRulesVariants : List PromotionRuleVariant) : Table PromotionRuleVariant :=
  let existingRulesVariants := ruleVariants.rows.filter (·.promotionrule ∈ rules)
  let toDelete := existingRulesVariants.filter (· ∉ newRulesVariants)
  let toAdd := newRulesVariants.filter (· ∉ existingRulesVariants)
  (ruleVariants.delete (· ∈ toDelete)).insertIgnoring toAdd

/-- `rule.variants.set(variants)`. -/
def setVariants (ruleVariants : Table PromotionRuleVariant) (rule : PromotionRule δ)
    (variants : Finset ℕ) : Table PromotionRuleVariant :=
  (ruleVariants.delete fun r => r.promotionrule = rule.pk ∧ r.productvariant ∉ variants).insertIgnoring
    (newRuleVariants rule variants)

/-- `get_variants_for_promotion(promotion, update_rule_variants=True)`: the state, the variants and
the instances of the rules as they are left. -/
def getVariantsForPromotion (db : Db γ δ) (promotion : ℕ) :
    Db γ δ × Finset ℕ × List (PromotionRule δ) :=
  let rules := db.rules.rows.filter (·.promotion = promotion)
  let queryset := rules.foldl (fun queryset rule => queryset ∪ variantsOfRule filters db rule) ∅
  let promotionRuleVariants := rules.flatMap fun rule =>
    newRuleVariants rule (variantsOfRule filters db rule)
  let db := if promotionRuleVariants.isEmpty then db
    else { db with
      ruleVariants := updateRuleVariantRelation db.ruleVariants (rules.map (·.pk))
        promotionRuleVariants }
  (db, queryset, rules.map (·.evaluated filters))

/-- `fetch_variants_for_promotion_rules(rules)`: the state and the instances. -/
def fetchVariantsForPromotionRules (db : Db γ δ) (pks : List ℕ) :
    Db γ δ × List (PromotionRule δ) :=
  let rules := db.rules.rows.filter (·.pk ∈ pks)
  let newRulesVariants := rules.flatMap fun rule =>
    newRuleVariants rule (variantsOfRule filters db rule)
  ({ db with
      ruleVariants := updateRuleVariantRelation db.ruleVariants (rules.map (·.pk)) newRulesVariants },
    rules.map (·.evaluated filters))

/-- `get_products_for_rule(rule, update_rule_variants=True)`: the state and the variants whose
products are returned. A copy of the predicate is evaluated. -/
def getProductsForRule (db : Db γ δ) (rule : PromotionRule δ) : Db γ δ × Finset ℕ :=
  let variants := variantsOfRule filters db rule
  ({ db with ruleVariants := setVariants db.ruleVariants rule variants }, variants)

/-- `update_products_discounted_prices_of_promotion_task`, as far as rules are concerned. -/
def updateProductsDiscountedPricesOfPromotionTask (db : Db γ δ) (promotion : ℕ) : Db γ δ :=
  if promotion ∈ db.promotions then (getVariantsForPromotion filters db promotion).1 else db

/-- The functions that bring the relation up to date. -/
inductive RuleUpdate where
  | promotionTask (promotion : ℕ)
  | fetchVariants (rules : List ℕ)
  | productsForRule (rule : ℕ)
deriving DecidableEq, Repr

/-- The state after one of them. -/
def runUpdate (db : Db γ δ) : RuleUpdate → Db γ δ
  | .promotionTask promotion => updateProductsDiscountedPricesOfPromotionTask filters db promotion
  | .fetchVariants rules => (fetchVariantsForPromotionRules filters db rules).1
  | .productsForRule rule => match db.rules.find? rule with
    | some rule => (getProductsForRule filters db rule).1
    | none => db

/-- A change of the catalogue, or a run. -/
inductive Event (γ : Type*) where
  | change (catalogue : γ)
  | update (u : RuleUpdate)

/-- The state after an event. Rows of variants that are no longer there go with them. -/
def step (db : Db γ δ) : Event γ → Db γ δ
  | .change catalogue =>
    { db with
      catalogue
      ruleVariants := db.ruleVariants.delete (·.productvariant ∉ filters.variants catalogue) }
  | .update u => runUpdate filters db u

/-- The rules that a run covers. -/
def Covers (db : Db γ δ) (rule : PromotionRule δ) : RuleUpdate → Prop
  | .promotionTask promotion => promotion ∈ db.promotions ∧ rule.promotion = promotion
  | .fetchVariants rules => rule.pk ∈ rules
  | .productsForRule pk => rule.pk = pk

/-- **What is wanted of a run.** The relation of every rule it covers is that of its predicate, that
of other rules and the rules themselves are as they were, and running again changes nothing. -/
structure Follows (db : Db γ δ) (u : RuleUpdate) (db' : Db γ δ) : Prop where
  covered : ∀ rule ∈ db.rules, Covers db rule u → ∀ v, ⟨rule.pk, v⟩ ∈ db'.ruleVariants ↔
    v ∈ filters.variants db.catalogue ∧
      rule.cataloguePredicate.Satisfies filters db.catalogue v
  others : ∀ r : PromotionRuleVariant,
    (∀ rule ∈ db.rules, Covers db rule u → rule.pk ≠ r.promotionrule) →
      (r ∈ db'.ruleVariants ↔ r ∈ db.ruleVariants)
  rules : db'.rules = db.rules
  again : ∀ r, r ∈ (runUpdate filters db' u).ruleVariants ↔ r ∈ db'.ruleVariants

/-- Before a run over a promotion some variant meets a rule of the promotion, or no rule of it has
a variant. -/
def Nonempty (db : Db γ δ) : RuleUpdate → Prop
  | .promotionTask promotion => promotion ∈ db.promotions →
    (∃ rule ∈ db.rules, rule.promotion = promotion ∧ ∃ v ∈ filters.variants db.catalogue,
      rule.cataloguePredicate.Satisfies filters db.catalogue v) ∨
    ∀ rule ∈ db.rules, rule.promotion = promotion → ∀ v, ⟨rule.pk, v⟩ ∉ db.ruleVariants
  | .fetchVariants _ => True
  | .productsForRule _ => True

/-! ### Writing the relation -/

section Relation

theorem eq_of_pk_ruleVariant {r s : PromotionRuleVariant} (h : pk s = pk r) : s = r := by
  cases r
  cases s
  simpa [HasPk.pk] using h

/-- **Writing the pairs of some rules** leaves these and the pairs of other rules. -/
theorem mem_updateRuleVariantRelation {ruleVariants : Table PromotionRuleVariant} {rules : List ℕ}
    {new : List PromotionRuleVariant} {r : PromotionRuleVariant} :
    r ∈ updateRuleVariantRelation ruleVariants rules new ↔
      r ∈ new ∨ r ∈ ruleVariants ∧ r.promotionrule ∉ rules := by
  rw [updateRuleVariantRelation, Table.mem_insertIgnoring fun _ _ _ _ => eq_of_pk_ruleVariant,
    Table.mem_delete]
  simp only [decide_eq_false_iff_not, List.mem_filter, decide_eq_true_eq, not_and, not_not,
    ← Table.mem_def]
  constructor
  · rintro (⟨hr, hkept⟩ | ⟨hr, -⟩)
    · by_cases hrule : r.promotionrule ∈ rules
      · exact Or.inl (hkept ⟨hr, hrule⟩)
      · exact Or.inr ⟨hr, hrule⟩
    · exact Or.inl hr
  · rintro (hr | ⟨hr, hrule⟩)
    · by_cases hold : r ∈ ruleVariants
      · exact Or.inl ⟨hold, fun _ => hr⟩
      · exact Or.inr ⟨hr, fun h => absurd h hold⟩
    · exact Or.inl ⟨hr, fun h => absurd h.2 hrule⟩

theorem mem_newRuleVariants {rule : PromotionRule δ} {variants : Finset ℕ}
    {r : PromotionRuleVariant} :
    r ∈ newRuleVariants rule variants ↔ r.promotionrule = rule.pk ∧ r.productvariant ∈ variants := by
  rw [newRuleVariants, List.mem_map]
  constructor
  · rintro ⟨v, hv, rfl⟩
    exact ⟨rfl, by simpa using hv⟩
  · rintro ⟨hrule, hv⟩
    refine ⟨r.productvariant, by simpa using hv, ?_⟩
    rw [← hrule]

theorem mem_setVariants {ruleVariants : Table PromotionRuleVariant} {rule : PromotionRule δ}
    {variants : Finset ℕ} {r : PromotionRuleVariant} :
    r ∈ setVariants ruleVariants rule variants ↔
      (r.promotionrule = rule.pk ∧ r.productvariant ∈ variants) ∨
        r ∈ ruleVariants ∧ r.promotionrule ≠ rule.pk := by
  rw [setVariants, Table.mem_insertIgnoring fun _ _ _ _ => eq_of_pk_ruleVariant, Table.mem_delete,
    mem_newRuleVariants]
  by_cases hrule : r.promotionrule = rule.pk <;> by_cases hv : r.productvariant ∈ variants <;>
    simp [hrule, hv]

end Relation

/-! ### One run -/

section Run

variable {filters} {db : Db γ δ}

theorem mem_variantsOfRule {rule : PromotionRule δ} {v : ℕ} :
    v ∈ variantsOfRule filters db rule ↔ v ∈ filters.variants db.catalogue ∧
      rule.cataloguePredicate.Satisfies filters db.catalogue v :=
  mem_getVariantsForPredicate _ _ _

/-- The pairs of the rules that a run covers. -/
def Pairs (filters : CatalogueFilters γ δ ℕ) (db : Db γ δ) (u : RuleUpdate)
    (r : PromotionRuleVariant) : Prop :=
  ∃ rule ∈ db.rules, Covers db rule u ∧ r.promotionrule = rule.pk ∧
    r.productvariant ∈ variantsOfRule filters db rule

/-- Collecting the pairs of some rules and writing them. -/
theorem mem_update_of_rules {rules : List (PromotionRule δ)} {r : PromotionRuleVariant} :
    r ∈ updateRuleVariantRelation db.ruleVariants (rules.map (·.pk))
        (rules.flatMap fun rule => newRuleVariants rule (variantsOfRule filters db rule)) ↔
      (∃ rule ∈ rules, r.promotionrule = rule.pk ∧
        r.productvariant ∈ variantsOfRule filters db rule) ∨
      r ∈ db.ruleVariants ∧ ∀ rule ∈ rules, rule.pk ≠ r.promotionrule := by
  rw [mem_updateRuleVariantRelation]
  refine or_congr ?_ (and_congr_right fun _ => ?_)
  · simp only [List.mem_flatMap, mem_newRuleVariants]
  · simp only [List.mem_map, not_exists, not_and, ne_eq]

/-- **What a run leaves**: the pairs of the rules it covers, and the rows of others. -/
theorem mem_runUpdate {u : RuleUpdate} (h : Nonempty filters db u) {r : PromotionRuleVariant} :
    r ∈ (runUpdate filters db u).ruleVariants ↔ Pairs filters db u r ∨
      r ∈ db.ruleVariants ∧ ∀ rule ∈ db.rules, Covers db rule u → rule.pk ≠ r.promotionrule := by
  cases u with
  | fetchVariants pks =>
    refine mem_update_of_rules.trans (or_congr ?_ (and_congr_right fun _ => ?_))
    · simp [Pairs, Covers, Table.mem_def, and_assoc]
    · simp [Covers, Table.mem_def]
  | productsForRule pk =>
    rw [runUpdate]
    split
    · rename_i rule hfind
      obtain ⟨hmem, hpk⟩ := Table.find?_eq_some.mp hfind
      -- the rule with this key is the only one covered
      have honly : ∀ rule' ∈ db.rules, rule'.pk = pk → rule' = rule := fun rule' hmem' hpk' =>
        Table.eq_of_pk_eq hmem' hmem (hpk'.trans hpk.symm)
      refine mem_setVariants.trans (or_congr ?_ (and_congr_right fun _ => ?_))
      · constructor
        · exact fun h => ⟨rule, hmem, hpk, h⟩
        · rintro ⟨rule', hmem', hpk', h⟩
          rwa [honly rule' hmem' hpk'] at h
      · constructor
        · rintro hne rule' hmem' hpk' heq
          rw [honly rule' hmem' hpk'] at heq
          exact hne heq.symm
        · exact fun h heq => h rule hmem hpk heq.symm
    · rename_i hfind
      have hnone : ∀ rule ∈ db.rules, ¬ rule.pk = pk := Table.find?_eq_none.mp hfind
      constructor
      · exact fun hr => Or.inr ⟨hr, fun rule hmem hpk => absurd hpk (hnone rule hmem)⟩
      · rintro (⟨rule, hmem, hpk, -⟩ | ⟨hr, -⟩)
        · exact absurd hpk (hnone rule hmem)
        · exact hr
  | promotionTask promotion =>
    rw [runUpdate, updateProductsDiscountedPricesOfPromotionTask]
    split
    · rename_i hpromotion
      rw [getVariantsForPromotion]
      dsimp only
      split
      · rename_i hempty
        -- nothing to hand over, and by `h` nothing to take away
        have hnone : ∀ rule ∈ db.rules, rule.promotion = promotion →
            ∀ v, v ∉ variantsOfRule filters db rule := by
          intro rule hmem hrule v hv
          have hin : (⟨rule.pk, v⟩ : PromotionRuleVariant) ∈ (db.rules.rows.filter
              (·.promotion = promotion)).flatMap fun rule =>
                newRuleVariants rule (variantsOfRule filters db rule) :=
            List.mem_flatMap.mpr ⟨rule, List.mem_filter.mpr ⟨hmem, by simpa using hrule⟩,
              mem_newRuleVariants.mpr ⟨rfl, hv⟩⟩
          rw [List.isEmpty_iff.mp hempty] at hin
          cases hin
        have hrows : ∀ rule ∈ db.rules, rule.promotion = promotion →
            ∀ v, ⟨rule.pk, v⟩ ∉ db.ruleVariants := by
          rcases h hpromotion with ⟨rule, hmem, hrule, v, hv⟩ | hrows
          · exact absurd (mem_variantsOfRule.mpr hv) (hnone rule hmem hrule v)
          · exact hrows
        constructor
        · refine fun hr => Or.inr ⟨hr, fun rule hmem hcovers heq => ?_⟩
          refine hrows rule hmem hcovers.2 r.productvariant ?_
          rw [heq]
          exact hr
        · rintro (⟨rule, hmem, hcovers, -, hv⟩ | ⟨hr, -⟩)
          · exact absurd hv (hnone rule hmem hcovers.2 r.productvariant)
          · exact hr
      · refine mem_update_of_rules.trans (or_congr ?_ (and_congr_right fun _ => ?_))
        · simp [Pairs, Covers, Table.mem_def, hpromotion, and_assoc]
        · simp [Covers, Table.mem_def, hpromotion]
    · rename_i hpromotion
      simp [Pairs, Covers, hpromotion]

/-- No run changes anything but the relation. -/
theorem runUpdate_eq (filters : CatalogueFilters γ δ ℕ) (db : Db γ δ) (u : RuleUpdate) :
    ∃ ruleVariants, runUpdate filters db u = { db with ruleVariants } := by
  cases u with
  | fetchVariants pks => exact ⟨_, rfl⟩
  | productsForRule pk =>
    rw [runUpdate]
    split
    · exact ⟨_, rfl⟩
    · exact ⟨_, rfl⟩
  | promotionTask promotion =>
    rw [runUpdate, updateProductsDiscountedPricesOfPromotionTask, getVariantsForPromotion]
    dsimp only
    split
    · split
      · exact ⟨_, rfl⟩
      · exact ⟨_, rfl⟩
    · exact ⟨_, rfl⟩

/-- Where no variant meets a rule of the promotion, its run leaves the rows as they are. -/
theorem promotionTask_of_none {promotion : ℕ}
    (h : ∀ rule ∈ db.rules, rule.promotion = promotion → ∀ v, v ∉ variantsOfRule filters db rule) :
    updateProductsDiscountedPricesOfPromotionTask filters db promotion = db := by
  rw [updateProductsDiscountedPricesOfPromotionTask, getVariantsForPromotion]
  dsimp only
  split
  · rw [if_pos]
    rw [List.isEmpty_iff, List.flatMap_eq_nil_iff]
    intro rule hrule
    obtain ⟨hmem, hpromotion⟩ := List.mem_filter.mp hrule
    have hempty : variantsOfRule filters db rule = ∅ :=
      Finset.eq_empty_of_forall_notMem (h rule hmem (by simpa using hpromotion))
    simp [newRuleVariants, hempty]
  · rfl

variable (u : RuleUpdate)

theorem runUpdate_catalogue : (runUpdate filters db u).catalogue = db.catalogue := by
  obtain ⟨ruleVariants, h⟩ := runUpdate_eq filters db u
  rw [h]

theorem runUpdate_rules : (runUpdate filters db u).rules = db.rules := by
  obtain ⟨ruleVariants, h⟩ := runUpdate_eq filters db u
  rw [h]

theorem runUpdate_promotions : (runUpdate filters db u).promotions = db.promotions := by
  obtain ⟨ruleVariants, h⟩ := runUpdate_eq filters db u
  rw [h]

theorem covers_runUpdate {rule : PromotionRule δ} :
    Covers (runUpdate filters db u) rule u ↔ Covers db rule u := by
  cases u with
  | promotionTask promotion => simp only [Covers, runUpdate_promotions]
  | fetchVariants rules => exact Iff.rfl
  | productsForRule rule => exact Iff.rfl

theorem pairs_runUpdate {r : PromotionRuleVariant} :
    Pairs filters (runUpdate filters db u) u r ↔ Pairs filters db u r := by
  simp only [Pairs, runUpdate_rules, covers_runUpdate, mem_variantsOfRule, runUpdate_catalogue]

variable {u}

/-- The condition still holds after the run. -/
theorem Nonempty.runUpdate (h : Nonempty filters db u) :
    Nonempty filters (runUpdate filters db u) u := by
  cases u with
  | fetchVariants pks => trivial
  | productsForRule pk => trivial
  | promotionTask promotion =>
    intro hpromotion
    rw [runUpdate_promotions] at hpromotion
    rw [runUpdate_rules, runUpdate_catalogue]
    rcases h hpromotion with hsome | hnone
    · exact Or.inl hsome
    · by_cases hsome : ∃ rule ∈ db.rules, rule.promotion = promotion ∧
          ∃ v ∈ filters.variants db.catalogue,
            rule.cataloguePredicate.Satisfies filters db.catalogue v
      · exact Or.inl hsome
      · refine Or.inr ?_
        have hself : updateProductsDiscountedPricesOfPromotionTask filters db promotion = db :=
          promotionTask_of_none fun rule hmem hrule v hv =>
            hsome ⟨rule, hmem, hrule, v, mem_variantsOfRule.mp hv⟩
        rw [RuleTargets.runUpdate, hself]
        exact hnone

theorem follows_of_nonempty (h : Nonempty filters db u) :
    Follows filters db u (runUpdate filters db u) where
  covered rule hmem hcovers v := by
    rw [mem_runUpdate h, ← mem_variantsOfRule]
    constructor
    · rintro (⟨rule', hmem', -, hpk, hv⟩ | ⟨-, hothers⟩)
      · rwa [Table.eq_of_pk_eq hmem hmem' hpk]
      · exact absurd rfl (hothers rule hmem hcovers)
    · exact fun hv => Or.inl ⟨rule, hmem, hcovers, rfl, hv⟩
  others r hothers := by
    rw [mem_runUpdate h]
    constructor
    · rintro (⟨rule, hmem, hcovers, hpk, -⟩ | ⟨hr, -⟩)
      · exact absurd hpk.symm (hothers rule hmem hcovers)
      · exact hr
    · exact fun hr => Or.inr ⟨hr, hothers⟩
  rules := runUpdate_rules u
  again r := by
    rw [mem_runUpdate h.runUpdate, pairs_runUpdate, mem_runUpdate h, runUpdate_rules]
    simp only [covers_runUpdate]
    tauto

/-- **One run does what is wanted exactly when** it is not a run over a promotion that has lost its
last variant. -/
theorem follows_run_iff :
    Follows filters db u (runUpdate filters db u) ↔ Nonempty filters db u := by
  refine ⟨fun h => ?_, follows_of_nonempty⟩
  cases u with
  | fetchVariants pks => trivial
  | productsForRule pk => trivial
  | promotionTask promotion =>
    intro hpromotion
    by_contra hneither
    rw [not_or] at hneither
    have hnone : ∀ rule ∈ db.rules, rule.promotion = promotion →
        ∀ v, v ∉ variantsOfRule filters db rule := fun rule hmem hrule v hv =>
      hneither.1 ⟨rule, hmem, hrule, v, mem_variantsOfRule.mp hv⟩
    refine hneither.2 fun rule hmem hrule v hrow => hnone rule hmem hrule v ?_
    -- the row is still there, so by `covered` the variant meets the predicate
    refine mem_variantsOfRule.mpr ((h.covered rule hmem ⟨hpromotion, hrule⟩ v).mp ?_)
    rw [runUpdate, promotionTask_of_none hnone]
    exact hrow

end Run

/-! ### Every history -/

/-- What is wanted of an event in a history. -/
def FollowsEvent (db : Db γ δ) : Event γ → Prop
  | .change _ => True
  | .update u => Follows filters db u (step filters db (.update u))

/-- The condition, on the state before the event. -/
def NonemptyEvent (db : Db γ δ) : Event γ → Prop
  | .change _ => True
  | .update u => Nonempty filters db u

theorem followsEvent_iff (db : Db γ δ) (e : Event γ) :
    FollowsEvent filters db e ↔ NonemptyEvent filters db e := by
  cases e with
  | change catalogue => exact Iff.rfl
  | update u => exact follows_run_iff

/-- **Rule targets follow the catalogue** at each run of a history, exactly when no run is over a
promotion whose rules have rows left and no variants. -/
theorem follows_iff (db : Db γ δ) (es : List (Event γ)) :
    EachStep (step filters) (FollowsEvent filters) db es ↔
      EachStep (step filters) (NonemptyEvent filters) db es :=
  ⟨EachStep.mono fun db e => (followsEvent_iff filters db e).mp,
    EachStep.mono fun db e => (followsEvent_iff filters db e).mpr⟩

/-- Catalogues with one variant, which is in a category or not. -/
def oneVariant : CatalogueFilters Bool Unit ℕ where
  variants _ := {1}
  handle inCategory _ _ := if inCategory then {1} else ∅
  handle_subset inCategory _ _ := by
    split
    · exact Finset.Subset.refl _
    · exact Finset.empty_subset _
  consume := id

/-- Rule 5 of promotion 3 is for the category. -/
def categoryRule : PromotionRule Unit where
  pk := 5
  promotion := 3
  cataloguePredicate := .mk none none false fun field =>
    if field = .categoryPredicate then some (some ()) else none

/-- The variant is in the category and has its row. -/
def categoryDb : Db Bool Unit where
  catalogue := true
  promotions := [3]
  rules := Table.singleton categoryRule
  ruleVariants := Table.singleton ⟨5, 1⟩

/-- The state once the variant has left the category. -/
def leftCategory : Db Bool Unit := step oneVariant categoryDb (.change false)

theorem variantsOfRule_leftCategory : variantsOfRule oneVariant leftCategory categoryRule = ∅ := by
  decide

theorem promotionTask_leftCategory :
    runUpdate oneVariant leftCategory (.promotionTask 3) = leftCategory := by
  refine promotionTask_of_none fun rule hmem _ v => ?_
  rw [List.mem_singleton.mp hmem, variantsOfRule_leftCategory]
  exact Finset.notMem_empty v

/-- The variant leaves the category, and the task of the promotion leaves its row: the rule is not
followed. -/
theorem stale_row : ¬ EachStep (step oneVariant) (FollowsEvent oneVariant) categoryDb
    [.change false, .update (.promotionTask 3)] := by
  rintro ⟨-, h, -⟩
  have hrow : (⟨5, 1⟩ : PromotionRuleVariant) ∈ leftCategory.ruleVariants.rows := by decide
  have hstored : (⟨5, 1⟩ : PromotionRuleVariant) ∈
      (runUpdate oneVariant leftCategory (.promotionTask 3)).ruleVariants := by
    rw [promotionTask_leftCategory]
    exact hrow
  have hv : 1 ∈ variantsOfRule oneVariant leftCategory categoryRule :=
    mem_variantsOfRule.mpr ((h.covered categoryRule (List.mem_singleton.mpr rfl)
      ⟨List.mem_singleton.mpr rfl, rfl⟩ 1).mp hstored)
  rw [variantsOfRule_leftCategory] at hv
  cases hv

end RuleTargets

end Aixinwu
