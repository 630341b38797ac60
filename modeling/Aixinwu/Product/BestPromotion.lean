import Aixinwu.Product.Promotions
import Mathlib.Algebra.Order.BigOperators.Group.List
import Mathlib.Tactic.Linarith

/-!
# The best promotion

The loop over the discounts of a listing stops where nothing is left of the price. What is left then
is the price less all discounts, or nothing, and the rules that take something off are those the
discounts before which leave something.

The discounts are those of one promotion: of the active promotions with a rule for the variant it is
the one whose rules take off most in the channel, the first of several. They are not negative, and
no rule has two.

## Main definitions

* `Reached` — the discounts before a rule leave something of the price
* `chosen`, `discountsOf` — the promotion that takes off most, and what its rules take off

## Main results

* `totalDiscount_applyDiscounts`, `applyDiscounts_snd`, `mem_applyDiscounts`
* `calculateDiscountedPriceForPromotions_eq`
-/

namespace Aixinwu

namespace Promotions

/-! ### What the discounts leave -/

/-- The rule stands first, or what stands before it takes off less than the price. -/
def Reached (price : ℚ) (discounts : List (ℕ × ℚ)) (rule : ℕ) : Prop :=
  ∃ i, i < discounts.length ∧ (discounts.map (·.1))[i]? = some rule ∧
    (i = 0 ∨ totalDiscount (discounts.take i) < price)

instance (price : ℚ) (discounts : List (ℕ × ℚ)) (rule : ℕ) :
    Decidable (Reached price discounts rule) :=
  inferInstanceAs (Decidable (∃ i, i < discounts.length ∧ _))

@[simp] theorem totalDiscount_nil : totalDiscount [] = 0 := rfl

@[simp] theorem totalDiscount_cons (d : ℕ × ℚ) (ds : List (ℕ × ℚ)) :
    totalDiscount (d :: ds) = d.2 + totalDiscount ds := by
  simp [totalDiscount]

theorem totalDiscount_nonneg {ds : List (ℕ × ℚ)} (h : ∀ d ∈ ds, 0 ≤ d.2) : 0 ≤ totalDiscount ds := by
  refine List.sum_nonneg fun x hx => ?_
  obtain ⟨d, hd, rfl⟩ := List.mem_map.mp hx
  exact h d hd

theorem applyDiscounts_cons (price : ℚ) (d : ℕ × ℚ) (ds : List (ℕ × ℚ)) :
    applyDiscounts price (d :: ds)
      = if price ≤ d.2 then ([(d.1, price)], 0)
        else (d :: (applyDiscounts (price - d.2) ds).1, (applyDiscounts (price - d.2) ds).2) := by
  rcases lt_trichotomy price d.2 with h | h | h
  · simp [applyDiscounts, h, h.le]
  · simp [applyDiscounts, h]
  · have hleft : price - d.2 ≠ 0 := (sub_pos.mpr h).ne'
    simp [applyDiscounts, h.not_gt, h.not_ge, hleft]

/-- **What is taken off and what is left** make up the price. -/
theorem totalDiscount_applyDiscounts (price : ℚ) (ds : List (ℕ × ℚ)) :
    totalDiscount (applyDiscounts price ds).1 + (applyDiscounts price ds).2 = price := by
  induction ds generalizing price with
  | nil => simp [applyDiscounts]
  | cons d ds ih =>
    rw [applyDiscounts_cons]
    split
    · simp
    · have hrest := ih (price - d.2)
      rw [totalDiscount_cons]
      linarith

/-- What is left is the price less all discounts, or nothing. -/
theorem applyDiscounts_snd {price : ℚ} {ds : List (ℕ × ℚ)} (hprice : 0 ≤ price)
    (h : ∀ d ∈ ds, 0 ≤ d.2) : (applyDiscounts price ds).2 = max (price - totalDiscount ds) 0 := by
  induction ds generalizing price with
  | nil => simp [applyDiscounts, hprice]
  | cons d ds ih =>
    have hrest : 0 ≤ totalDiscount ds := totalDiscount_nonneg fun d hd => h d (List.mem_cons_of_mem _ hd)
    rw [applyDiscounts_cons, totalDiscount_cons]
    split
    · rename_i hle
      exact (max_eq_right (by linarith)).symm
    · rename_i hlt
      rw [sub_add_eq_sub_sub]
      exact ih (by linarith) fun d hd => h d (List.mem_cons_of_mem _ hd)

/-- Only the rules that are given take something off. -/
theorem rules_applyDiscounts (price : ℚ) (ds : List (ℕ × ℚ)) :
    List.Sublist ((applyDiscounts price ds).1.map (·.1)) (ds.map (·.1)) := by
  induction ds generalizing price with
  | nil => exact List.Sublist.slnil
  | cons d ds ih =>
    rw [applyDiscounts_cons]
    split
    · exact (List.nil_sublist _).cons_cons d.1
    · exact (ih _).cons_cons d.1

theorem reached_cons {price : ℚ} {d : ℕ × ℚ} {ds : List (ℕ × ℚ)} (h : ∀ d ∈ ds, 0 ≤ d.2)
    (rule : ℕ) :
    Reached price (d :: ds) rule ↔ rule = d.1 ∨ d.2 < price ∧ Reached (price - d.2) ds rule := by
  constructor
  · rintro ⟨i, hi, hrule, hbefore⟩
    cases i with
    | zero => exact Or.inl (Option.some.inj hrule).symm
    | succ i =>
      have hsum : d.2 + totalDiscount (ds.take i) < price := by
        simpa using hbefore.resolve_left (Nat.succ_ne_zero i)
      have htake : 0 ≤ totalDiscount (ds.take i) :=
        totalDiscount_nonneg fun d hd => h d (List.mem_of_mem_take hd)
      exact Or.inr ⟨by linarith, i, Nat.lt_of_succ_lt_succ hi, hrule, Or.inr (by linarith)⟩
  · rintro (rfl | ⟨hd, i, hi, hrule, hbefore⟩)
    · exact ⟨0, Nat.succ_pos _, rfl, Or.inl rfl⟩
    · refine ⟨i + 1, Nat.succ_lt_succ hi, hrule, Or.inr ?_⟩
      rw [List.take_succ_cons, totalDiscount_cons]
      rcases hbefore with rfl | hbefore
      · simpa using hd
      · linarith

/-- The rules that take something off are those that the loop reaches. -/
theorem mem_applyDiscounts {price : ℚ} {ds : List (ℕ × ℚ)} (h : ∀ d ∈ ds, 0 ≤ d.2) (rule : ℕ) :
    rule ∈ (applyDiscounts price ds).1.map (·.1) ↔ Reached price ds rule := by
  induction ds generalizing price with
  | nil => simp [applyDiscounts, Reached]
  | cons d ds ih =>
    have hds : ∀ d ∈ ds, 0 ≤ d.2 := fun d hd => h d (List.mem_cons_of_mem _ hd)
    rw [applyDiscounts_cons, reached_cons hds]
    split
    · rename_i hle
      simp [hle.not_gt]
    · rename_i hlt
      rw [List.map_cons, List.mem_cons, ih hds]
      simp [not_le.mp hlt]

/-! ### The chosen promotion -/

variable (prices : PricesPackage) (db : Db) (now : ℤ)

/-- The active promotions with a rule for the variant. -/
def promotionsOf (variant : ℕ) : List ℕ :=
  ((rulesInfo db now variant).map (·.rule.promotion)).eraseDups

/-- What the rules of a promotion take off the price of a listing, each alone. -/
def savingsOf (l : ProductVariantChannelListing) (price : ℚ) (promotion : ℕ) : List (ℕ × ℚ) :=
  savings prices price l.channel
    ((rulesInfo db now l.variant).filter (·.rule.promotion = promotion))

/-- The promotion that takes off most, the first of several. -/
def chosen (l : ProductVariantChannelListing) (price : ℚ) : Option ℕ :=
  (promotionsOf db now l.variant).argmax fun p => totalDiscount (savingsOf prices db now l price p)

/-- The discounts of the chosen promotion. -/
def discountsOf (l : ProductVariantChannelListing) (price : ℚ) : List (ℕ × ℚ) :=
  ((chosen prices db now l price).map (savingsOf prices db now l price)).getD []

theorem argmax_map {α β γ : Type*} [LinearOrder γ] (f : β → γ) (g : α → β) (l : List α) :
    (l.map g).argmax f = (l.argmax fun a => f (g a)).map g := by
  induction l using List.reverseRecOn with
  | nil => rfl
  | append_singleton l a ih =>
    rw [List.map_append, List.map_singleton, List.argmax_concat, List.argmax_concat, ih]
    cases l.argmax fun a => f (g a) with
    | none => rfl
    | some b =>
      simp only [Option.map_some]
      split <;> rfl

/-- **The code chooses the promotion that takes off most.** -/
theorem calculateDiscountedPriceForPromotions_eq (l : ProductVariantChannelListing) (price : ℚ) :
    calculateDiscountedPriceForPromotions prices price (getVariantsToPromotionsMap db now) l.channel
      l.variant = discountsOf prices db now l price := by
  have hmap : getVariantsToPromotionsMap db now l.variant
      = (promotionsOf db now l.variant).map fun p =>
          (p, (rulesInfo db now l.variant).filter (·.rule.promotion = p)) := rfl
  have hbest : getBestPromotionDiscount prices price (getVariantsToPromotionsMap db now l.variant)
      l.channel = discountsOf prices db now l price := by
    rw [getBestPromotionDiscount, hmap, List.map_map, argmax_map]
    rfl
  rw [calculateDiscountedPriceForPromotions.eq_def]
  split
  · rename_i hnil
    rw [hnil] at hbest
    exact hbest
  · exact hbest

/-- What the rules take off a listing now, and what is left of its price. -/
theorem outcome_eq (l : ProductVariantChannelListing) (price : ℚ) :
    outcome prices db now l.channel (l, price)
      = applyDiscounts price (discountsOf prices db now l price) := by
  rw [outcome, calculateDiscountedPriceForPromotions_eq]

variable {prices db now}

theorem mem_savings {price : ℚ} {channel : ℕ} {infos : List PromotionRuleInfo} {d : ℕ × ℚ} :
    d ∈ savings prices price channel infos ↔
      ∃ i ∈ infos, channel ∈ i.channelIds ∧
        d = (i.rule.pk, price - i.rule.getDiscount prices price) := by
  simp only [savings, getProductPromotionDiscounts, getProductDiscountOnPromotion, List.mem_map,
    List.mem_filterMap, Option.ite_none_right_eq_some, Option.some.injEq]
  constructor
  · rintro ⟨e, ⟨i, hi, hchannel, rfl⟩, rfl⟩
    exact ⟨i, hi, hchannel, rfl⟩
  · rintro ⟨i, hi, hchannel, rfl⟩
    exact ⟨_, ⟨i, hi, hchannel, rfl⟩, rfl⟩

theorem activeRule_eq_some {rule : ℕ} {r : PromotionRule} (h : activeRule db now rule = some r) :
    r ∈ db.rules ∧ r.pk = rule := by
  rw [activeRule, Option.filter_eq_some_iff] at h
  exact Table.find?_eq_some.mp h.1

theorem rule_of_mem_rulesInfo {variant : ℕ} {i : PromotionRuleInfo}
    (h : i ∈ rulesInfo db now variant) : i.rule ∈ db.rules := by
  obtain ⟨r, -, hr⟩ := List.mem_filterMap.mp h
  obtain ⟨rule, hrule, rfl⟩ := Option.map_eq_some_iff.mp hr
  exact (activeRule_eq_some hrule).1

/-- A variant has a rule at most once. -/
theorem nodup_rulesInfo (variant : ℕ) :
    ((rulesInfo db now variant).map (·.rule.pk)).Nodup := by
  have hrows : ((db.ruleVariants.rows.filter (·.productvariant = variant)).map
      (·.promotionrule)).Nodup := by
    refine List.Nodup.of_map (fun rule => (rule, variant)) ?_
    rw [List.map_map]
    have hpks : (db.ruleVariants.rows.filter (·.productvariant = variant)).map
        ((fun rule => (rule, variant)) ∘ (·.promotionrule))
        = (db.ruleVariants.rows.filter (·.productvariant = variant)).map pk := by
      refine List.map_congr_left fun r hr => ?_
      have hvariant : r.productvariant = variant := by simpa using (List.mem_filter.mp hr).2
      show (r.promotionrule, variant) = (r.promotionrule, r.productvariant)
      rw [hvariant]
    rw [hpks]
    exact (List.filter_sublist.map pk).nodup db.ruleVariants.nodup
  refine List.Sublist.nodup ?_ hrows
  rw [rulesInfo]
  -- a rule that is not active drops out, the others keep their place
  induction db.ruleVariants.rows.filter (·.productvariant = variant) with
  | nil => exact List.Sublist.slnil
  | cons r rows ih =>
    cases hr : activeRule db now r.promotionrule with
    | none =>
      rw [List.filterMap_cons_none (by rw [hr]; rfl)]
      exact ih.cons r.promotionrule
    | some rule =>
      have hpk : rule.pk = r.promotionrule := (activeRule_eq_some hr).2
      rw [List.filterMap_cons_some (by rw [hr]; rfl), List.map_cons, List.map_cons]
      show List.Sublist (rule.pk :: _) _
      rw [hpk]
      exact ih.cons_cons r.promotionrule

theorem mem_discountsOf {l : ProductVariantChannelListing} {price : ℚ} {d : ℕ × ℚ}
    (h : d ∈ discountsOf prices db now l price) :
    ∃ p ∈ chosen prices db now l price, d ∈ savingsOf prices db now l price p := by
  rw [discountsOf] at h
  cases hchosen : chosen prices db now l price with
  | none =>
    rw [hchosen] at h
    cases h
  | some p =>
    rw [hchosen] at h
    exact ⟨p, rfl, h⟩

/-- **The discounts are those of rules of the chosen promotion.** -/
theorem rule_of_mem_discountsOf {l : ProductVariantChannelListing} {price : ℚ} {d : ℕ × ℚ}
    (h : d ∈ discountsOf prices db now l price) :
    ∃ p ∈ chosen prices db now l price, ∃ r ∈ db.rules, r.pk = d.1 ∧ r.promotion = p := by
  obtain ⟨p, hp, hd⟩ := mem_discountsOf h
  obtain ⟨i, hi, -, rfl⟩ := mem_savings.mp hd
  obtain ⟨hi, hpromotion⟩ := List.mem_filter.mp hi
  exact ⟨p, hp, i.rule, rule_of_mem_rulesInfo hi, rfl, by simpa using hpromotion⟩

theorem getDiscount_le (hprices : prices.Reduces) (r : PromotionRule) {price : ℚ}
    (hprice : 0 ≤ price) : r.getDiscount prices price ≤ price := by
  cases htype : r.rewardValueType with
  | fixed =>
    rw [PromotionRule.getDiscount.eq_def, htype]
    exact hprices.fixed price r.rewardValue hprice r.nonneg
  | percentage =>
    rw [PromotionRule.getDiscount.eq_def, htype]
    exact hprices.percentage price r.rewardValue hprice r.nonneg

theorem discountsOf_nonneg (hprices : prices.Reduces) {l : ProductVariantChannelListing} {price : ℚ}
    (hprice : 0 ≤ price) {d : ℕ × ℚ} (h : d ∈ discountsOf prices db now l price) : 0 ≤ d.2 := by
  obtain ⟨p, -, hd⟩ := mem_discountsOf h
  obtain ⟨i, -, -, rfl⟩ := mem_savings.mp hd
  exact sub_nonneg.mpr (getDiscount_le hprices i.rule hprice)

theorem nodup_discountsOf (l : ProductVariantChannelListing) (price : ℚ) :
    ((discountsOf prices db now l price).map (·.1)).Nodup := by
  rw [discountsOf]
  cases chosen prices db now l price with
  | none => exact List.nodup_nil
  | some p =>
    refine List.Sublist.nodup ?_ (@nodup_rulesInfo db now l.variant)
    have hsub : List.Sublist ((savingsOf prices db now l price p).map (·.1))
        (((rulesInfo db now l.variant).filter (·.rule.promotion = p)).map (·.rule.pk)) := by
      rw [savingsOf, savings, getProductPromotionDiscounts]
      induction (rulesInfo db now l.variant).filter (·.rule.promotion = p) with
      | nil => exact List.Sublist.slnil
      | cons i infos ih =>
        rw [List.filterMap_cons]
        by_cases hchannel : l.channel ∈ i.channelIds
        · rw [getProductDiscountOnPromotion, if_pos hchannel]
          exact ih.cons_cons i.rule.pk
        · rw [getProductDiscountOnPromotion, if_neg hchannel]
          exact ih.cons i.rule.pk
    exact hsub.trans (List.filter_sublist.map _)

end Promotions

end Aixinwu
