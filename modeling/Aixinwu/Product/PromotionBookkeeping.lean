import Aixinwu.Lib.Decimals
import Aixinwu.Product.PriceUpdate
import Mathlib.Order.Bounds.Basic

/-!
# The books of promotions

What the rows of a listing should say after an update is that one promotion was chosen, what its
rules took off, and that this makes up the difference between the price and the discounted price.

The rules that apply now get their rows whatever was there before, so the rest is a matter of the
rows of other rules. They go where the discounted price has changed. Where it has not, they stay:
the books are right then only if these rows are of the chosen promotion as well and add up to
nothing, as `exact_update_iff` says. One promotion that ends when another with the same saving
starts is enough for the saving to be booked twice.

## Main definitions

* `Exact` — what is wanted of the books
* `Settled` — the rows that stay do no harm

## Main results

* `exact_update_iff` — one update
* `exact_iff_settled` — every update of a run
-/

namespace Aixinwu

namespace Promotions

open Runs

/-- The rows of a listing. -/
def rowsOf (db : Db) (l : ProductVariantChannelListing) : List VariantChannelListingPromotionRule :=
  db.listingRules.rows.filter (·.variantChannelListing = l.pk)

/-- The row is of a rule of the promotion. -/
def OfPromotion (db : Db) (r : VariantChannelListingPromotionRule) (promotion : ℕ) : Prop :=
  ∃ rule ∈ db.rules, rule.pk = r.promotionRule ∧ rule.promotion = promotion

/-- The discounted prices of the variants of a product in a channel. -/
def discountedPrices (db : Db) (product channel : ℕ) : Set ℚ :=
  {d | ∃ l ∈ db.variantListings, l.price.isSome ∧ l.channel = channel ∧
    (∃ v ∈ db.variants, v.pk = l.variant ∧ v.product = product) ∧ l.discountedPrice = some d}

/-- What is wanted of the listings of some products: the discounted price of a variant is between
nothing and its price; its rows are of the promotion that takes off most, and make up the difference
of the prices; and the discounted price of a product is the least of its variants. -/
structure Exact (prices : PricesPackage) (db : Db) (now : ℤ) (products : List ℕ) : Prop where
  price : ∀ l price, Updated db products l price →
    ∃ d, l.discountedPrice = some d ∧ 0 ≤ d ∧ d ≤ price
  rules : ∀ l price, Updated db products l price → ∀ r ∈ rowsOf db l,
    ∃ p ∈ chosen prices db now l price, OfPromotion db r p
  amounts : ∀ l price, Updated db products l price → ∀ d ∈ l.discountedPrice,
    ((rowsOf db l).map (·.discountAmount)).sum = price - d
  product : ∀ p ∈ db.productListings, p.product ∈ products →
    (discountedPrices db p.product p.channel).Nonempty →
      ∃ d, p.discountedPrice = some d ∧ IsLeast (discountedPrices db p.product p.channel) d

/-- The rows of the listing whose rules the discounts of the chosen promotion do not come to. -/
def unreached (prices : PricesPackage) (db : Db) (now : ℤ) (l : ProductVariantChannelListing)
    (price : ℚ) : List VariantChannelListingPromotionRule :=
  (rowsOf db l).filter fun r => ¬ Reached price (discountsOf prices db now l price) r.promotionRule

/-- Where the discounted price of a listing is already the price less the discounts of the promotion
that takes off most, or nothing if they come to more, the rows of rules that they do not come to are
of this promotion, and add up to nothing. -/
def Settled (prices : PricesPackage) (db : Db) (now : ℤ) (products : List ℕ) : Prop :=
  ∀ l price, Updated db products l price →
    l.discountedPrice = some (max (price - totalDiscount (discountsOf prices db now l price)) 0) →
      (∀ r ∈ unreached prices db now l price,
        ∃ p ∈ chosen prices db now l price, OfPromotion db r p) ∧
      ((unreached prices db now l price).map (·.discountAmount)).sum = 0

instance (db : Db) (r : VariantChannelListingPromotionRule) (promotion : ℕ) :
    Decidable (OfPromotion db r promotion) :=
  inferInstanceAs (Decidable (∃ rule ∈ db.rules.rows, _))

instance (db : Db) (products : List ℕ) (l : ProductVariantChannelListing) (price : ℚ) :
    Decidable (Updated db products l price) :=
  inferInstanceAs (Decidable (l ∈ db.variantListings.rows ∧ _ ∧ ∃ v ∈ db.variants.rows, _))

theorem settled_iff (prices : PricesPackage) (db : Db) (now : ℤ) (products : List ℕ) :
    Settled prices db now products ↔ ∀ l ∈ db.variantListings.rows, ∀ price ∈ l.price,
      Updated db products l price →
        l.discountedPrice = some (max (price - totalDiscount (discountsOf prices db now l price)) 0) →
          (∀ r ∈ unreached prices db now l price,
            ∃ p ∈ chosen prices db now l price, OfPromotion db r p) ∧
          ((unreached prices db now l price).map (·.discountAmount)).sum = 0 :=
  ⟨fun h l _ price _ => h l price, fun h l price hl => h l hl.1 price hl.2.1 hl⟩

instance (prices : PricesPackage) (db : Db) (now : ℤ) (products : List ℕ) :
    Decidable (Settled prices db now products) :=
  decidable_of_iff' _ (settled_iff prices db now products)

/-! ### One update -/

section Update

variable {prices : PricesPackage} {db : Db} {now : ℤ} {products : List ℕ}

theorem Updated.price_nonneg {l : ProductVariantChannelListing} {price : ℚ}
    (h : Updated db products l price) : 0 ≤ price :=
  l.nonneg price h.2.1

/-- The price that is left. -/
theorem outcome_snd (hprices : prices.Reduces) {l : ProductVariantChannelListing} {price : ℚ}
    (h : Updated db products l price) :
    (outcome prices db now l.channel (l, price)).2
      = max (price - totalDiscount (discountsOf prices db now l price)) 0 := by
  rw [outcome_eq]
  exact applyDiscounts_snd h.price_nonneg fun d hd => discountsOf_nonneg hprices h.price_nonneg hd

theorem outcome_snd_mem (hprices : prices.Reduces) {l : ProductVariantChannelListing} {price : ℚ}
    (h : Updated db products l price) :
    0 ≤ (outcome prices db now l.channel (l, price)).2 ∧
      (outcome prices db now l.channel (l, price)).2 ≤ price := by
  have htotal : 0 ≤ totalDiscount (discountsOf prices db now l price) :=
    totalDiscount_nonneg fun d hd => discountsOf_nonneg hprices h.price_nonneg hd
  rw [outcome_snd hprices h]
  exact ⟨le_max_right _ _, max_le (by linarith) h.price_nonneg⟩

/-- The rows that are not reached are those that are not written. -/
theorem unreached_eq (hprices : prices.Reduces) {l : ProductVariantChannelListing} {price : ℚ}
    (h : Updated db products l price) :
    unreached prices db now l price = (rowsOf db l).filter fun r =>
      r.promotionRule ∉ (outcome prices db now l.channel (l, price)).1.map (·.1) := by
  refine List.filter_congr fun r _ => ?_
  rw [outcome_eq, decide_eq_decide, not_iff_not]
  exact (mem_applyDiscounts (fun d hd => discountsOf_nonneg hprices h.price_nonneg hd) _).symm

/-- **The rows of a listing after an update**: one for each discount, and the rows that are not
reached if the discounted price stays. -/
theorem perm_rowsOf_update (hprices : prices.Reduces) {l : ProductVariantChannelListing} {price : ℚ}
    (h : Updated db products l price) :
    List.Perm (rowsOf (db.updateDiscountedPricesForPromotion prices now products) l)
      ((outcome prices db now l.channel (l, price)).1.map (fun d => ⟨l.pk, d.1, d.2⟩) ++
        if l.discountedPrice = some (outcome prices db now l.channel (l, price)).2 then
          unreached prices db now l price
        else []) := by
  have hnodup : ∀ db : Db, (rowsOf db l).Nodup := fun db => db.listingRules.nodup.of_map.filter _
  have hwritten : ((outcome prices db now l.channel (l, price)).1.map fun d =>
      (⟨l.pk, d.1, d.2⟩ : VariantChannelListingPromotionRule)).Nodup := by
    refine List.Nodup.of_map (·.promotionRule) ?_
    rw [List.map_map]
    exact nodup_outcome l price
  have hmem : ∀ r, r ∈ (outcome prices db now l.channel (l, price)).1.map (fun d =>
      (⟨l.pk, d.1, d.2⟩ : VariantChannelListingPromotionRule)) ↔
        Says (outcome prices db now l.channel (l, price)).1 l r := by
    intro r
    constructor
    · intro hr
      obtain ⟨d, hd, rfl⟩ := List.mem_map.mp hr
      exact ⟨rfl, hd⟩
    · rintro ⟨hl, hd⟩
      refine List.mem_map.mpr ⟨_, hd, ?_⟩
      rw [← hl]
  refine (List.perm_ext_iff_of_nodup (hnodup _) ?_).mpr fun r => ?_
  · refine List.nodup_append.mpr ⟨hwritten, ?_, ?_⟩
    · split
      · exact (hnodup db).filter _
      · exact List.nodup_nil
    · rintro r hr _ hs rfl
      have hrule : r.promotionRule ∈ (outcome prices db now l.channel (l, price)).1.map (·.1) :=
        List.mem_map_of_mem ((hmem r).mp hr).2
      split at hs
      · rw [unreached_eq hprices h, List.mem_filter, decide_eq_true_eq] at hs
        exact hs.2 hrule
      · cases hs
  · rw [List.mem_append, hmem, rowsOf, List.mem_filter, decide_eq_true_eq]
    constructor
    · rintro ⟨hr, hl⟩
      refine ((mem_listingRules_of_updated h hl).mp hr).imp_right ?_
      rintro ⟨hold, hrule, hsame⟩
      rw [if_pos (not_not.mp hsame), unreached_eq hprices h, List.mem_filter, decide_eq_true_eq]
      exact ⟨List.mem_filter.mpr ⟨hold, decide_eq_true hl⟩, hrule⟩
    · rintro (hsaid | hr)
      · exact ⟨(mem_listingRules_of_updated h hsaid.1).mpr (Or.inl hsaid), hsaid.1⟩
      · split at hr
        · rename_i hsame
          rw [unreached_eq hprices h, List.mem_filter, decide_eq_true_eq] at hr
          obtain ⟨hold, hl⟩ := List.mem_filter.mp hr.1
          have hl : r.variantChannelListing = l.pk := of_decide_eq_true hl
          exact ⟨(mem_listingRules_of_updated h hl).mpr
            (Or.inr ⟨hold, hr.2, not_not.mpr hsame⟩), hl⟩
        · cases hr

theorem sum_rowsOf_update (hprices : prices.Reduces) {l : ProductVariantChannelListing} {price : ℚ}
    (h : Updated db products l price) :
    ((rowsOf (db.updateDiscountedPricesForPromotion prices now products) l).map
        (·.discountAmount)).sum
      = price - (outcome prices db now l.channel (l, price)).2 +
        if l.discountedPrice = some (outcome prices db now l.channel (l, price)).2 then
          ((unreached prices db now l price).map (·.discountAmount)).sum
        else 0 := by
  have hsum : totalDiscount (outcome prices db now l.channel (l, price)).1
      + (outcome prices db now l.channel (l, price)).2 = price :=
    totalDiscount_applyDiscounts _ _
  have hwritten : ((outcome prices db now l.channel (l, price)).1.map fun d =>
      (⟨l.pk, d.1, d.2⟩ : VariantChannelListingPromotionRule)).map (·.discountAmount)
      = (outcome prices db now l.channel (l, price)).1.map (·.2) := by
    rw [List.map_map]
    rfl
  rw [((perm_rowsOf_update hprices h).map _).sum_eq, List.map_append, List.sum_append, hwritten,
    ← totalDiscount, eq_sub_of_add_eq hsum]
  split <;> rfl

/-- The discounted prices of the variants of a product after an update. -/
theorem mem_discountedPrices_update {product channel : ℕ} (hproduct : product ∈ products) {d : ℚ} :
    d ∈ discountedPrices (db.updateDiscountedPricesForPromotion prices now products) product channel
      ↔ d ∈ (variantListingsOf db product channel).map fun l =>
          (outcome prices db now channel l).2 := by
  constructor
  · rintro ⟨x, hx, hprice, hchannel, ⟨v, hv, hvx, hvp⟩, hd⟩
    obtain ⟨price, hprice⟩ := Option.isSome_iff_exists.mp hprice
    obtain ⟨l, hl, rfl⟩ := updated_update.mp ⟨hx, hprice, v, hv, hvx, hvp ▸ hproduct⟩
    refine List.mem_map.mpr ⟨(l, price),
      mem_variantListingsOf.mpr ⟨hl.1, hprice, hchannel, v, hv, hvx, hvp⟩, ?_⟩
    rw [← hchannel]
    exact Option.some.inj hd
  · intro hd
    obtain ⟨l, hl, rfl⟩ := List.mem_map.mp hd
    obtain ⟨hmem, hprice, rfl, v, hv, hvl, rfl⟩ := mem_variantListingsOf.mp hl
    have hupdated : Updated db products l.1 l.2 := ⟨hmem, hprice, v, hv, hvl, hproduct⟩
    exact ⟨_, (hupdated.update prices now).1, by rw [hprice]; rfl, rfl,
      ⟨v, hv, hvl, rfl⟩, rfl⟩

/-- **The books after one update** are exact just when the rows that stay do no harm. -/
theorem exact_update_iff (hprices : prices.Reduces) :
    Exact prices (db.updateDiscountedPricesForPromotion prices now products) now products ↔
      Settled prices db now products := by
  constructor
  · intro hexact l price h hsame
    rw [← outcome_snd hprices h] at hsame
    have hafter := h.update prices now
    refine ⟨fun r hr => ?_, ?_⟩
    · -- a row that is not reached is still there
      refine hexact.rules _ price hafter r ?_
      refine (perm_rowsOf_update hprices h).mem_iff.mpr (List.mem_append_right _ ?_)
      rw [if_pos hsame]
      exact hr
    · have hamounts := hexact.amounts _ price hafter _ rfl
      have hsum := @sum_rowsOf_update prices db now products hprices l price h
      rw [if_pos hsame] at hsum
      linarith [hsum.symm.trans hamounts]
  · intro hsettled
    refine ⟨fun x price hx => ?_, fun x price hx r hr => ?_, fun x price hx d hd => ?_,
      fun p hp hproduct hsome => ?_⟩
    · obtain ⟨l, h, rfl⟩ := updated_update.mp hx
      exact ⟨_, rfl, outcome_snd_mem hprices h⟩
    · obtain ⟨l, h, rfl⟩ := updated_update.mp hx
      rcases List.mem_append.mp ((perm_rowsOf_update hprices h).mem_iff.mp hr) with hr | hr
      · obtain ⟨d, hd, rfl⟩ := List.mem_map.mp hr
        exact rule_of_mem_outcome (List.mem_map_of_mem hd)
      · split at hr
        · rename_i hsame
          rw [outcome_snd hprices h] at hsame
          exact (hsettled l price h hsame).1 r hr
        · cases hr
    · obtain ⟨l, h, rfl⟩ := updated_update.mp hx
      have hsum := @sum_rowsOf_update prices db now products hprices l price h
      have hd : (outcome prices db now l.channel (l, price)).2 = d := Option.some.inj hd
      rw [← hd]
      refine hsum.trans ?_
      split
      · rename_i hsame
        rw [outcome_snd hprices h] at hsame
        rw [(hsettled l price h hsame).2, add_zero]
      · rw [add_zero]
    · -- some variant is listed, so there is a least price
      obtain ⟨d, hd⟩ := hsome
      have hd := (mem_discountedPrices_update hproduct).mp hd
      obtain ⟨least, hleast⟩ := Option.isSome_iff_exists.mp (List.isSome_min?_of_mem hd)
      refine ⟨least, discountedPrice_of_mem_update hp hproduct hleast, ?_⟩
      obtain ⟨hmem, hle⟩ := List.min?_eq_some_iff.mp hleast
      exact ⟨(mem_discountedPrices_update hproduct).mpr hmem, fun d hd =>
        hle d ((mem_discountedPrices_update hproduct).mp hd)⟩

end Update

/-! ### Runs -/

/-- Changes of the promotions, and the update after them, at some time and for some products. -/
structure Request where
  changes : List Change
  now : ℤ
  products : List ℕ

/-- The tables after the changes, before the update. -/
def changed (db : Db) (r : Request) : Db := r.changes.foldl Db.change db

variable (prices : PricesPackage)

/-- The changes and the update. -/
def step (db : Db) (r : Request) : Db :=
  (changed db r).updateDiscountedPricesForPromotion prices r.now r.products

/-- **The books are exact after every update of a run** just when no update leaves rows that do
harm. -/
theorem exact_iff_settled (hprices : prices.Reduces) (db : Db) (rs : List Request) :
    EachStep (step prices) (fun db r => Exact prices (step prices db r) r.now r.products) db rs ↔
      EachStep (step prices) (fun db r => Settled prices (changed db r) r.now r.products) db rs :=
  ⟨EachStep.mono fun _ _ => (exact_update_iff hprices).mp,
    EachStep.mono fun _ _ => (exact_update_iff hprices).mpr⟩

/-- Discounts down to nothing, percentages rounded to two places. -/
def cents : PricesPackage where
  fixedDiscount base discount := max (base - discount) 0
  percentageDiscount base percentage :=
    max (base - Decimals.roundHalfAway (base * percentage) / 100) 0

theorem cents_reduces : cents.Reduces where
  fixed base discount hbase hdiscount := max_le (sub_le_self base hdiscount) hbase
  percentage base percentage hbase hpercentage := by
    have hround : 0 ≤ Decimals.roundHalfAway (base * percentage) :=
      Decimals.roundHalfAway_nonneg (mul_nonneg hbase hpercentage)
    have hdiscount : (0 : ℚ) ≤ Decimals.roundHalfAway (base * percentage) / 100 :=
      div_nonneg (Int.cast_nonneg hround) (by norm_num)
    exact max_le (sub_le_self base hdiscount) hbase

/-- One variant of one product, in one channel, for 10. -/
def shop : Db where
  promotions := Table.empty
  rules := Table.empty
  ruleVariants := Table.empty
  ruleChannels := Table.empty
  variants := Table.singleton ⟨1, 1⟩
  variantListings := Table.singleton
    { pk := 1, variant := 1, channel := 1, price := some 10, nonneg := by simp }
  productListings := Table.singleton { product := 1, channel := 1 }
  listingRules := Table.empty
  listed := by
    intro l hl
    rw [List.mem_singleton.mp hl]
    exact ⟨⟨1, 1⟩, List.mem_singleton_self _, rfl, { product := 1, channel := 1 },
      List.mem_singleton_self _, rfl, rfl⟩

/-- A promotion with one rule for the variant. -/
def promotionWithRule (pk : ℕ) (startDate : ℤ) (endDate : Option ℤ) (type : RewardValueType)
    (value : ℕ) : List Change :=
  [.createPromotion ⟨pk, startDate, endDate⟩, .createRule ⟨pk, pk, type, value, value.cast_nonneg⟩,
    .setVariants pk [1], .setChannels pk [1]]

/-- A second promotion takes off more than the first. -/
theorem exact_betterPromotion :
    EachStep (step cents) (fun db r => Exact cents (step cents db r) r.now r.products) shop
      [⟨promotionWithRule 1 0 none .percentage 20, 1, [1]⟩,
        ⟨promotionWithRule 2 2 none .fixed 3, 3, [1]⟩] :=
  (exact_iff_settled cents cents_reduces shop _).mpr
    ⟨by decide +kernel, by decide +kernel, trivial⟩

/-- **A promotion ends and another with the same saving has started**: the row of the first stays,
and the saving is booked twice. -/
theorem not_exact_sameSaving :
    cents.Reduces ∧
      ¬ EachStep (step cents) (fun db r => Exact cents (step cents db r) r.now r.products) shop
        [⟨promotionWithRule 1 0 (some 5) .fixed 2, 1, [1]⟩,
          ⟨promotionWithRule 2 6 none .fixed 2, 7, [1]⟩] := by
  refine ⟨cents_reduces, fun h => ?_⟩
  have hsettled := (exact_update_iff cents_reduces).mp h.2.1
  revert hsettled
  decide +kernel

end Promotions

end Aixinwu
