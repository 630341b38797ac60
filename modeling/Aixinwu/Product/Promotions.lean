import Aixinwu.Lib.Table
import Mathlib

/-!
# Promotions and discounted prices

A promotion has rules, a rule names the variants and channels it is for and what it takes off. The
price of a variant in a channel after the best promotion is stored with the listing of the variant,
`discountedPrice`, and for each rule that took something off there is a row that says how much.
`updateDiscountedPricesForPromotion` brings both up to date for some products.

The rows are written in three ways that do not go together. Those of the rules that apply now are
created, or updated if they are there; those of other rules are deleted, but only where the
discounted price of the listing has changed, and at once, while all else is written in the end.

What a rule does to a price is code of another package, `PricesPackage`. All amounts of a channel
are in its currency, so they are numbers here; a rule has a reward, since requests without one are
refused.

## Main definitions

* `Db`, `Db.change` — the tables, and what requests do to promotions and rules
* `getVariantsToPromotionsMap`, `getBestPromotionDiscount`
* `applyDiscounts` — what the discounts of a promotion leave of a price
* `Db.updateDiscountedPricesForPromotion`
-/

namespace Aixinwu

namespace Promotions

/-! ### The tables -/

/-- `RewardValueType`. -/
inductive RewardValueType where
  | fixed
  | percentage
deriving DecidableEq, Repr

/-- `Promotion`. -/
structure Promotion where
  pk : ℕ
  startDate : ℤ
  endDate : Option ℤ := none
deriving DecidableEq, Repr

instance : HasPk Promotion ℕ := ⟨Promotion.pk⟩

/-- `PromotionRule`; a reward is a non-negative decimal. -/
structure PromotionRule where
  pk : ℕ
  promotion : ℕ
  rewardValueType : RewardValueType
  rewardValue : ℚ
  nonneg : 0 ≤ rewardValue

instance : HasPk PromotionRule ℕ := ⟨PromotionRule.pk⟩

/-- `PromotionRule.variants.through`: the rule is for the variant. -/
structure PromotionRuleVariant where
  promotionrule : ℕ
  productvariant : ℕ
deriving DecidableEq, Repr

instance : HasPk PromotionRuleVariant (ℕ × ℕ) := ⟨fun r => (r.promotionrule, r.productvariant)⟩

/-- `PromotionRule.channels.through`: the rule is for the channel. -/
structure PromotionRuleChannel where
  promotionrule : ℕ
  channel : ℕ
deriving DecidableEq, Repr

instance : HasPk PromotionRuleChannel (ℕ × ℕ) := ⟨fun r => (r.promotionrule, r.channel)⟩

/-- `ProductVariant`. -/
structure ProductVariant where
  pk : ℕ
  product : ℕ
deriving DecidableEq, Repr

instance : HasPk ProductVariant ℕ := ⟨ProductVariant.pk⟩

/-- `ProductVariantChannelListing`: the prices of a variant in a channel, of which the first is a
non-negative decimal or missing. -/
structure ProductVariantChannelListing where
  pk : ℕ
  variant : ℕ
  channel : ℕ
  price : Option ℚ
  discountedPrice : Option ℚ := none
  nonneg : ∀ p ∈ price, 0 ≤ p
deriving DecidableEq

instance : HasPk ProductVariantChannelListing ℕ := ⟨ProductVariantChannelListing.pk⟩

/-- `ProductChannelListing`: one for a product and a channel. -/
structure ProductChannelListing where
  product : ℕ
  channel : ℕ
  discountedPrice : Option ℚ := none
deriving DecidableEq, Repr

instance : HasPk ProductChannelListing (ℕ × ℕ) := ⟨fun l => (l.product, l.channel)⟩

/-- `VariantChannelListingPromotionRule`: what the rule takes off the price of the listing; one row
for a listing and a rule. -/
structure VariantChannelListingPromotionRule where
  variantChannelListing : ℕ
  promotionRule : ℕ
  discountAmount : ℚ
deriving DecidableEq, Repr

instance : HasPk VariantChannelListingPromotionRule (ℕ × ℕ) :=
  ⟨fun r => (r.variantChannelListing, r.promotionRule)⟩

/-- The tables. A variant has listings only in channels in which its product has one. -/
structure Db where
  promotions : Table Promotion
  rules : Table PromotionRule
  ruleVariants : Table PromotionRuleVariant
  ruleChannels : Table PromotionRuleChannel
  variants : Table ProductVariant
  variantListings : Table ProductVariantChannelListing
  productListings : Table ProductChannelListing
  listingRules : Table VariantChannelListingPromotionRule
  listed : ∀ l ∈ variantListings, ∃ v ∈ variants, v.pk = l.variant ∧
    ∃ p ∈ productListings, p.product = v.product ∧ p.channel = l.channel

/-! ### What requests do to promotions and rules -/

/-- A change of the promotions. -/
inductive Change where
  | createPromotion (promotion : Promotion)
  | updatePromotion (promotion : Promotion)
  | deletePromotion (pk : ℕ)
  | createRule (rule : PromotionRule)
  | updateRule (rule : PromotionRule)
  | deleteRule (pk : ℕ)
  | setVariants (rule : ℕ) (variants : List ℕ)
  | setChannels (rule : ℕ) (channels : List ℕ)

/-- Deleting rules deletes all rows that refer to them. -/
def Db.deleteRules (db : Db) (p : PromotionRule → Bool) : Db :=
  let kept (rule : ℕ) : Bool := (db.rules.delete p).rows.any (·.pk = rule)
  { db with
    rules := db.rules.delete p
    ruleVariants := db.ruleVariants.delete fun r => !kept r.promotionrule
    ruleChannels := db.ruleChannels.delete fun r => !kept r.promotionrule
    listingRules := db.listingRules.delete fun r => !kept r.promotionRule }

/-- One change; a request that would take a primary key twice is refused. -/
def Db.change (db : Db) : Change → Db
  | .createPromotion p => { db with promotions := (db.promotions.insert p).getD db.promotions }
  | .updatePromotion p => { db with promotions := db.promotions.save p }
  | .deletePromotion pk =>
    { db.deleteRules (·.promotion = pk) with promotions := db.promotions.delete (·.pk = pk) }
  | .createRule r => { db with rules := (db.rules.insert r).getD db.rules }
  | .updateRule r => { db with rules := db.rules.save r }
  | .deleteRule pk => db.deleteRules (·.pk = pk)
  | .setVariants rule variants =>
    { db with
      ruleVariants :=
        (db.ruleVariants.delete (·.promotionrule = rule)).insertIgnoring
          (variants.map fun v => ⟨rule, v⟩) }
  | .setChannels rule channels =>
    { db with
      ruleChannels :=
        (db.ruleChannels.delete (·.promotionrule = rule)).insertIgnoring
          (channels.map fun c => ⟨rule, c⟩) }

/-! ### The discounts of a promotion -/

/-- The functions of the package that computes with money: a price after a discount. -/
structure PricesPackage where
  fixedDiscount : (base discount : ℚ) → ℚ
  percentageDiscount : (base percentage : ℚ) → ℚ

/-- What the package says of them: a discount does not make anything dearer. -/
structure PricesPackage.Reduces (prices : PricesPackage) : Prop where
  fixed : ∀ base discount, 0 ≤ base → 0 ≤ discount → prices.fixedDiscount base discount ≤ base
  percentage : ∀ base percentage, 0 ≤ base → 0 ≤ percentage →
    prices.percentageDiscount base percentage ≤ base

/-- `Promotion.objects.active`. -/
def Promotion.isActive (now : ℤ) (p : Promotion) : Bool :=
  (match p.endDate with
    | none => true
    | some e => decide (now ≤ e)) && decide (p.startDate ≤ now)

/-- `PromotionRuleInfo`. -/
structure PromotionRuleInfo where
  rule : PromotionRule
  channelIds : List ℕ

/-- `_get_rule_to_channel_ids_map`. -/
def getRuleToChannelIdsMap (db : Db) (rule : ℕ) : List ℕ :=
  (db.ruleChannels.rows.filter (·.promotionrule = rule)).map (·.channel)

/-- `rules_in_bulk.get`: a rule of an active promotion. -/
def activeRule (db : Db) (now : ℤ) (rule : ℕ) : Option PromotionRule :=
  (db.rules.find? rule).filter fun r =>
    db.promotions.rows.any fun p => p.isActive now && p.pk = r.promotion

/-- The rules for a variant, in the order of the rows that name it. -/
def rulesInfo (db : Db) (now : ℤ) (variant : ℕ) : List PromotionRuleInfo :=
  (db.ruleVariants.rows.filter (·.productvariant = variant)).filterMap fun r =>
    (activeRule db now r.promotionrule).map fun rule =>
      ⟨rule, getRuleToChannelIdsMap db r.promotionrule⟩

/-- `get_variants_to_promotions_map`: the rules for a variant by promotion, a promotion where its
first rule stands. -/
def getVariantsToPromotionsMap (db : Db) (now : ℤ) (variant : ℕ) :
    List (ℕ × List PromotionRuleInfo) :=
  let infos := rulesInfo db now variant
  (infos.map (·.rule.promotion)).eraseDups.map fun p =>
    (p, infos.filter (·.rule.promotion = p))

variable (prices : PricesPackage)

/-- `PromotionRule.get_discount`. -/
def PromotionRule.getDiscount (r : PromotionRule) : ℚ → ℚ :=
  match r.rewardValueType with
  | .fixed => fun price => prices.fixedDiscount price r.rewardValue
  | .percentage => fun price => prices.percentageDiscount price r.rewardValue

/-- `get_product_discount_on_promotion`, `none` for `NotApplicable`. -/
def getProductDiscountOnPromotion (info : PromotionRuleInfo) (channel : ℕ) :
    Option (ℕ × (ℚ → ℚ)) :=
  if channel ∈ info.channelIds then some (info.rule.pk, info.rule.getDiscount prices) else none

/-- `get_product_promotion_discounts`. -/
def getProductPromotionDiscounts (rulesInfo : List PromotionRuleInfo) (channel : ℕ) :
    List (ℕ × (ℚ → ℚ)) :=
  rulesInfo.filterMap fun info => getProductDiscountOnPromotion prices info channel

/-- What the rules take off the price, each alone. -/
def savings (price : ℚ) (channel : ℕ) (rulesInfo : List PromotionRuleInfo) : List (ℕ × ℚ) :=
  (getProductPromotionDiscounts prices rulesInfo channel).map fun d => (d.1, price - d.2 price)

/-- The sum that promotions are compared by. -/
def totalDiscount (applied : List (ℕ × ℚ)) : ℚ := (applied.map (·.2)).sum

/-- `get_best_promotion_discount`: of several that take off most the first. -/
def getBestPromotionDiscount (price : ℚ) (rulesInfo : List (ℕ × List PromotionRuleInfo))
    (channel : ℕ) : List (ℕ × ℚ) :=
  ((rulesInfo.map fun p => savings prices price channel p.2).argmax totalDiscount).getD []

/-- `calculate_discounted_price_for_promotions`. -/
def calculateDiscountedPriceForPromotions (price : ℚ)
    (rulesInfo : ℕ → List (ℕ × List PromotionRuleInfo)) (channel variant : ℕ) : List (ℕ × ℚ) :=
  match rulesInfo variant with
  | [] => []
  | infos => getBestPromotionDiscount prices price infos channel

/-! ### The update -/

/-- The loop over the discounts of a listing: what each rule takes off, at most what is left, until
nothing is left; and the price that is left. -/
def applyDiscounts : ℚ → List (ℕ × ℚ) → List (ℕ × ℚ) × ℚ
  | price, [] => ([], price)
  | price, (rule, discount) :: rest =>
    let (discount, left) := if price < discount then (price, 0) else (discount, price - discount)
    if left = 0 then ([(rule, discount)], left)
    else
      let (applied, left) := applyDiscounts left rest
      ((rule, discount) :: applied, left)

/-- The listings with a price, and their price. -/
abbrev Priced := ProductVariantChannelListing × ℚ

/-- `_get_product_to_variant_channel_listings_per_channel_map`: the listings with a price of the
variants of a product, in a channel. -/
def variantListingsOf (db : Db) (product channel : ℕ) : List Priced :=
  (db.variantListings.rows.filter fun l =>
      l.channel = channel && db.variants.rows.any fun v => v.pk = l.variant && v.product = product)
    |>.filterMap fun l => l.price.map fun p => (l, p)

/-- What the loops collect to write in the end, and the table they delete from on the way. -/
structure Collected where
  productListings : List ProductChannelListing := []
  variantListings : List ProductVariantChannelListing := []
  toCreate : List VariantChannelListingPromotionRule := []
  toUpdate : List VariantChannelListingPromotionRule := []
  listingRules : Table VariantChannelListingPromotionRule

/-- `_handle_discount_rule_id`; `stored` are the rows of before the loops. -/
def handleDiscountRuleId (stored : Table VariantChannelListingPromotionRule) (listing : ℕ)
    (c : Collected) (d : ℕ × ℚ) : Collected :=
  match stored.find? (listing, d.1) with
  | some row => { c with toUpdate := c.toUpdate ++ [{ row with discountAmount := d.2 }] }
  | none => { c with toCreate := c.toCreate ++ [⟨listing, d.1, d.2⟩] }

/-- What the rules take off a listing now, and its price after that. -/
def outcome (db : Db) (now : ℤ) (channel : ℕ) (l : Priced) : List (ℕ × ℚ) × ℚ :=
  applyDiscounts l.2
    (calculateDiscountedPriceForPromotions prices l.2 (getVariantsToPromotionsMap db now) channel
      l.1.variant)

/-- The body of the loop over the variant listings of a product in a channel. -/
def updateVariantListing (db : Db) (now : ℤ) (channel : ℕ) (c : Collected) (l : Priced) :
    Collected :=
  let (applied, discounted) := outcome prices db now channel l
  let c := applied.foldl (handleDiscountRuleId db.listingRules l.1.pk) c
  if l.1.discountedPrice ≠ some discounted then
    { c with
      variantListings := c.variantListings ++ [{ l.1 with discountedPrice := some discounted }]
      listingRules := c.listingRules.delete fun r =>
        r.variantChannelListing = l.1.pk && r.promotionRule ∉ applied.map (·.1) }
  else c

/-- `_get_discounted_variants_prices_for_promotions`. -/
def getDiscountedVariantsPricesForPromotions (db : Db) (now : ℤ) (channel : ℕ)
    (variantListings : List Priced) (c : Collected) : List ℚ × Collected :=
  (variantListings.map fun l => (outcome prices db now channel l).2,
    variantListings.foldl (updateVariantListing prices db now channel) c)

/-- The body of the loop over the product listings. -/
def updateProductListing (db : Db) (now : ℤ) (c : Collected) (p : ProductChannelListing) :
    Collected :=
  let (discounted, c) := getDiscountedVariantsPricesForPromotions prices db now p.channel
    (variantListingsOf db p.product p.channel) c
  match discounted.min? with
  | none => c
  | some least =>
    if p.discountedPrice ≠ some least then
      { c with productListings := c.productListings ++ [{ p with discountedPrice := some least }] }
    else c

/-- `_create_variant_listing_promotion_rule`: rows of rules and listings that are gone are not
created, nor rows that are there already. -/
def createVariantListingPromotionRule (db : Db)
    (table : Table VariantChannelListingPromotionRule)
    (rows : List VariantChannelListingPromotionRule) : Table VariantChannelListingPromotionRule :=
  let rules := db.rules.rows.filter (·.pk ∈ rows.map (·.promotionRule))
  let listings := db.variantListings.rows.filter (·.pk ∈ rows.map (·.variantChannelListing))
  let kept :=
    if rules.length < rows.length then rows.filter (·.promotionRule ∈ rules.map (·.pk)) else rows
  let kept :=
    if listings.length < rows.length then
      kept.filter (·.variantChannelListing ∈ listings.map (·.pk))
    else kept
  table.insertIgnoring kept

/-- `_update_or_create_listings`. -/
def Db.updateOrCreateListings (db : Db) (c : Collected) : Db :=
  { db with
    productListings := db.productListings.bulkUpdate c.productListings
      (fun m r => { r with discountedPrice := m.discountedPrice }) fun _ _ => rfl
    variantListings := db.variantListings.bulkUpdate c.variantListings
      (fun m r => { r with discountedPrice := m.discountedPrice }) fun _ _ => rfl
    listingRules := (createVariantListingPromotionRule db c.listingRules c.toCreate).bulkUpdate
      c.toUpdate (fun m r => { r with discountAmount := m.discountAmount }) fun _ _ => rfl
    listed := by
      intro l hl
      have hold : (l.variant, l.channel) ∈ db.variantListings.rows.map fun l =>
          (l.variant, l.channel) := by
        rw [← Table.map_rows_bulkUpdate db.variantListings c.variantListings
          (fun m r => { r with discountedPrice := m.discountedPrice }) (fun _ _ => rfl)
          fun _ _ => rfl]
        exact List.mem_map_of_mem hl
      obtain ⟨l₀, hl₀, hsame⟩ := List.mem_map.mp hold
      obtain ⟨hvariant, hchannel⟩ := Prod.mk.inj hsame
      obtain ⟨v, hv, hvl, p, hp, hpv, hpl⟩ := db.listed l₀ hl₀
      have hnew : pk p ∈ db.productListings.rows.map pk := List.mem_map_of_mem hp
      rw [← Table.pks_bulkUpdate db.productListings c.productListings
        (fun m r => { r with discountedPrice := m.discountedPrice }) fun _ _ => rfl] at hnew
      obtain ⟨p', hp', hpk⟩ := List.mem_map.mp hnew
      obtain ⟨hproduct, hchannel'⟩ := Prod.mk.inj hpk
      exact ⟨v, hv, hvl.trans hvariant, p', hp', hproduct.trans hpv,
        hchannel'.trans (hpl.trans hchannel)⟩ }

/-- The loop of `update_discounted_prices_for_promotion` over the listings of some products. -/
def Db.collect (db : Db) (now : ℤ) (products : List ℕ) : Collected :=
  (db.productListings.rows.filter (·.product ∈ products)).foldl
    (updateProductListing prices db now) { listingRules := db.listingRules }

/-- `update_discounted_prices_for_promotion`. -/
def Db.updateDiscountedPricesForPromotion (db : Db) (now : ℤ) (products : List ℕ) : Db :=
  db.updateOrCreateListings (db.collect prices now products)

end Promotions

end Aixinwu
