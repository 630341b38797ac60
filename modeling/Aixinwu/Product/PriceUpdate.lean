import Aixinwu.Lib.Runs
import Aixinwu.Product.BestPromotion

/-!
# The tables after an update of prices

The loops over the listings only collect what is to be written, and delete rows on the way. What
matters of them is what they have collected in the end, and that can be said without the loops: a
row is due if it says what its rule takes off its listing now (`Due`), a listing with a price of a
variant of the products gets the price that is left, and a row is deleted only if the price of its
listing changes.

A row that is due is created where there is none in its place and updated where there is one, and
that one has not been deleted. So after an update the rows that are due are there, and of the others
those that were not deleted (`mem_listingRules_update`).

## Main definitions

* `Updated` — a listing with a price of a variant of the products
* `Due` — a row that says what its rule takes off its listing now

## Main results

* `mem_listingRules_update`, `mem_listingRules_of_updated`
* `mem_variantListings_update`, `updated_update`, `discountedPrice_of_mem_update`
-/

namespace Aixinwu

namespace Promotions

open Runs

/-! ### What the loops collect -/

variable {prices : PricesPackage} {db : Db} {now : ℤ}

/-- The rows that are written in the end: those that are updated, and those that are created. -/
def Collected.written (c : Collected) : Bool → List VariantChannelListingPromotionRule
  | true => c.toUpdate
  | false => c.toCreate

/-- The row says what the rule takes off the listing. -/
def Says (applied : List (ℕ × ℚ)) (l : ProductVariantChannelListing)
    (r : VariantChannelListingPromotionRule) : Prop :=
  r.variantChannelListing = l.pk ∧ (r.promotionRule, r.discountAmount) ∈ applied

theorem written_handleDiscountRuleId (stored : Table VariantChannelListingPromotionRule)
    (listing : ℕ) (c : Collected) (d : ℕ × ℚ) (b : Bool) (r : VariantChannelListingPromotionRule) :
    r ∈ (handleDiscountRuleId stored listing c d).written b ↔
      r ∈ c.written b ∨ (stored.find? (listing, d.1)).isSome = b ∧ r = ⟨listing, d.1, d.2⟩ := by
  rw [handleDiscountRuleId]
  split
  · rename_i row hrow
    obtain ⟨-, hpk⟩ := Table.find?_eq_some.mp hrow
    obtain ⟨hlisting, hrule⟩ := Prod.mk.inj hpk
    have hset : { row with discountAmount := d.2 }
        = (⟨listing, d.1, d.2⟩ : VariantChannelListingPromotionRule) := by
      rw [← hlisting, ← hrule]
    cases b <;> simp [Collected.written, hrow, hset]
  · rename_i hnone
    cases b <;> simp [Collected.written, hnone]

theorem handleDiscountRuleId_other (stored : Table VariantChannelListingPromotionRule)
    (listing : ℕ) (ds : List (ℕ × ℚ)) (c : Collected) :
    let c' := ds.foldl (handleDiscountRuleId stored listing) c
    c'.productListings = c.productListings ∧ c'.variantListings = c.variantListings ∧
      c'.listingRules = c.listingRules := by
  induction ds generalizing c with
  | nil => exact ⟨rfl, rfl, rfl⟩
  | cons d ds ih =>
    obtain ⟨hproducts, hvariants, hrules⟩ := ih (handleDiscountRuleId stored listing c d)
    have hone : (handleDiscountRuleId stored listing c d).productListings = c.productListings ∧
        (handleDiscountRuleId stored listing c d).variantListings = c.variantListings ∧
        (handleDiscountRuleId stored listing c d).listingRules = c.listingRules := by
      rw [handleDiscountRuleId]
      split <;> exact ⟨rfl, rfl, rfl⟩
    exact ⟨hproducts.trans hone.1, hvariants.trans hone.2.1, hrules.trans hone.2.2⟩

/-- The rows for the discounts of one listing. -/
theorem written_discounts (stored : Table VariantChannelListingPromotionRule)
    (l : ProductVariantChannelListing) (ds : List (ℕ × ℚ)) (c : Collected) (b : Bool)
    (r : VariantChannelListingPromotionRule) :
    r ∈ (ds.foldl (handleDiscountRuleId stored l.pk) c).written b ↔
      r ∈ c.written b ∨ Says ds l r ∧ (stored.find? (pk r)).isSome = b := by
  refine (run_iff_exists (P := fun c : Collected => r ∈ c.written b)
    (fun c d => written_handleDiscountRuleId stored l.pk c d b r) c ds).trans (or_congr_right ?_)
  constructor
  · rintro ⟨d, hd, hb, rfl⟩
    exact ⟨⟨rfl, hd⟩, hb⟩
  · rintro ⟨⟨hl, hd⟩, hb⟩
    refine ⟨_, hd, ?_, ?_⟩
    · rw [← hl]
      exact hb
    · rw [← hl]

/-- The discounted price of the listing changes. -/
def Changes (prices : PricesPackage) (db : Db) (now : ℤ) (channel : ℕ) (l : Priced) : Prop :=
  l.1.discountedPrice ≠ some (outcome prices db now channel l).2

theorem written_updateVariantListing (channel : ℕ) (b : Bool)
    (r : VariantChannelListingPromotionRule) (c : Collected) (l : Priced) :
    r ∈ (updateVariantListing prices db now channel c l).written b ↔
      r ∈ c.written b ∨ Says (outcome prices db now channel l).1 l.1 r ∧
        (db.listingRules.find? (pk r)).isSome = b := by
  rw [← written_discounts, updateVariantListing]
  dsimp only
  split
  · cases b <;> rfl
  · rfl

theorem listingRules_updateVariantListing (channel : ℕ) (r : VariantChannelListingPromotionRule)
    (c : Collected) (l : Priced) :
    r ∈ (updateVariantListing prices db now channel c l).listingRules ↔
      r ∈ c.listingRules ∧ (Changes prices db now channel l → r.variantChannelListing = l.1.pk →
        r.promotionRule ∈ (outcome prices db now channel l).1.map (·.1)) := by
  obtain ⟨-, -, hrules⟩ := handleDiscountRuleId_other db.listingRules l.1.pk
    (outcome prices db now channel l).1 c
  rw [updateVariantListing]
  dsimp only
  split
  · rename_i hchanges
    rw [Table.mem_delete, hrules]
    simp [Changes, hchanges]
  · rename_i hsame
    rw [hrules]
    simp [Changes, not_not.mp hsame]

theorem variantListings_updateVariantListing (channel : ℕ) (x : ProductVariantChannelListing)
    (c : Collected) (l : Priced) :
    x ∈ (updateVariantListing prices db now channel c l).variantListings ↔
      x ∈ c.variantListings ∨ Changes prices db now channel l ∧
        x = { l.1 with discountedPrice := some (outcome prices db now channel l).2 } := by
  obtain ⟨-, hvariants, -⟩ := handleDiscountRuleId_other db.listingRules l.1.pk
    (outcome prices db now channel l).1 c
  rw [updateVariantListing]
  dsimp only
  split
  · rename_i hchanges
    rw [List.mem_append, List.mem_singleton, hvariants]
    simp [Changes, hchanges]
  · rename_i hsame
    rw [hvariants]
    simp [Changes, not_not.mp hsame]

/-- The listings of a product: what the loop over its variant listings collects, and the product
listing itself if its least price changes. -/
theorem updateProductListing_eq (c : Collected) (p : ProductChannelListing) :
    ∃ ps, updateProductListing prices db now c p
        = { (variantListingsOf db p.product p.channel).foldl
              (updateVariantListing prices db now p.channel) c with
            productListings := c.productListings ++ ps } ∧
      ∀ x, x ∈ ps ↔ ∃ least,
        ((variantListingsOf db p.product p.channel).map fun l =>
          (outcome prices db now p.channel l).2).min? = some least ∧
        p.discountedPrice ≠ some least ∧ x = { p with discountedPrice := some least } := by
  have hproducts : ∀ (ls : List Priced) (c : Collected),
      (ls.foldl (updateVariantListing prices db now p.channel) c).productListings
        = c.productListings := by
    intro ls
    induction ls with
    | nil => exact fun _ => rfl
    | cons l ls ih =>
      intro c
      rw [List.foldl_cons, ih, updateVariantListing]
      dsimp only
      split <;> exact (handleDiscountRuleId_other db.listingRules l.1.pk _ c).1
  rw [updateProductListing, getDiscountedVariantsPricesForPromotions]
  dsimp only
  rw [← hproducts (variantListingsOf db p.product p.channel) c]
  split
  · rename_i hnone
    refine ⟨[], by rw [List.append_nil], fun x => ?_⟩
    simp [hnone]
  · rename_i least hleast
    by_cases hchanges : p.discountedPrice = some least
    · refine ⟨[], by rw [List.append_nil, if_neg (not_not.mpr hchanges)], fun x => ?_⟩
      simp [hleast, hchanges]
    · refine ⟨[{ p with discountedPrice := some least }], by rw [if_pos hchanges], fun x => ?_⟩
      simp [hleast, hchanges]

/-- A listing with a price of a variant of the products. -/
def Updated (db : Db) (products : List ℕ) (l : ProductVariantChannelListing) (price : ℚ) : Prop :=
  l ∈ db.variantListings ∧ l.price = some price ∧
    ∃ v ∈ db.variants, v.pk = l.variant ∧ v.product ∈ products

theorem mem_variantListingsOf {product channel : ℕ} {l : Priced} :
    l ∈ variantListingsOf db product channel ↔
      l.1 ∈ db.variantListings ∧ l.1.price = some l.2 ∧ l.1.channel = channel ∧
        ∃ v ∈ db.variants, v.pk = l.1.variant ∧ v.product = product := by
  simp only [variantListingsOf, List.mem_filterMap, List.mem_filter, Bool.and_eq_true,
    decide_eq_true_eq, List.any_eq_true, Option.map_eq_some_iff]
  constructor
  · rintro ⟨x, ⟨hx, hchannel, v, hv, hvx⟩, price, hprice, rfl⟩
    exact ⟨hx, hprice, hchannel, v, hv, hvx⟩
  · rintro ⟨hl, hprice, hchannel, v, hv, hvl⟩
    exact ⟨l.1, ⟨hl, hchannel, v, hv, hvl⟩, l.2, hprice, rfl⟩

/-- The loops come by the listings of the products, with their own channel. -/
theorem exists_variantListingsOf {products : List ℕ} {Q : ℕ → Priced → Prop} :
    (∃ p ∈ db.productListings.rows.filter (·.product ∈ products),
        ∃ l ∈ variantListingsOf db p.product p.channel, Q p.channel l) ↔
      ∃ l price, Updated db products l price ∧ Q l.channel (l, price) := by
  constructor
  · rintro ⟨p, hp, l, hl, hQ⟩
    obtain ⟨hmem, hprice, hchannel, v, hv, hvl, hproduct⟩ := mem_variantListingsOf.mp hl
    have hproducts : p.product ∈ products := by simpa using (List.mem_filter.mp hp).2
    exact ⟨l.1, l.2, ⟨hmem, hprice, v, hv, hvl, hproduct ▸ hproducts⟩, hchannel ▸ hQ⟩
  · rintro ⟨l, price, ⟨hl, hprice, v, hv, hvl, hproducts⟩, hQ⟩
    -- the product of the variant is listed in the channel
    obtain ⟨w, hw, hwl, p, hp, hpw, hpl⟩ := db.listed l hl
    have hwv : w = v := Table.eq_of_pk_eq hw hv (hwl.trans hvl.symm)
    subst hwv
    refine ⟨p, List.mem_filter.mpr ⟨hp, ?_⟩, (l, price), ?_, ?_⟩
    · rw [hpw]
      exact decide_eq_true hproducts
    · exact mem_variantListingsOf.mpr ⟨hl, hprice, hpl.symm, w, hw, hvl, hpw.symm⟩
    · rw [hpl]
      exact hQ

variable {products : List ℕ}

theorem written_collect (b : Bool) (r : VariantChannelListingPromotionRule) :
    r ∈ (db.collect prices now products).written b ↔ ∃ l price, Updated db products l price ∧
      Says (outcome prices db now l.channel (l, price)).1 l r ∧
        (db.listingRules.find? (pk r)).isSome = b := by
  have hstep : ∀ c p, r ∈ (updateProductListing prices db now c p).written b ↔ r ∈ c.written b ∨
      ∃ l ∈ variantListingsOf db p.product p.channel,
        Says (outcome prices db now p.channel l).1 l.1 r ∧
          (db.listingRules.find? (pk r)).isSome = b := by
    intro c p
    obtain ⟨ps, hps, -⟩ := @updateProductListing_eq prices db now c p
    have hsame : (updateProductListing prices db now c p).written b
        = ((variantListingsOf db p.product p.channel).foldl
            (updateVariantListing prices db now p.channel) c).written b := by
      rw [hps]
      cases b <;> rfl
    rw [hsame]
    exact run_iff_exists (P := fun c : Collected => r ∈ c.written b)
      (fun c l => written_updateVariantListing p.channel b r c l) c _
  refine (run_iff_exists (P := fun c : Collected => r ∈ c.written b) hstep _ _).trans ?_
  rw [exists_variantListingsOf (Q := fun channel l =>
    Says (outcome prices db now channel l).1 l.1 r ∧ (db.listingRules.find? (pk r)).isSome = b)]
  refine or_iff_right ?_
  cases b <;> exact List.not_mem_nil

theorem listingRules_collect (r : VariantChannelListingPromotionRule) :
    r ∈ (db.collect prices now products).listingRules ↔ r ∈ db.listingRules ∧
      ∀ l price, Updated db products l price → Changes prices db now l.channel (l, price) →
        r.variantChannelListing = l.pk →
          r.promotionRule ∈ (outcome prices db now l.channel (l, price)).1.map (·.1) := by
  have hstep : ∀ c p, r ∈ (updateProductListing prices db now c p).listingRules ↔
      r ∈ c.listingRules ∧ ∀ l ∈ variantListingsOf db p.product p.channel,
        Changes prices db now p.channel l → r.variantChannelListing = l.1.pk →
          r.promotionRule ∈ (outcome prices db now p.channel l).1.map (·.1) := by
    intro c p
    obtain ⟨ps, hps, -⟩ := @updateProductListing_eq prices db now c p
    rw [hps]
    exact run_iff_forall (P := fun c : Collected => r ∈ c.listingRules)
      (fun c l => listingRules_updateVariantListing p.channel r c l) c _
  refine (run_iff_forall (P := fun c : Collected => r ∈ c.listingRules) hstep _ _).trans
    (and_congr_right fun _ => ?_)
  have hall := not_congr (@exists_variantListingsOf db products
    (fun channel l => ¬ (Changes prices db now channel l → r.variantChannelListing = l.1.pk →
      r.promotionRule ∈ (outcome prices db now channel l).1.map (·.1))))
  simpa only [not_exists, not_and, not_not] using hall

theorem variantListings_collect (x : ProductVariantChannelListing) :
    x ∈ (db.collect prices now products).variantListings ↔ ∃ l price,
      Updated db products l price ∧ Changes prices db now l.channel (l, price) ∧
        x = { l with discountedPrice := some (outcome prices db now l.channel (l, price)).2 } := by
  have hstep : ∀ c p, x ∈ (updateProductListing prices db now c p).variantListings ↔
      x ∈ c.variantListings ∨ ∃ l ∈ variantListingsOf db p.product p.channel,
        Changes prices db now p.channel l ∧
          x = { l.1 with discountedPrice := some (outcome prices db now p.channel l).2 } := by
    intro c p
    obtain ⟨ps, hps, -⟩ := @updateProductListing_eq prices db now c p
    rw [hps]
    exact run_iff_exists (P := fun c : Collected => x ∈ c.variantListings)
      (fun c l => variantListings_updateVariantListing p.channel x c l) c _
  refine (run_iff_exists (P := fun c : Collected => x ∈ c.variantListings) hstep _ _).trans ?_
  rw [exists_variantListingsOf (Q := fun channel l => Changes prices db now channel l ∧
    x = { l.1 with discountedPrice := some (outcome prices db now channel l).2 })]
  exact or_iff_right List.not_mem_nil

theorem productListings_collect (x : ProductChannelListing) :
    x ∈ (db.collect prices now products).productListings ↔
      ∃ p ∈ db.productListings.rows.filter (·.product ∈ products), ∃ least,
        ((variantListingsOf db p.product p.channel).map fun l =>
          (outcome prices db now p.channel l).2).min? = some least ∧
        p.discountedPrice ≠ some least ∧ x = { p with discountedPrice := some least } := by
  have hstep : ∀ c p, x ∈ (updateProductListing prices db now c p).productListings ↔
      x ∈ c.productListings ∨ ∃ least,
        ((variantListingsOf db p.product p.channel).map fun l =>
          (outcome prices db now p.channel l).2).min? = some least ∧
        p.discountedPrice ≠ some least ∧ x = { p with discountedPrice := some least } := by
    intro c p
    obtain ⟨ps, hps, hmem⟩ := @updateProductListing_eq prices db now c p
    rw [hps, ← hmem]
    exact List.mem_append
  refine (run_iff_exists (P := fun c : Collected => x ∈ c.productListings) hstep _ _).trans ?_
  exact or_iff_right List.not_mem_nil

/-! ### The tables after an update -/

/-- The price of a listing is what it is. -/
theorem Updated.unique {l l' : ProductVariantChannelListing} {price price' : ℚ}
    (h : Updated db products l price) (h' : Updated db products l' price') (hpk : l.pk = l'.pk) :
    l = l' ∧ price = price' := by
  have hl : l = l' := Table.eq_of_pk_eq h.1 h'.1 hpk
  subst hl
  exact ⟨rfl, Option.some.inj (h.2.1.symm.trans h'.2.1)⟩

/-- No rule takes two amounts off a listing. -/
theorem nodup_outcome (l : ProductVariantChannelListing) (price : ℚ) :
    ((outcome prices db now l.channel (l, price)).1.map (·.1)).Nodup := by
  rw [outcome_eq]
  exact (rules_applyDiscounts _ _).nodup (nodup_discountsOf l price)

theorem rule_of_mem_outcome {l : ProductVariantChannelListing} {price : ℚ} {rule : ℕ}
    (h : rule ∈ (outcome prices db now l.channel (l, price)).1.map (·.1)) :
    ∃ p ∈ chosen prices db now l price, ∃ r ∈ db.rules, r.pk = rule ∧ r.promotion = p := by
  rw [outcome_eq] at h
  obtain ⟨d, hd, rfl⟩ := List.mem_map.mp ((rules_applyDiscounts _ _).subset h)
  exact rule_of_mem_discountsOf hd

/-- The row says what its rule takes off its listing now. -/
def Due (prices : PricesPackage) (db : Db) (now : ℤ) (products : List ℕ)
    (r : VariantChannelListingPromotionRule) : Prop :=
  ∃ l price, Updated db products l price ∧
    Says (outcome prices db now l.channel (l, price)).1 l r

theorem mem_written {b : Bool} {r : VariantChannelListingPromotionRule} :
    r ∈ (db.collect prices now products).written b ↔
      Due prices db now products r ∧ (db.listingRules.find? (pk r)).isSome = b := by
  rw [written_collect]
  constructor
  · rintro ⟨l, price, hl, hsaid, hb⟩
    exact ⟨⟨l, price, hl, hsaid⟩, hb⟩
  · rintro ⟨⟨l, price, hl, hsaid⟩, hb⟩
    exact ⟨l, price, hl, hsaid, hb⟩

theorem mem_toCreate {r : VariantChannelListingPromotionRule} :
    r ∈ (db.collect prices now products).toCreate ↔
      Due prices db now products r ∧ (db.listingRules.find? (pk r)).isSome = false :=
  mem_written (b := false)

theorem mem_toUpdate {r : VariantChannelListingPromotionRule} :
    r ∈ (db.collect prices now products).toUpdate ↔
      Due prices db now products r ∧ (db.listingRules.find? (pk r)).isSome = true :=
  mem_written (b := true)

theorem due_iff {l : ProductVariantChannelListing} {price : ℚ} (hl : Updated db products l price)
    {r : VariantChannelListingPromotionRule} (hr : r.variantChannelListing = l.pk) :
    Due prices db now products r ↔ Says (outcome prices db now l.channel (l, price)).1 l r := by
  constructor
  · rintro ⟨l', price', hl', hsaid⟩
    obtain ⟨rfl, rfl⟩ := hl.unique hl' (hr.symm.trans hsaid.1)
    exact hsaid
  · exact fun hsaid => ⟨l, price, hl, hsaid⟩

theorem Due.unique {r s : VariantChannelListingPromotionRule} (hr : Due prices db now products r)
    (hs : Due prices db now products s) (hpk : pk r = pk s) : r = s := by
  obtain ⟨l, price, hl, hlisting, hamount⟩ := hr
  obtain ⟨hlistings, hrules⟩ := Prod.mk.inj hpk
  have hsaid := (due_iff hl (hlistings.symm.trans hlisting)).mp hs
  have heq : (r.promotionRule, r.discountAmount) = (s.promotionRule, s.discountAmount) :=
    List.inj_on_of_nodup_map (nodup_outcome l price) hamount hsaid.2 hrules
  obtain ⟨-, hamounts⟩ := Prod.mk.inj heq
  cases r
  cases s
  cases hlistings
  cases hrules
  cases hamounts
  rfl

/-- All rows are created: their rules and listings are there. -/
theorem createVariantListingPromotionRule_eq (t : Table VariantChannelListingPromotionRule)
    {rows : List VariantChannelListingPromotionRule}
    (h : ∀ r ∈ rows, Due prices db now products r) :
    createVariantListingPromotionRule db t rows = t.insertIgnoring rows := by
  have hrules : ∀ r ∈ rows, r.promotionRule ∈
      (db.rules.rows.filter (·.pk ∈ rows.map (·.promotionRule))).map (·.pk) := by
    intro r hr
    obtain ⟨l, price, -, -, hamount⟩ := h r hr
    obtain ⟨p, -, rule, hrule, hpk, -⟩ := rule_of_mem_outcome (List.mem_map_of_mem hamount)
    have hmem : rule.pk ∈ rows.map (·.promotionRule) := hpk ▸ List.mem_map_of_mem hr
    exact List.mem_map.mpr ⟨rule, List.mem_filter.mpr ⟨hrule, decide_eq_true hmem⟩, hpk⟩
  have hlistings : ∀ r ∈ rows, r.variantChannelListing ∈
      (db.variantListings.rows.filter (·.pk ∈ rows.map (·.variantChannelListing))).map (·.pk) := by
    intro r hr
    obtain ⟨l, price, hl, hlisting, -⟩ := h r hr
    have hmem : l.pk ∈ rows.map (·.variantChannelListing) := hlisting ▸ List.mem_map_of_mem hr
    exact List.mem_map.mpr ⟨l, List.mem_filter.mpr ⟨hl.1, decide_eq_true hmem⟩, hlisting.symm⟩
  rw [createVariantListingPromotionRule, List.filter_eq_self.mpr fun r hr => decide_eq_true (hrules r hr), ite_self,
    List.filter_eq_self.mpr fun r hr => decide_eq_true (hlistings r hr), ite_self]

/-- **The rows after an update**: those that are due, and of the others those with no row due in
their place, unless the price of their listing has changed. -/
theorem mem_listingRules_update {r : VariantChannelListingPromotionRule} :
    r ∈ (db.updateDiscountedPricesForPromotion prices now products).listingRules ↔
      Due prices db now products r ∨
        r ∈ (db.collect prices now products).listingRules ∧
          ∀ s, Due prices db now products s → pk s ≠ pk r := by
  have hkept : ∀ r ∈ (db.collect prices now products).listingRules, r ∈ db.listingRules :=
    fun r hr => ((listingRules_collect r).mp hr).1
  have hfound : ∀ {r s : VariantChannelListingPromotionRule}, r ∈ db.listingRules → pk s = pk r →
      (db.listingRules.find? (pk s)).isSome = true := by
    intro r s hr hpk
    rw [hpk, Table.mem_iff_find?.mp hr]
    rfl
  have hcreated : ∀ r, r ∈ createVariantListingPromotionRule db
        (db.collect prices now products).listingRules (db.collect prices now products).toCreate ↔
      r ∈ (db.collect prices now products).listingRules ∨
        r ∈ (db.collect prices now products).toCreate := by
    intro r
    rw [createVariantListingPromotionRule_eq _ fun r hr => (mem_toCreate.mp hr).1]
    refine Table.mem_insertIgnoring fun r hr s hs hpk => ?_
    have hr := mem_toCreate.mp hr
    rcases hs with hs | hs
    · -- a row that is created has none in its place
      have hsome := hfound (hkept s hs) hpk.symm
      rw [hr.2] at hsome
      cases hsome
    · exact (mem_toCreate.mp hs).1.unique hr.1 hpk
  have hobjs : ∀ m ∈ (db.collect prices now products).toUpdate,
      ∀ m' ∈ (db.collect prices now products).toUpdate, pk m = pk m' → m = m' :=
    fun m hm m' hm' => (mem_toUpdate.mp hm).1.unique (mem_toUpdate.mp hm').1
  rw [Db.updateDiscountedPricesForPromotion, Db.updateOrCreateListings]
  refine (Table.mem_bulkUpdate (by exact fun _ _ => rfl) hobjs).trans ?_
  constructor
  · rintro (⟨q, -, m, hm, hpk, rfl⟩ | ⟨hr, hnone⟩)
    · -- a row that is updated says what the instance says
      have hm := mem_toUpdate.mp hm
      obtain ⟨hlisting, hrule⟩ := Prod.mk.inj hpk
      have hset : { q with discountAmount := m.discountAmount } = m := by
        rw [← hlisting, ← hrule]
      rw [hset]
      exact Or.inl hm.1
    · rcases (hcreated r).mp hr with hr | hr
      · refine Or.inr ⟨hr, fun s hs hpk => ?_⟩
        exact hnone s (mem_toUpdate.mpr ⟨hs, hfound (hkept r hr) hpk⟩) hpk
      · exact Or.inl (mem_toCreate.mp hr).1
  · rintro (hdue | ⟨hr, hnone⟩)
    · cases hold : db.listingRules.find? (pk r) with
      | none =>
        refine Or.inr ⟨(hcreated r).mpr (Or.inr (mem_toCreate.mpr ⟨hdue, by rw [hold]; rfl⟩)), ?_⟩
        intro m hm hpk
        have hsome := (mem_toUpdate.mp hm).2
        rw [hpk, hold] at hsome
        cases hsome
      | some q =>
        -- the row in its place is not deleted, because its rule applies
        obtain ⟨hq, hpk⟩ := Table.find?_eq_some.mp hold
        obtain ⟨hlisting, hrule⟩ := Prod.mk.inj hpk
        have hkeep : q ∈ (db.collect prices now products).listingRules := by
          refine (listingRules_collect q).mpr ⟨hq, fun l price hl _ hql => ?_⟩
          have hsaid := (due_iff hl (hlisting.symm.trans hql)).mp hdue
          rw [hrule]
          exact List.mem_map_of_mem hsaid.2
        refine Or.inl ⟨q, (hcreated q).mpr (Or.inl hkeep), r,
          mem_toUpdate.mpr ⟨hdue, by rw [hold]; rfl⟩, hpk.symm, ?_⟩
        rw [hlisting, hrule]
    · exact Or.inr ⟨(hcreated r).mpr (Or.inl hr), fun m hm =>
        hnone m (mem_toUpdate.mp hm).1⟩

/-- The rows of a listing after an update. -/
theorem mem_listingRules_of_updated {l : ProductVariantChannelListing} {price : ℚ}
    (hl : Updated db products l price) {r : VariantChannelListingPromotionRule}
    (hr : r.variantChannelListing = l.pk) :
    r ∈ (db.updateDiscountedPricesForPromotion prices now products).listingRules ↔
      Says (outcome prices db now l.channel (l, price)).1 l r ∨
        r ∈ db.listingRules ∧
          r.promotionRule ∉ (outcome prices db now l.channel (l, price)).1.map (·.1) ∧
          ¬ Changes prices db now l.channel (l, price) := by
  rw [mem_listingRules_update, due_iff hl hr, listingRules_collect]
  refine or_congr_right ⟨?_, ?_⟩
  · rintro ⟨⟨hmem, hdeleted⟩, hnone⟩
    have hrule : r.promotionRule ∉ (outcome prices db now l.channel (l, price)).1.map (·.1) := by
      intro hin
      obtain ⟨d, hd, hdr⟩ := List.mem_map.mp hin
      refine hnone ⟨l.pk, d.1, d.2⟩ ⟨l, price, hl, rfl, hd⟩ ?_
      show (l.pk, d.1) = (r.variantChannelListing, r.promotionRule)
      rw [hdr, hr]
    exact ⟨hmem, hrule, fun hchanges => hrule (hdeleted l price hl hchanges hr)⟩
  · rintro ⟨hmem, hrule, hsame⟩
    refine ⟨⟨hmem, fun l' price' hl' hchanges hr' => ?_⟩, fun s hs hpk => ?_⟩
    · obtain ⟨rfl, rfl⟩ := hl.unique hl' (hr.symm.trans hr')
      exact absurd hchanges hsame
    · obtain ⟨hlisting, hrules⟩ := Prod.mk.inj hpk
      have hsaid := (due_iff hl (hlisting.trans hr)).mp hs
      exact hrule (List.mem_map.mpr ⟨_, hsaid.2, hrules⟩)

/-- The variant listings after an update. -/
theorem mem_variantListings_update {x : ProductVariantChannelListing} :
    x ∈ (db.updateDiscountedPricesForPromotion prices now products).variantListings ↔
      (∃ l price, Updated db products l price ∧
        x = { l with discountedPrice := some (outcome prices db now l.channel (l, price)).2 }) ∨
      x ∈ db.variantListings ∧ ∀ price, ¬ Updated db products x price := by
  have hobjs : ∀ m ∈ (db.collect prices now products).variantListings,
      ∀ m' ∈ (db.collect prices now products).variantListings, pk m = pk m' → m = m' := by
    intro m hm m' hm' hpk
    obtain ⟨l, price, hl, -, rfl⟩ := (variantListings_collect m).mp hm
    obtain ⟨l', price', hl', -, rfl⟩ := (variantListings_collect m').mp hm'
    obtain ⟨rfl, rfl⟩ := hl.unique hl' hpk
    rfl
  rw [Db.updateDiscountedPricesForPromotion, Db.updateOrCreateListings]
  refine (Table.mem_bulkUpdate (by exact fun _ _ => rfl) hobjs).trans ?_
  constructor
  · rintro (⟨r, hr, m, hm, hpk, rfl⟩ | ⟨hx, hnone⟩)
    · obtain ⟨l, price, hl, -, rfl⟩ := (variantListings_collect m).mp hm
      have hlr : l = r := Table.eq_of_pk_eq hl.1 hr hpk
      subst hlr
      exact Or.inl ⟨l, price, hl, rfl⟩
    · by_cases hupdated : ∃ price, Updated db products x price
      · obtain ⟨price, hl⟩ := hupdated
        have hsame : x.discountedPrice = some (outcome prices db now x.channel (x, price)).2 := by
          by_contra hchanges
          exact hnone _ ((variantListings_collect _).mpr ⟨x, price, hl, hchanges, rfl⟩) rfl
        refine Or.inl ⟨x, price, hl, ?_⟩
        rw [← hsame]
      · exact Or.inr ⟨hx, not_exists.mp hupdated⟩
  · rintro (⟨l, price, hl, rfl⟩ | ⟨hx, hnone⟩)
    · by_cases hchanges : Changes prices db now l.channel (l, price)
      · exact Or.inl ⟨l, hl.1, _, (variantListings_collect _).mpr ⟨l, price, hl, hchanges, rfl⟩,
          rfl, rfl⟩
      · have hsame : { l with
            discountedPrice := some (outcome prices db now l.channel (l, price)).2 } = l := by
          rw [← not_not.mp hchanges]
        rw [hsame]
        refine Or.inr ⟨hl.1, fun m hm hpk => hchanges ?_⟩
        obtain ⟨l', price', hl', hchanges', rfl⟩ := (variantListings_collect m).mp hm
        obtain ⟨rfl, rfl⟩ := hl.unique hl' hpk.symm
        exact hchanges'
    · refine Or.inr ⟨hx, fun m hm hpk => ?_⟩
      obtain ⟨l, price, hl, -, rfl⟩ := (variantListings_collect m).mp hm
      have hlx : l = x := Table.eq_of_pk_eq hl.1 hx hpk
      exact hnone price (hlx ▸ hl)

/-- The listings with a price of the products after an update. -/
theorem updated_update {x : ProductVariantChannelListing} {price : ℚ} :
    Updated (db.updateDiscountedPricesForPromotion prices now products) products x price ↔
      ∃ l, Updated db products l price ∧
        x = { l with discountedPrice := some (outcome prices db now l.channel (l, price)).2 } := by
  constructor
  · rintro ⟨hx, hprice, hvariant⟩
    rcases mem_variantListings_update.mp hx with ⟨l, price', hl, rfl⟩ | ⟨hx, hnone⟩
    · have hsame : price' = price := Option.some.inj (hl.2.1.symm.trans hprice)
      subst hsame
      exact ⟨l, hl, rfl⟩
    · exact absurd ⟨hx, hprice, hvariant⟩ (hnone price)
  · rintro ⟨l, hl, rfl⟩
    exact ⟨mem_variantListings_update.mpr (Or.inl ⟨l, price, hl, rfl⟩), hl.2.1, hl.2.2⟩

/-- A listing of the products gets the price that is left. -/
theorem Updated.update {l : ProductVariantChannelListing} {price : ℚ}
    (h : Updated db products l price) (prices : PricesPackage) (now : ℤ) :
    Updated (db.updateDiscountedPricesForPromotion prices now products) products
      { l with discountedPrice := some (outcome prices db now l.channel (l, price)).2 } price :=
  updated_update.mpr ⟨l, h, rfl⟩

/-- The discounted price of a product listing after an update. -/
theorem discountedPrice_of_mem_update {x : ProductChannelListing}
    (hx : x ∈ (db.updateDiscountedPricesForPromotion prices now products).productListings)
    (hproduct : x.product ∈ products) {least : ℚ}
    (hleast : ((variantListingsOf db x.product x.channel).map fun l =>
      (outcome prices db now x.channel l).2).min? = some least) :
    x.discountedPrice = some least := by
  have hobjs : ∀ m ∈ (db.collect prices now products).productListings,
      ∀ m' ∈ (db.collect prices now products).productListings, pk m = pk m' → m = m' := by
    intro m hm m' hm' hpk
    obtain ⟨p, hp, d, hd, -, rfl⟩ := (productListings_collect m).mp hm
    obtain ⟨p', hp', d', hd', -, rfl⟩ := (productListings_collect m').mp hm'
    have hpp : p = p' := Table.eq_of_pk_eq (List.mem_of_mem_filter hp)
      (List.mem_of_mem_filter hp') hpk
    subst hpp
    rw [hd] at hd'
    rw [Option.some.inj hd']
  rw [Db.updateDiscountedPricesForPromotion, Db.updateOrCreateListings] at hx
  rcases (Table.mem_bulkUpdate (by exact fun _ _ => rfl) hobjs).mp hx with
    ⟨r, -, m, hm, hpk, rfl⟩ | ⟨hx, hnone⟩
  · obtain ⟨p, -, d, hd, -, rfl⟩ := (productListings_collect m).mp hm
    obtain ⟨hpr, hchannel⟩ := Prod.mk.inj hpk
    have hpr : p.product = r.product := hpr
    have hchannel : p.channel = r.channel := hchannel
    rw [hpr, hchannel] at hd
    exact hd.symm.trans hleast
  · by_contra hchanges
    exact hnone _ ((productListings_collect _).mpr
      ⟨x, List.mem_filter.mpr ⟨hx, decide_eq_true hproduct⟩, least, hleast, hchanges, rfl⟩) rfl

end Promotions

end Aixinwu
