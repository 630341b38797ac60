import Aixinwu.Order.PriceRefresh

/-!
# Refreshing the prices of an order again

With flat rates `fetch_order_prices_if_expired` prices the lines from the amounts that stand on the
discounts and the total that stands on the order, before it computes these anew. So what the first
run leaves is read by the second: the lines keep their prices where the amounts they were priced
with come to the same as those that were recorded. All else is computed from what no run changes.

Where prices are entered with tax and none is charged, the taxes are removed in the end, and the
rates set to zero. A rate that is kept for a tax class which is gone is lost by this, and so is the
tax on lines without a variant; the second run misses them.

## Main definitions

* `storedDiscount`, `dueDiscount` — the discount that stands on an order, and what it comes to
* `SamePrices`, `Stays` — another run leaves the prices and amounts as they are
* `Agrees`, `Untaxed`, `Settled`

## Main results

* `updateOrderPricesWithFlatRates_again`, `withPrices_again`, `getOrderBasePrices_again`
* `agrees_of_samePrices`
* `stays_iff`
-/

namespace Aixinwu

namespace PriceRefresh

open Checkout Checkout.LinePrices Decimals Promotions FlatRates
open BaseCalculations (OrderDiscount baseOrderTotal recorded start)

/-! ### The second run -/

section Again

variable {prices : PricesPackage} {t : TaxContext} {o o' order : Order}
  {lines lines' : List FlatRates.OrderLine} {amounts amounts' : List (Option ℚ)} {places : ℕ}

/-- The discount that is spread over the lines, from what stands on the order. -/
def storedDiscount (o : Order) : ℚ := getTotalOrderDiscountExcludingShipping (flatOrder o)

/-- The same from what the discounts take off now, and from the undiscounted prices now. -/
def dueDiscount (prices : PricesPackage) (o : Order) : ℚ :=
  getTotalOrderDiscountExcludingShipping
    { discounts := recorded prices (start (baseOrder o) (baseLines o.lines)) o.discounts.rows
      voucher := o.voucher.map (·.type)
      undiscountedTotalGross := undiscountedSubtotalOf o.lines + o.baseShippingPrice }

/-- The lines as they are priced from a discount, nothing where it divides by zero. -/
def pricedFrom (t : TaxContext) (d : ℚ) (lines : List FlatRates.OrderLine) :
    Option (List FlatRates.OrderLine) :=
  (updateLines t d (orderTotalPrice lines) {} lines).map (·.lines)

theorem pricedFrom_eq (d : ℚ) : pricedFrom t d lines
    = (lineAmounts t d (orderTotalPrice lines) 0 lines).map (priceLines t d lines) := by
  have h := congrArg (Option.map Prod.fst)
    (@updateLines_eq_lineAmounts t d (orderTotalPrice lines) lines {})
  rw [Option.map_map, Option.map_map] at h
  exact h

theorem updateOrderPricesWithFlatRates_eq : updateOrderPricesWithFlatRates prices t o
    = (pricedFrom t (storedDiscount o) o.lines).map fun lines =>
        withPrices prices t o lines
          ⟨undiscountedSubtotalOf o.lines, undiscountedSubtotalOf o.lines⟩ := by
  have h := congrArg (Option.map fun p : List FlatRates.OrderLine × TaxedMoney =>
    withPrices prices t o p.1 p.2)
    (@updateLines_eq_lineAmounts t (storedDiscount o) (orderTotalPrice o.lines) o.lines {})
  rw [Option.map_map, Option.map_map] at h
  rw [pricedFrom_eq, Option.map_map]
  have hzero : (0 : TaxedMoney) + ⟨undiscountedSubtotalOf o.lines, undiscountedSubtotalOf o.lines⟩
      = ⟨undiscountedSubtotalOf o.lines, undiscountedSubtotalOf o.lines⟩ :=
    congrArg₂ TaxedMoney.mk (zero_add _) (zero_add _)
  refine h.trans (congrArg₂ Option.map (funext fun amounts => ?_) rfl)
  exact congrArg (withPrices prices t o (priceLines t (storedDiscount o) o.lines amounts)) hzero

/-- The key and the type of a discount. -/
def discountType (d : OrderDiscount) : ℕ × DiscountType := (d.id, d.type)

theorem any_voucherCode {rows : List OrderDiscount} {code : ℕ → Option String}
    {voucherCode : Option String} : (rows.any fun d => code d.id = voucherCode)
      = (rows.map discountType).any fun p => code p.1 = voucherCode := by
  rw [List.any_map]
  rfl

/-- The discounts go with the voucher: there is one with its code if it takes anything off, and
without a voucher there is none of a voucher. -/
structure VoucherApplied (o : Order) : Prop where
  none : o.voucher = none → ∀ d ∈ o.discounts.rows, d.type ≠ .voucher
  some : ∀ voucher, o.voucher = some voucher → voucher.discountValue ≠ .none →
    (o.discounts.rows.any fun d => o.discountVoucherCode d.id = o.voucherCode) = true

/-- **Bringing the discount of the voucher up to date** does so. -/
theorem voucherApplied_updateOrderDiscountForVoucher (o : Order) :
    VoucherApplied (updateOrderDiscountForVoucher o) := by
  rw [updateOrderDiscountForVoucher]
  split
  · rename_i hnone
    refine ⟨fun _ d hd => ?_, fun voucher h => ?_⟩
    · simpa using (List.mem_filter.mp hd).2
    · cases hnone.symm.trans h
  · rename_i voucher hsome
    split
    · rename_i hany
      refine ⟨fun h => ?_, fun _ _ _ => hany⟩
      cases hsome.symm.trans h
    · split
      · rename_i hvalue
        refine ⟨fun h => ?_, fun voucher' h hne => absurd ?_ hne⟩
        · cases hsome.symm.trans h
        · obtain rfl := Option.some.inj (hsome.symm.trans h)
          exact hvalue
      · rename_i value hvalue
        refine ⟨fun h => ?_, fun _ _ _ => ?_⟩
        · cases hsome.symm.trans h
        · simp [withDiscount]

theorem updateOrderDiscountForVoucher_of_applied (h : VoucherApplied o) :
    updateOrderDiscountForVoucher o = o := by
  rw [updateOrderDiscountForVoucher]
  split
  · rename_i hnone
    have hdelete : (o.discounts.delete fun d => d.type = .voucher) = o.discounts := by
      ext1
      refine List.filter_eq_self.mpr fun d hd => ?_
      simpa using h.none hnone d hd
    rw [hdelete]
  · rename_i voucher hsome
    split
    · rfl
    · rename_i hany
      split
      · rfl
      · rename_i value hvalue
        exact absurd (h.some voucher hsome (by rw [hvalue]; exact Option.some_ne_none value)) hany

theorem VoucherApplied.congr (h : VoucherApplied o) (hvoucher : o'.voucher = o.voucher)
    (hcode : o'.voucherCode = o.voucherCode)
    (hcodes : o'.discountVoucherCode = o.discountVoucherCode)
    (hrows : o'.discounts.rows.map discountType = o.discounts.rows.map discountType) :
    VoucherApplied o' := by
  refine ⟨fun hnone d hd => ?_, fun voucher hsome hvalue => ?_⟩
  · have hmem : discountType d ∈ o'.discounts.rows.map discountType := List.mem_map_of_mem hd
    rw [hrows] at hmem
    obtain ⟨e, he, heq⟩ := List.mem_map.mp hmem
    have htype : e.type = d.type := congrArg Prod.snd heq
    rw [← htype]
    exact h.none (hvoucher ▸ hnone) e he
  · rw [any_voucherCode, hrows, hcode, hcodes, ← any_voucherCode]
    exact h.some voucher (hvoucher ▸ hsome) hvalue

/-! ### The totals -/

/-- The total is not read when it is computed, nor is what stands on the discounts. -/
theorem calculateOrderTotal_again {shippingPrice : TaxedMoney}
    (hbase : baseOrder o' = (baseOrderTotal prices (baseOrder o) (baseLines lines)).2)
    (hlines : baseLines lines' = baseLines lines)
    (htotal : (lines'.map (·.totalPrice)).sum = (lines.map (·.totalPrice)).sum)
    (hundiscounted : (lines'.map (·.undiscountedTotalPrice)).sum
      = (lines.map (·.undiscountedTotalPrice)).sum) :
    calculateOrderTotal prices places o' lines' shippingPrice
      = calculateOrderTotal prices places o lines shippingPrice := by
  rw [calculateOrderTotal, calculateOrderTotal, hbase, hlines,
    BaseCalculations.baseOrderTotal_again, htotal, hundiscounted]

theorem map_discountType_recorded {r : BaseCalculations.Running} (ds : List OrderDiscount) :
    (recorded prices r ds).map discountType = ds.map discountType := by
  induction ds generalizing r with
  | nil => rfl
  | cons d ds ih => exact congrArg₂ List.cons rfl ih

/-! ### Rates that are kept -/

/-- The rate of a line that was priced is its rate. -/
theorem lineTaxRate_setPrices (d : ℚ) (l : FlatRates.OrderLine) (amount : ℚ) :
    lineTaxRate t (setPrices t d l amount) = lineTaxRate t l := by
  have hback : denormalizeTaxRateFromDb (normalizeTaxRateForDb (lineTaxRate t l))
      = lineTaxRate t l := div_mul_cancel₀ _ (by norm_num)
  rcases hclass : l.taxClass with - | countryRates
  · rcases hname : l.taxClassName with - | name
    · rw [lineTaxRate, lineTaxRate]
      simp only [setPrices, hclass, hname]
    · refine Eq.trans ?_ hback
      rw [lineTaxRate]
      simp only [setPrices, hclass, hname]
  · rw [lineTaxRate, lineTaxRate]
    simp only [setPrices, hclass]

/-- A line whose tax class is gone, and which keeps the rate of it. -/
def KeepsRate (l : FlatRates.OrderLine) : Prop := l.taxClass = none ∧ l.taxClassName.isSome

/-- Without its tax, a line keeps its rate unless it is for a tax class that is gone. -/
theorem lineTaxRate_removeLineTax {l l' : FlatRates.OrderLine} (hclass : l'.taxClass = l.taxClass)
    (hname : l'.taxClassName = l.taxClassName) (h : KeepsRate l → lineTaxRate t l = 0) :
    lineTaxRate t (removeLineTax l') = lineTaxRate t l := by
  rcases hclass' : l.taxClass with - | countryRates
  · rcases hname' : l.taxClassName with - | name
    · rw [lineTaxRate, lineTaxRate]
      simp only [removeLineTax, hclass, hname, hclass', hname']
    · rw [h ⟨hclass', by rw [hname']; rfl⟩, lineTaxRate]
      simp only [removeLineTax, hclass, hname, hclass', hname']
      exact zero_mul _
  · rw [lineTaxRate, lineTaxRate]
    simp only [removeLineTax, hclass, hclass']

theorem alike_priceLine {l : FlatRates.OrderLine} {d : ℚ} {amount : Option ℚ} :
    Alike t l (priceLine t d l amount) := by
  cases amount with
  | none => exact ⟨rfl, rfl, rfl, rfl, rfl, rfl, fun _ => rfl⟩
  | some amount => exact ⟨rfl, rfl, rfl, rfl, rfl, rfl, fun _ => lineTaxRate_setPrices d l amount⟩

theorem keepsAlike_id : KeepsAlike t id lines := fun _ _ _ _ _ => alike_priceLine

theorem keepsAlike_removeLineTax
    (h : ∀ l ∈ lines, l.variant.isSome → KeepsRate l → lineTaxRate t l = 0) :
    KeepsAlike t removeLineTax lines := by
  intro l hl d amount _
  have halike : Alike t l (priceLine t d l amount) := alike_priceLine
  exact ⟨halike.variant, halike.quantity, halike.baseUnitPrice, halike.undiscountedBaseUnitPrice,
    halike.taxClass, halike.taxClassName, fun hvariant =>
      lineTaxRate_removeLineTax halike.taxClass halike.taxClassName (h l hl hvariant)⟩

/-- **Pricing the lines again**, from any discount. -/
theorem pricedFrom_again {f : FlatRates.OrderLine → FlatRates.OrderLine} {d : ℚ}
    (hf : KeepsAlike t f lines) (h : pricedFrom t d lines = some lines') (d' : ℚ) :
    pricedFrom t d' (lines'.map f) = (pricedFrom t d' lines).map (List.map (onRest f)) := by
  rw [pricedFrom_eq] at h
  obtain ⟨amounts, hamounts, rfl⟩ := Option.map_eq_some_iff.mp h
  have hfits := fits_of_lineAmounts hamounts
  have halike := alike_priceLines (d := d) hf hfits
  rw [pricedFrom_eq, pricedFrom_eq, orderTotalPrice_congr halike, lineAmounts_congr halike]
  cases hamounts' : lineAmounts t d' (orderTotalPrice lines) 0 lines with
  | none => rfl
  | some amounts' => exact congrArg some (priceLines_again hf hfits (fits_of_lineAmounts hamounts'))

/-- Lines that were priced are alike. -/
theorem alike_of_pricedFrom {f : FlatRates.OrderLine → FlatRates.OrderLine} {d : ℚ}
    (hf : KeepsAlike t f lines) (h : pricedFrom t d lines = some lines') :
    List.Forall₂ (Alike t) lines (lines'.map f) := by
  rw [pricedFrom_eq] at h
  obtain ⟨amounts, hamounts, rfl⟩ := Option.map_eq_some_iff.mp h
  exact alike_priceLines hf (fits_of_lineAmounts hamounts)

end Again

/-! ### Another run -/

/-- What is done to the prices of a line once they are computed. -/
def finishLine (s : TaxSettings) (line : FlatRates.OrderLine) : FlatRates.OrderLine :=
  if s.shouldChargeTax then line else removeLineTax line

/-- What is done to the prices of an order once they are computed. -/
def finish (s : TaxSettings) (o : Order) : Order := if s.shouldChargeTax then o else removeTax o

/-- The prices of a line. -/
def linePrices (line : FlatRates.OrderLine) : List TaxedMoney :=
  [line.unitPrice, line.undiscountedUnitPrice, line.totalPrice, line.undiscountedTotalPrice]

/-- **The prices and amounts of two orders are the same.** -/
structure SamePrices (o o' : Order) : Prop where
  lines : o'.lines.map linePrices = o.lines.map linePrices
  shippingPrice : o'.shippingPrice = o.shippingPrice
  discounts : (o'.discounts.rows.map fun d => (d.id, d.amount))
    = o.discounts.rows.map fun d => (d.id, d.amount)
  total : o'.total = o.total

/-- **Another run** leaves the prices and amounts as they are. -/
def Stays (prices : PricesPackage) (s : TaxSettings) (o : Order) : Prop :=
  ∃ o', fetchOrderPricesIfExpired prices s o = some o' ∧ SamePrices o o'

/-- The lines are priced alike from the discount that stands on the order and from the one that its
discounts come to. -/
def Agrees (prices : PricesPackage) (t : TaxContext) (o : Order) : Prop :=
  pricedFrom t (dueDiscount prices o) o.lines = pricedFrom t (storedDiscount o) o.lines

/-- Nothing is lost with the taxes: no rate that is kept for a tax class which is gone, and no tax
on a line without a variant. -/
structure Untaxed (t : TaxContext) (o : Order) : Prop where
  lines : ∀ l ∈ o.lines, l.variant.isSome → KeepsRate l → lineTaxRate t l = 0
  rest : ∀ l ∈ o.lines, l.variant = none →
    withoutTax l.totalPrice = l.totalPrice ∧
      withoutTax l.undiscountedTotalPrice = l.undiscountedTotalPrice
  shipping : o.shippingTaxClass = none → o.shippingTaxClassName.isSome → shippingTaxRateOf t o = 0

section AnotherRun

variable {prices : PricesPackage} {s : TaxSettings} {o : Order}
  {lines : List FlatRates.OrderLine}

theorem finishLine_finishLine (l : FlatRates.OrderLine) :
    finishLine s (finishLine s l) = finishLine s l := by
  rw [finishLine, finishLine]
  split
  · rfl
  · rfl

theorem finishLine_onRest (l : FlatRates.OrderLine) :
    finishLine s (onRest (finishLine s) l) = finishLine s l := by
  rw [onRest]
  split
  · exact finishLine_finishLine l
  · rfl

theorem lines_finish (o : Order) : (finish s o).lines = o.lines.map (finishLine s) := by
  rw [finish]
  cases hcharge : s.shouldChargeTax with
  | true =>
    have hid : finishLine s = id := funext fun l => if_pos hcharge
    rw [hid, List.map_id]
    rfl
  | false =>
    have hremove : finishLine s = removeLineTax := funext fun l => if_neg (by simp [hcharge])
    rw [hremove]
    rfl

theorem keepsAlike_finishLine (h : s.shouldChargeTax = false → Untaxed s.toTaxContext o) :
    KeepsAlike s.toTaxContext (finishLine s) o.lines := by
  cases hcharge : s.shouldChargeTax with
  | true =>
    have hid : finishLine s = id := funext fun l => if_pos hcharge
    rw [hid]
    exact keepsAlike_id
  | false =>
    have hremove : finishLine s = removeLineTax := funext fun l => if_neg (by simp [hcharge])
    rw [hremove]
    exact keepsAlike_removeLineTax (h hcharge).lines

/-- A run with flat rates, on an order whose voucher is up to date. -/
theorem fetchOrderPricesIfExpired_flat (heditable : o.isEditable = true)
    (hflat : s.pricesEnteredWithTax = true ∨ s.shouldChargeTax = true) (h : VoucherApplied o) :
    fetchOrderPricesIfExpired prices s o
      = (updateOrderPricesWithFlatRates prices s.toTaxContext o).map (finish s) := by
  rw [fetchOrderPricesIfExpired, if_neg (by simp [heditable])]
  simp only [updateOrderDiscountForVoucher_of_applied h]
  cases hwith : s.pricesEnteredWithTax with
  | true => rfl
  | false =>
    have hcharge : s.shouldChargeTax = true := hflat.resolve_left (by simp [hwith])
    have hid : finish s = id := funext fun o => if_pos hcharge
    rw [hid, Option.map_id]
    simp only [hcharge]
    rfl

/-- The order that a run leaves. -/
def refreshed (prices : PricesPackage) (s : TaxSettings) (o : Order)
    (lines : List FlatRates.OrderLine) : Order :=
  finish s (withPrices prices s.toTaxContext o lines
    ⟨undiscountedSubtotalOf o.lines, undiscountedSubtotalOf o.lines⟩)

theorem baseOrder_refreshed : baseOrder (refreshed prices s o lines)
    = (baseOrderTotal prices (baseOrder o) (baseLines lines)).2 := by
  rw [refreshed, finish]
  split
  · rfl
  · rfl

/-- The discounts after a run. -/
theorem rows_refreshed : (refreshed prices s o lines).discounts.rows
    = recorded prices (start (baseOrder o) (baseLines lines)) o.discounts.rows := by
  refine Eq.trans ?_ (BaseCalculations.rows_baseOrderTotal (baseOrder o) (baseLines lines))
  exact congrArg (fun b : BaseCalculations.Order => b.discounts.rows) baseOrder_refreshed

theorem voucherApplied_refreshed (h : VoucherApplied o) :
    VoucherApplied (refreshed prices s o lines) := by
  refine h.congr ?_ ?_ ?_ ?_
  · rw [refreshed, finish]
    split <;> rfl
  · rw [refreshed, finish]
    split <;> rfl
  · rw [refreshed, finish]
    split <;> rfl
  · rw [rows_refreshed, map_discountType_recorded]

/-- What stands on the order after a run is what its discounts come to. -/
theorem storedDiscount_refreshed (hlines : baseLines lines = baseLines o.lines) :
    storedDiscount (refreshed prices s o lines) = dueDiscount prices o := by
  have hvoucher : (refreshed prices s o lines).voucher = o.voucher := by
    rw [refreshed, finish]
    split <;> rfl
  have hgross : (refreshed prices s o lines).undiscountedTotal.gross
      = undiscountedSubtotalOf o.lines + o.baseShippingPrice := by
    rw [refreshed, finish]
    split <;> rfl
  rw [storedDiscount, flatOrder, rows_refreshed, hlines, hvoucher, hgross]
  rfl

/-- The rate of the shipping, again. -/
theorem shippingTaxRateOf_refreshed (h : s.shouldChargeTax = false → Untaxed s.toTaxContext o) :
    shippingTaxRateOf s.toTaxContext (refreshed prices s o lines)
      = shippingTaxRateOf s.toTaxContext o := by
  have hback : denormalizeTaxRateFromDb (normalizeTaxRateForDb (shippingTaxRateOf s.toTaxContext o))
      = shippingTaxRateOf s.toTaxContext o := div_mul_cancel₀ _ (by norm_num)
  cases hcharge : s.shouldChargeTax with
  | true =>
    rw [refreshed, finish, if_pos hcharge]
    rcases hclass : o.shippingTaxClass with - | countryRates
    · rcases hname : o.shippingTaxClassName with - | name
      · rw [shippingTaxRateOf, shippingTaxRateOf]
        simp only [withPrices, hclass, hname]
      · refine Eq.trans ?_ hback
        rw [shippingTaxRateOf]
        simp only [withPrices, hclass, hname]
    · rw [shippingTaxRateOf, shippingTaxRateOf]
      simp only [withPrices, hclass]
  | false =>
    rw [refreshed, finish, if_neg (by simp [hcharge])]
    rcases hclass : o.shippingTaxClass with - | countryRates
    · rcases hname : o.shippingTaxClassName with - | name
      · rw [shippingTaxRateOf, shippingTaxRateOf]
        simp only [withPrices, removeTax, hclass, hname]
      · have hzero := (h hcharge).shipping hclass (by rw [hname]; rfl)
        rw [hzero, shippingTaxRateOf]
        simp only [withPrices, removeTax, hclass, hname]
        exact zero_mul _
    · rw [shippingTaxRateOf, shippingTaxRateOf]
      simp only [withPrices, removeTax, hclass]

end AnotherRun

section SecondRun

variable {prices : PricesPackage} {t : TaxContext} {s : TaxSettings} {o first : Order}
  {d : ℚ} {lines lines' : List FlatRates.OrderLine} {amounts amounts' : List (Option ℚ)}
  {f : FlatRates.OrderLine → FlatRates.OrderLine}

/-- Lines without a variant keep what they have. -/
theorem mem_of_pricedFrom (h : pricedFrom t d lines = some lines') :
    ∀ l ∈ lines', l.variant = none → l ∈ lines := by
  rw [pricedFrom_eq] at h
  obtain ⟨amounts, hamounts, rfl⟩ := Option.map_eq_some_iff.mp h
  have hfits := fits_of_lineAmounts hamounts
  clear h hamounts
  induction hfits with
  | nil => exact fun l hl => absurd hl List.not_mem_nil
  | @cons l amount lines amounts hline _ ih =>
    intro l' hl' hnone
    rcases List.mem_cons.mp hl' with rfl | hl'
    · cases amount with
      | none => exact List.mem_cons_self
      | some amount =>
        have hvariant : l.variant = none := hnone
        rw [hvariant] at hline
        cases hline
    · exact List.mem_cons_of_mem _ (ih l' hl' hnone)

theorem map_onRest {τ : Type} {g : FlatRates.OrderLine → τ}
    (h : ∀ l ∈ lines, l.variant = none → g (f l) = g l) :
    (lines.map (onRest f)).map g = lines.map g := by
  rw [List.map_map]
  refine List.map_congr_left fun l hl => ?_
  rw [Function.comp_apply, onRest]
  split
  · rename_i hnone
    exact h l hl hnone
  · rfl

theorem baseLines_finishLine : baseLines (lines.map (onRest (finishLine s))) = baseLines lines := by
  refine map_onRest fun l _ _ => ?_
  rw [finishLine]
  split
  · rfl
  · rfl

/-- **The prices that are computed again**, but for the lines, are those of the first time. -/
theorem withPrices_again {undiscountedSubtotal : TaxedMoney}
    (h : s.shouldChargeTax = false → Untaxed s.toTaxContext o)
    (hrest : ∀ l ∈ lines, l.variant = none → l ∈ o.lines) :
    withPrices prices s.toTaxContext (refreshed prices s o lines)
        (lines.map (onRest (finishLine s))) undiscountedSubtotal
      = { withPrices prices s.toTaxContext o lines undiscountedSubtotal with
          lines := lines.map (onRest (finishLine s)) } := by
  have hkept : ∀ l ∈ lines, l.variant = none →
      (finishLine s l).totalPrice = l.totalPrice
        ∧ (finishLine s l).undiscountedTotalPrice = l.undiscountedTotalPrice := by
    intro l hl hnone
    rw [finishLine]
    split
    · exact ⟨rfl, rfl⟩
    · rename_i hcharge
      exact (h (by simpa using hcharge)).rest l (hrest l hl hnone) hnone
  have htotal : ∀ shippingPrice, calculateOrderTotal prices s.places (refreshed prices s o lines)
      (lines.map (onRest (finishLine s))) shippingPrice
        = calculateOrderTotal prices s.places o lines shippingPrice := fun shippingPrice =>
    calculateOrderTotal_again baseOrder_refreshed baseLines_finishLine
      (congrArg List.sum (map_onRest fun l hl hnone => (hkept l hl hnone).1))
      (congrArg List.sum (map_onRest fun l hl hnone => (hkept l hl hnone).2))
  have hbase : (refreshed prices s o lines).baseShippingPrice = o.baseShippingPrice :=
    congrArg BaseCalculations.Order.baseShippingPrice baseOrder_refreshed
  have hshipping : calculateOrderShipping s.toTaxContext (refreshed prices s o lines)
      = calculateOrderShipping s.toTaxContext o := by
    funext taxRate
    rw [calculateOrderShipping, calculateOrderShipping, hbase]
  rw [withPrices, withPrices, shippingTaxRateOf_refreshed h, hshipping]
  simp only [htotal, hbase]
  rw [refreshed, finish]
  split
  · rfl
  · rfl

/-- **The run that follows**, from what the first one leaves. -/
theorem updateOrderPricesWithFlatRates_again
    (h : s.shouldChargeTax = false → Untaxed s.toTaxContext o)
    (hlines : pricedFrom s.toTaxContext (storedDiscount o) o.lines = some lines) :
    (updateOrderPricesWithFlatRates prices s.toTaxContext (refreshed prices s o lines)).map
        (finish s)
      = (pricedFrom s.toTaxContext (dueDiscount prices o) o.lines).map fun lines' =>
          finish s (withPrices prices s.toTaxContext (refreshed prices s o lines)
            (lines'.map (onRest (finishLine s)))
            ⟨undiscountedSubtotalOf o.lines, undiscountedSubtotalOf o.lines⟩) := by
  have hkeeps := keepsAlike_finishLine h
  have halike := alike_of_pricedFrom hkeeps hlines
  have hid := alike_of_pricedFrom keepsAlike_id hlines
  rw [List.map_id] at hid
  have hfirst : (refreshed prices s o lines).lines = lines.map (finishLine s) := lines_finish _
  rw [updateOrderPricesWithFlatRates_eq, storedDiscount_refreshed (baseLines_congr hid), hfirst,
    undiscountedSubtotalOf_congr halike, pricedFrom_again hkeeps hlines, Option.map_map,
    Option.map_map]
  rfl

theorem refreshed_eq : refreshed prices s o lines
    = finish s { withPrices prices s.toTaxContext o lines
        ⟨undiscountedSubtotalOf o.lines, undiscountedSubtotalOf o.lines⟩ with
      lines := lines.map (onRest (finishLine s)) } := by
  have hmap : (lines.map (onRest (finishLine s))).map (finishLine s)
      = lines.map (finishLine s) := by
    rw [List.map_map]
    exact List.map_congr_left fun l _ => finishLine_onRest l
  rw [refreshed, finish, finish]
  cases hcharge : s.shouldChargeTax with
  | true =>
    have hid : onRest (finishLine s) = id := by
      funext l
      rw [onRest, finishLine, if_pos hcharge]
      exact ite_self l
    rw [hid, List.map_id]
    rfl
  | false =>
    have hremove : finishLine s = removeLineTax := funext fun l => if_neg (by simp [hcharge])
    rw [hremove] at hmap ⊢
    exact Order.ext rfl rfl rfl rfl rfl rfl rfl rfl rfl rfl rfl rfl hmap.symm

/-- **Where the discounts agree**, the run that follows changes nothing. -/
theorem refreshed_of_agrees (h : s.shouldChargeTax = false → Untaxed s.toTaxContext o)
    (hlines : pricedFrom s.toTaxContext (storedDiscount o) o.lines = some lines)
    (hagrees : Agrees prices s.toTaxContext o) :
    (updateOrderPricesWithFlatRates prices s.toTaxContext (refreshed prices s o lines)).map
        (finish s)
      = some (refreshed prices s o lines) := by
  rw [updateOrderPricesWithFlatRates_again h hlines, hagrees, hlines, Option.map_some,
    withPrices_again h (mem_of_pricedFrom hlines), ← refreshed_eq]

/-! ### What the prices tell -/

theorem setPrices_of_linePrices {d' amount amount' : ℚ} {l : FlatRates.OrderLine}
    (h : linePrices (setPrices t d l amount) = linePrices (setPrices t d' l amount')) :
    setPrices t d l amount = setPrices t d' l amount' := by
  have hprices := List.cons.inj h
  have hprices' := List.cons.inj (List.cons.inj hprices.2).2
  have hunit : (setPrices t d l amount).unitPrice = (setPrices t d' l amount').unitPrice :=
    hprices.1
  have htotal : (setPrices t d l amount).totalPrice = (setPrices t d' l amount').totalPrice :=
    hprices'.1
  simp only [setPrices] at hunit htotal ⊢
  rw [hunit, htotal]

/-- Prices that are computed for the same lines tell the lines. -/
theorem priceLines_of_linePrices {d' : ℚ} (h : Fits lines amounts) (h' : Fits lines amounts')
    (heq : (priceLines t d lines amounts).map linePrices
      = (priceLines t d' lines amounts').map linePrices) :
    priceLines t d lines amounts = priceLines t d' lines amounts' := by
  induction h generalizing amounts' with
  | nil =>
    cases h'
    rfl
  | @cons l amount lines amounts hline _ ih =>
    cases h' with
    | @cons _ amount' _ amounts' hline' hlines' =>
      obtain ⟨hhead, htail⟩ := List.cons.inj heq
      refine congrArg₂ List.cons ?_ (ih hlines' htail)
      cases amount with
      | none =>
        obtain rfl : amount' = none := by
          cases amount' with
          | none => rfl
          | some a => cases hline.trans hline'.symm
        rfl
      | some a =>
        obtain ⟨a', rfl⟩ : ∃ a', amount' = some a' :=
          Option.isSome_iff_exists.mp (hline'.trans hline.symm)
        exact setPrices_of_linePrices hhead

/-- **Where taxes are charged**, the prices of another run tell that the discounts agree. -/
theorem agrees_of_samePrices (hcharge : s.shouldChargeTax = true)
    (hlines : pricedFrom s.toTaxContext (storedDiscount o) o.lines = some lines)
    (h : (updateOrderPricesWithFlatRates prices s.toTaxContext (refreshed prices s o lines)).map
      (finish s) = some first) (hsame : SamePrices (refreshed prices s o lines) first) :
    Agrees prices s.toTaxContext o := by
  have hid : finishLine s = id := funext fun l => if_pos hcharge
  have hrest : onRest id = (id : FlatRates.OrderLine → FlatRates.OrderLine) :=
    funext fun l => ite_self l
  have huntaxed : s.shouldChargeTax = false → Untaxed s.toTaxContext o := fun hfalse =>
    absurd (hcharge.symm.trans hfalse) (by decide)
  rw [updateOrderPricesWithFlatRates_again huntaxed hlines] at h
  obtain ⟨lines', hlines', rfl⟩ := Option.map_eq_some_iff.mp h
  have hprices : lines'.map linePrices = lines.map linePrices := by
    have hprices := hsame.lines
    rw [lines_finish, refreshed, lines_finish, hid, hrest] at hprices
    simpa only [List.map_id, withPrices] using hprices
  rw [Agrees, hlines, hlines']
  rw [pricedFrom_eq] at hlines hlines'
  obtain ⟨amounts, hamounts, rfl⟩ := Option.map_eq_some_iff.mp hlines
  obtain ⟨amounts', hamounts', rfl⟩ := Option.map_eq_some_iff.mp hlines'
  exact congrArg some
    (priceLines_of_linePrices (fits_of_lineAmounts hamounts') (fits_of_lineAmounts hamounts)
      hprices)

end SecondRun

/-! ### Prices without taxes -/

section Base

variable {prices : PricesPackage} {s : TaxSettings} {o : Order} {places : ℕ}

theorem setBasePrices_setBasePrices (l : FlatRates.OrderLine) :
    setBasePrices places (setBasePrices places l) = setBasePrices places l := by
  by_cases hvariant : l.variant = none
  · have hskip : setBasePrices places l = l := if_pos hvariant
    rw [hskip, hskip]
  · simp only [setBasePrices, if_neg hvariant]
    rfl

theorem baseOrder_getOrderBasePrices : baseOrder (getOrderBasePrices prices places o)
    = (baseOrderTotal prices (baseOrder o) (baseLines (o.lines.map (setBasePrices places)))).2 :=
  rfl

/-- **Without taxes** nothing is read that was written. -/
theorem getOrderBasePrices_again :
    getOrderBasePrices prices places (getOrderBasePrices prices places o)
      = getOrderBasePrices prices places o := by
  have hlines : (getOrderBasePrices prices places o).lines.map (setBasePrices places)
      = o.lines.map (setBasePrices places) := by
    show (o.lines.map (setBasePrices places)).map (setBasePrices places) = _
    rw [List.map_map]
    exact List.map_congr_left fun l _ => setBasePrices_setBasePrices l
  rw [getOrderBasePrices, hlines, baseOrder_getOrderBasePrices,
    BaseCalculations.baseOrderTotal_again]
  rfl

theorem voucherApplied_getOrderBasePrices (h : VoucherApplied o) :
    VoucherApplied (getOrderBasePrices prices places o) := by
  refine h.congr rfl rfl rfl ?_
  have hrows : (getOrderBasePrices prices places o).discounts.rows
      = recorded prices (start (baseOrder o) (baseLines (o.lines.map (setBasePrices places))))
        o.discounts.rows := BaseCalculations.rows_baseOrderTotal _ _
  rw [hrows, map_discountType_recorded]

/-- A run without taxes, on an order whose voucher is up to date. -/
theorem fetchOrderPricesIfExpired_base (heditable : o.isEditable = true)
    (hwith : s.pricesEnteredWithTax = false) (hcharge : s.shouldChargeTax = false)
    (h : VoucherApplied o) :
    fetchOrderPricesIfExpired prices s o = some (getOrderBasePrices prices s.places o) := by
  rw [fetchOrderPricesIfExpired, if_neg (by simp [heditable])]
  simp only [updateOrderDiscountForVoucher_of_applied h, hwith, hcharge]
  rfl

end Base

/-! ### When another run leaves everything as it is -/

/-- **The next run finds what this one does**: no taxes are computed, or what stands on the order
prices the lines as its discounts do, and nothing is lost if the taxes are removed. -/
def Settled (prices : PricesPackage) (s : TaxSettings) (order : Order) : Prop :=
  s.pricesEnteredWithTax = false ∧ s.shouldChargeTax = false ∨
    Agrees prices s.toTaxContext (updateOrderDiscountForVoucher order) ∧
      (s.shouldChargeTax = false → Untaxed s.toTaxContext (updateOrderDiscountForVoucher order))

section Main

variable {prices : PricesPackage} {s : TaxSettings} {o order first : Order}

/-- The amounts that stand on the discounts are those that they come to, and so is the undiscounted
total. -/
theorem agrees_of_storedDiscount {t : TaxContext} (h : storedDiscount o = dueDiscount prices o) :
    Agrees prices t o := by
  rw [Agrees, h]

theorem isEditable_updateOrderDiscountForVoucher (o : Order) :
    (updateOrderDiscountForVoucher o).isEditable = o.isEditable := by
  rw [updateOrderDiscountForVoucher]
  split
  · rfl
  · split
    · rfl
    · split
      · rfl
      · rfl

/-- A run begins with the discount of the voucher. -/
theorem fetchOrderPricesIfExpired_updated (heditable : order.isEditable = true) :
    fetchOrderPricesIfExpired prices s (updateOrderDiscountForVoucher order)
      = fetchOrderPricesIfExpired prices s order := by
  have hne : ¬ order.isEditable = false := by simp [heditable]
  rw [fetchOrderPricesIfExpired, fetchOrderPricesIfExpired,
    isEditable_updateOrderDiscountForVoucher, updateOrderDiscountForVoucher_of_applied
      (voucherApplied_updateOrderDiscountForVoucher order), if_neg hne, if_neg hne]

theorem stays_of_fetch (h : fetchOrderPricesIfExpired prices s o = some o) : Stays prices s o :=
  ⟨o, h, rfl, rfl, rfl, rfl⟩

end Main

/-- Flat rates of zero, on prices to the cent. -/
def zeroRates : TaxSettings := { untaxed with shouldChargeTax := true }

/-- An item for 10, with a tenth off that was recorded. -/
def tenthOff : Order where
  discounts := ⟨[⟨1, .manual, .percentage, 10, 1⟩], List.nodup_singleton _⟩
  baseShippingPrice := 0
  undiscountedTotal := ⟨10, 10⟩
  lines := [tenOf (some 1)]

/-- An item for 10, and a voucher of 2 off the order that was just entered. -/
def draft : Order where
  voucher := some ⟨.entireOrder, .fixed, some 2⟩
  voucherCode := some "TWO"
  discounts := ⟨[], List.nodup_nil⟩
  baseShippingPrice := 0
  lines := [tenOf (some 1)]

end PriceRefresh

end Aixinwu
