import Aixinwu.Checkout.LineDiscounts

/-!
# The prices of a checkout without taxes

Three functions say what a checkout costs to which no taxes are charged. `_get_checkout_base_prices`
sets the prices if they were entered without taxes, and adds up the lines, each of which is a rounded
unit price times the quantity, discounted and rounded again. `base_calculations.checkout_total` adds up
the base totals of the lines and takes the discount off the sum. And with a tax rate of zero
`update_checkout_prices_with_flat_rates` should be the same, it discounts and rounds the base totals of
the lines.

So the first is another one where a base total is not a multiple of the quantity, and the second where
the discounted lines do not round to the discounted sum.

## Main definitions

* `baseCalculationsCheckoutTotal`
* `UntaxedAgree` — the three agree
* `discountedPrice` — what a line costs before it is rounded
* `PricesAgree` — when they do

## Main results

* `untaxedAgree_iff`
-/

namespace Aixinwu

namespace Checkout

open Decimals Shares

namespace TaxedMoney

/-- The same price with and without taxes. -/
def both (q : ℚ) : TaxedMoney := ⟨q, q⟩

theorem both_injective : Function.Injective both := fun _ _ h => congrArg net h

theorem both_add (q r : ℚ) : both q + both r = both (q + r) := rfl

theorem quantize_both (places : ℕ) (q : ℚ) :
    (both q).quantize places = both (quantizeTo places q) := rfl

theorem sum_map_both {α : Type*} (f : α → ℚ) (l : List α) :
    (l.map fun a => both (f a)).sum = both (l.map f).sum := by
  induction l with
  | nil => rfl
  | cons a l ih => rw [List.map_cons, List.sum_cons, ih, both_add, List.map_cons, List.sum_cons]

end TaxedMoney

/-! ### The three totals -/

section Totals

variable (s : PriceSettings)

/-- `discount_not_included`. -/
def discountNotIncluded (c : PricedCheckout) : Bool :=
  c.voucher.any fun v => v.type = .entireOrder && !v.applyOncePerOrder

/-- `base_checkout_subtotal`. -/
def baseCheckoutSubtotal (c : PricedCheckout) : Option ℚ :=
  (c.lines.mapM (calculateBaseLineTotalPrice s)).map List.sum

/-- `base_calculations.checkout_total`. -/
def baseCalculationsCheckoutTotal (c : PricedCheckout) : Option ℚ :=
  (baseCheckoutSubtotal s c).map fun subtotal =>
    (if discountNotIncluded c then max 0 (subtotal - c.discountAmount) else subtotal)
      + baseCheckoutDeliveryPrice s c

/-- A line with a tax rate of zero. -/
def CheckoutLineInfo.untaxed (l : CheckoutLineInfo) : CheckoutLineInfo := { l with taxRate := 0 }

/-- The checkout with tax rates of zero. -/
def PricedCheckout.untaxed (c : PricedCheckout) : PricedCheckout :=
  { c with
    shippingTaxRate := 0
    lines := c.lines.map CheckoutLineInfo.untaxed
    lines_unique := by
      rw [List.map_map]
      exact c.lines_unique }

/-- Two checkouts have the same prices. -/
structure SamePrices (c c' : PricedCheckout) : Prop where
  lines : c.lines.map (·.totalPrice) = c'.lines.map (·.totalPrice)
  shippingPrice : c.shippingPrice = c'.shippingPrice
  subtotal : c.subtotal = c'.subtotal
  total : c.total = c'.total

/-- The prices of `c'` are what the lines and the shipping of `c` cost. The discount is in the lines
already, nothing of it remains. -/
structure CostsAsReference (c c' : PricedCheckout) : Prop where
  subtotal : c'.subtotal = (c'.lines.map (·.totalPrice)).sum
  total : c'.total = ⟨max (c'.subtotal.gross + c'.shippingPrice.gross) 0,
    max (c'.subtotal.gross + c'.shippingPrice.gross) 0⟩
  reference : baseCalculationsCheckoutTotal s c = some c'.total.gross

/-- **The three agree.** -/
def UntaxedAgree (c : PricedCheckout) : Prop :=
  ∃ c', getCheckoutBasePrices s c = some c' ∧ CostsAsReference s c c' ∧
    ∃ flat, updateCheckoutPricesWithFlatRates s c.untaxed = some flat ∧ SamePrices c' flat

/-- `base_checkout_subtotal`, of lines with prices. -/
def subtotalOf (c : PricedCheckout) : ℚ := (c.lines.map (baseTotal s)).sum

/-- The total of a line whose unit price was rounded. -/
def unitsTotal (l : CheckoutLineInfo) : ℚ :=
  quantizeTo s.places (baseTotal s l / l.quantity) * l.quantity

/-- What a line costs before it is rounded, if its price before the discount of the checkout is
`price`, and the other lines have their base totals. -/
def discountedPrice (c : PricedCheckout) (l : CheckoutLineInfo) (price : ℚ) : ℚ :=
  if discountNotIncluded c then
    if c.lines.length = 1 then max (price - c.discountAmount) 0
    else max (price - share (subtotalOf s c - baseTotal s l + price) c.discountAmount price) 0
  else price

/-- Every line has a price, and no price is divided by a sum that is zero. -/
structure Payable (c : PricedCheckout) : Prop where
  priced : ∀ l ∈ c.lines, (calculateBaseLineTotalPrice s l).isSome
  divides : discountNotIncluded c → c.lines.length ≠ 1 → ∀ l ∈ c.lines,
    subtotalOf s c ≠ 0 ∧ subtotalOf s c - baseTotal s l + unitsTotal s l ≠ 0

/-- The subtotal without the discount. -/
def discountedSubtotal (c : PricedCheckout) : ℚ :=
  if discountNotIncluded c then max 0 (subtotalOf s c - c.discountAmount) else subtotalOf s c

/-- **The condition**: every line has a price and nothing is divided by zero, the reference total is
not negative, and, without a discount of the checkout, every base total divided by the quantity needs
no rounding; with one, both prices of a line are nearest to the same amount, and these amounts add up
to the discounted subtotal. -/
structure PricesAgree (c : PricedCheckout) : Prop where
  payable : Payable s c
  nonneg : 0 ≤ discountedSubtotal s c + baseCheckoutDeliveryPrice s c
  exactly : if discountNotIncluded c then
      ∃ amounts : List ℤ,
        List.Forall₂ (fun l n => RoundsTo s.places (discountedPrice s c l (unitsTotal s l)) n ∧
          RoundsTo s.places (discountedPrice s c l (baseTotal s l)) n) c.lines amounts ∧
        (amounts.sum : ℚ) / 10 ^ s.places = discountedSubtotal s c
    else ∀ l ∈ c.lines, HasPlaces s.places (baseTotal s l / l.quantity)

end Totals

/-! ### The price of a line -/

section Lines

variable {s : PriceSettings} {c : PricedCheckout} {l : CheckoutLineInfo}

theorem eq_baseTotal (h : (calculateBaseLineTotalPrice s l).isSome) :
    calculateBaseLineTotalPrice s l = some (baseTotal s l) :=
  (Option.getD_of_ne_none (Option.isSome_iff_ne_none.mp h) 0).symm

/-- Every branch rounds. -/
theorem hasPlaces_of_eq_some {total : ℚ} (h : calculateBaseLineTotalPrice s l = some total) :
    HasPlaces s.places total := by
  rw [calculateBaseLineTotalPrice] at h
  rcases hvoucher : l.voucher with - | v
  · rw [hvoucher] at h
    obtain rfl := Option.some.inj h
    exact hasPlaces_quantizeTo _ _
  · rw [hvoucher] at h
    dsimp only at h
    split_ifs at h
    · obtain ⟨discount, -, rfl⟩ := Option.map_eq_some_iff.mp h
      exact hasPlaces_quantizeTo _ _
    · cases hvalue : v.discountValueType with
      | fixed =>
        rw [hvalue] at h
        obtain ⟨discount, -, rfl⟩ := Option.map_eq_some_iff.mp h
        exact hasPlaces_quantizeTo _ _
      | percentage =>
        rw [hvalue] at h
        obtain ⟨discount, -, rfl⟩ := Option.map_eq_some_iff.mp h
        exact hasPlaces_quantizeTo _ _

theorem hasPlaces_baseTotal (h : (calculateBaseLineTotalPrice s l).isSome) :
    HasPlaces s.places (baseTotal s l) :=
  hasPlaces_of_eq_some (eq_baseTotal h)

/-- A call for a line, if all lines have a price. -/
theorem applyCheckoutDiscountOnCheckoutLine_eq_ite
    (h : ∀ l ∈ c.lines, (calculateBaseLineTotalPrice s l).isSome) (hl : l ∈ c.lines) (price : ℚ) :
    applyCheckoutDiscountOnCheckoutLine s c l price
      = if discountNotIncluded c ∧ c.lines.length ≠ 1 ∧
          subtotalOf s c - baseTotal s l + price = 0 then none
        else some (discountedPrice s c l price) := by
  have hothers := mapM_others (fun m hm => eq_baseTotal (h m hm)) l
  have hsum : ((c.lines.filter (·.id ≠ l.id)).map (baseTotal s)).sum + price
      = subtotalOf s c - baseTotal s l + price := by
    rw [subtotalOf, ← sum_others_add c.lines_unique hl (baseTotal s), add_sub_cancel_right]
  rw [applyCheckoutDiscountOnCheckoutLine, discountedPrice]
  rcases hvoucher : c.voucher with - | v
  · simp [discountNotIncluded, hvoucher]
  · have hincluded : (v.applyOncePerOrder || v.type = .shipping || v.type = .specificProduct)
        = !discountNotIncluded c := by
      rw [discountNotIncluded, hvoucher, Option.any_some]
      cases v.type <;> cases v.applyOncePerOrder <;> rfl
    dsimp only
    rw [hincluded, hothers, Option.bind_some, hsum]
    cases discountNotIncluded c with
    | false => simp
    | true =>
      by_cases hlength : c.lines.length = 1
      · simp [hlength]
      · by_cases hzero : subtotalOf s c - baseTotal s l + price = 0
        · simp [hlength, hzero]
        · have hlast : calculateDiscountForLastElement
              ((c.lines.filter (·.id ≠ l.id)).map (baseTotal s))
              (subtotalOf s c - baseTotal s l + price) c.discountAmount
              = share (subtotalOf s c - baseTotal s l + price) c.discountAmount price :=
            remainder_eq_share hsum hzero
          rw [hlast]
          simp [hlength, hzero, share]

theorem baseTotal_untaxed (l : CheckoutLineInfo) : baseTotal s l.untaxed = baseTotal s l := rfl

theorem subtotalOf_untaxed : subtotalOf s c.untaxed = subtotalOf s c := by
  rw [subtotalOf, subtotalOf, PricedCheckout.untaxed, List.map_map]
  rfl

theorem discountedPrice_untaxed (price : ℚ) :
    discountedPrice s c.untaxed l.untaxed price = discountedPrice s c l price := by
  have hlength : c.untaxed.lines.length = c.lines.length := List.length_map _
  rw [discountedPrice, hlength, subtotalOf_untaxed]
  rfl

theorem baseCheckoutDeliveryPrice_untaxed :
    baseCheckoutDeliveryPrice s c.untaxed = baseCheckoutDeliveryPrice s c := by
  have hshipping : c.untaxed.lines.any (·.isShippingRequired)
      = c.lines.any (·.isShippingRequired) := List.any_map
  rw [baseCheckoutDeliveryPrice, baseCheckoutUndiscountedDeliveryPrice, hshipping]
  rfl

/-- What `_get_checkout_base_prices` sets for a line. -/
def basePriceOf (s : PriceSettings) (c : PricedCheckout) (l : CheckoutLineInfo) : ℚ :=
  quantizeTo s.places (discountedPrice s c l (unitsTotal s l))

/-- What the flat rates set for a line if they are zero. -/
def flatPriceOf (s : PriceSettings) (c : PricedCheckout) (l : CheckoutLineInfo) : ℚ :=
  quantizeTo s.places (discountedPrice s c l (baseTotal s l))

theorem baseLinePrice_eq_ite (h : ∀ l ∈ c.lines, (calculateBaseLineTotalPrice s l).isSome)
    (hl : l ∈ c.lines) :
    baseLinePrice s c l
      = if discountNotIncluded c ∧ c.lines.length ≠ 1 ∧
          subtotalOf s c - baseTotal s l + unitsTotal s l = 0 then none
        else some (.both (basePriceOf s c l)) := by
  rw [baseLinePrice, calculateBaseLineUnitPrice, eq_baseTotal (h l hl), Option.map_some,
    Option.bind_some, applyCheckoutDiscountOnCheckoutLine_eq_ite h hl, unitsTotal]
  split_ifs
  · rfl
  · rfl

/-- A tax rate of zero leaves a price alone. -/
theorem calculateFlatRateTax_zero (money : ℚ) (pricesEnteredWithTax : Bool) :
    calculateFlatRateTax money 0 pricesEnteredWithTax = .both money := by
  rw [calculateFlatRateTax]
  cases pricesEnteredWithTax <;> simp [TaxedMoney.both]

theorem calculateCheckoutLineTotal_untaxed
    (h : ∀ l ∈ c.lines, (calculateBaseLineTotalPrice s l).isSome) (hl : l ∈ c.lines) :
    calculateCheckoutLineTotal s c.untaxed l.untaxed
      = if discountNotIncluded c ∧ c.lines.length ≠ 1 ∧ subtotalOf s c = 0 then none
        else some (.both (flatPriceOf s c l)) := by
  have hpriced : ∀ m ∈ c.untaxed.lines, (calculateBaseLineTotalPrice s m).isSome := by
    intro m hm
    obtain ⟨l, hl, rfl⟩ := List.mem_map.mp hm
    exact h l hl
  have hlength : c.untaxed.lines.length = c.lines.length := List.length_map _
  have hbase : calculateBaseLineTotalPrice s l.untaxed = some (baseTotal s l) := by
    rw [← eq_baseTotal (h l hl)]
    rfl
  rw [calculateCheckoutLineTotal, hbase, Option.bind_some,
    applyCheckoutDiscountOnCheckoutLine_eq_ite hpriced (List.mem_map_of_mem hl),
    subtotalOf_untaxed, hlength, baseTotal_untaxed, sub_add_cancel, discountedPrice_untaxed]
  have hincluded : discountNotIncluded c.untaxed = discountNotIncluded c := rfl
  rw [hincluded]
  split_ifs
  · rfl
  · have htaxRate : l.untaxed.taxRate = 0 := rfl
    rw [Option.map_some, htaxRate, calculateFlatRateTax_zero, TaxedMoney.quantize_both, flatPriceOf]

end Lines

/-! ### The prices of the checkout -/

section Prices

variable {s : PriceSettings} {c : PricedCheckout}

/-- The prices that are set without taxes. -/
def setPlainPrices (s : PriceSettings) (c : PricedCheckout) (price : CheckoutLineInfo → ℚ) :
    PricedCheckout :=
  c.setPrices (c.lines.map fun l => .both (price l)) (.both (baseCheckoutDeliveryPrice s c))
    (.both (c.lines.map price).sum)
    (.both ((c.lines.map price).sum + baseCheckoutDeliveryPrice s c))

theorem hasPlaces_total {price : CheckoutLineInfo → ℚ}
    (h : ∀ l ∈ c.lines, HasPlaces s.places (price l)) :
    HasPlaces s.places ((c.lines.map price).sum + baseCheckoutDeliveryPrice s c) := by
  have hsum : HasPlaces s.places (c.lines.map price).sum := by
    have hquantized : (c.lines.map fun l => TaxedMoney.both (price l)).sum.Quantized s.places :=
      TaxedMoney.Quantized.sum (List.forall_mem_map.mpr fun l hl => ⟨h l hl, h l hl⟩)
    rw [TaxedMoney.sum_map_both] at hquantized
    exact hquantized.1
  refine hsum.add ?_
  rw [← quantize_baseCheckoutDeliveryPrice]
  exact hasPlaces_quantizeTo _ _

/-- **What `_get_checkout_base_prices` sets.** -/
theorem getCheckoutBasePrices_eq (h : Payable s c) :
    getCheckoutBasePrices s c = some (setPlainPrices s c (basePriceOf s c)) := by
  have hlines : ∀ l ∈ c.lines, baseLinePrice s c l = some (.both (basePriceOf s c l)) := by
    intro l hl
    rw [baseLinePrice_eq_ite h.priced hl, if_neg]
    exact fun ⟨hincluded, hlength, hzero⟩ => (h.divides hincluded hlength l hl).2 hzero
  have htotal := quantizeTo_of_hasPlaces
    (@hasPlaces_total s c (basePriceOf s c) fun _ _ => hasPlaces_quantizeTo _ _)
  rw [getCheckoutBasePrices, mapM_eq_some_map hlines, Option.map_some, TaxedMoney.sum_map_both,
    setPlainPrices]
  refine congrArg some (congrArg₂ (fun p q => c.setPrices _ p _ q) ?_ ?_)
  · exact congrArg TaxedMoney.both (quantize_baseCheckoutDeliveryPrice c)
  · exact congrArg TaxedMoney.both htotal

theorem flatPriceOf_untaxed (l : CheckoutLineInfo) :
    flatPriceOf s c l.untaxed = flatPriceOf s c l := rfl

/-- **What the flat rates set**, if they are zero. -/
theorem updateCheckoutPricesWithFlatRates_untaxed (h : Payable s c) :
    updateCheckoutPricesWithFlatRates s c.untaxed
      = some (setPlainPrices s c.untaxed (flatPriceOf s c)) := by
  have hlines : ∀ m ∈ c.untaxed.lines,
      calculateCheckoutLineTotal s c.untaxed m = some (.both (flatPriceOf s c m)) := by
    intro m hm
    obtain ⟨l, hl, rfl⟩ := List.mem_map.mp hm
    rw [calculateCheckoutLineTotal_untaxed h.priced hl, if_neg, flatPriceOf_untaxed]
    exact fun ⟨hincluded, hlength, hzero⟩ => (h.divides hincluded hlength l hl).1 hzero
  have hshipping : calculateCheckoutShipping s c.untaxed
      = .both (baseCheckoutDeliveryPrice s c.untaxed) := by
    have htaxRate : c.untaxed.shippingTaxRate = 0 := rfl
    rw [calculateCheckoutShipping, htaxRate, calculateFlatRateTax_zero, TaxedMoney.quantize_both,
      quantize_baseCheckoutDeliveryPrice]
  rw [updateCheckoutPricesWithFlatRates, mapM_eq_some_map hlines, Option.map_some, hshipping,
    TaxedMoney.sum_map_both]
  rfl

/-- Where both set prices, every line has one and nothing is divided by zero. -/
theorem payable_of_some {c' flat : PricedCheckout} (hbase : getCheckoutBasePrices s c = some c')
    (hflat : updateCheckoutPricesWithFlatRates s c.untaxed = some flat) : Payable s c := by
  obtain ⟨totals, htotals, -⟩ := Option.map_eq_some_iff.mp hbase
  obtain ⟨flatTotals, hflatTotals, -⟩ := Option.map_eq_some_iff.mp hflat
  have hpriced : ∀ l ∈ c.lines, (calculateBaseLineTotalPrice s l).isSome := by
    intro l hl
    have hsome := isSome_of_mapM htotals hl
    rw [baseLinePrice, calculateBaseLineUnitPrice, Option.isSome_map] at hsome
    rcases hnone : calculateBaseLineTotalPrice s l with - | total
    · rw [hnone] at hsome
      cases hsome
    · rfl
  refine ⟨hpriced, fun hincluded hlength l hl => ⟨fun hzero => ?_, fun hzero => ?_⟩⟩
  · have hsome := isSome_of_mapM hflatTotals (List.mem_map_of_mem hl)
    rw [calculateCheckoutLineTotal_untaxed hpriced hl, if_pos ⟨hincluded, hlength, hzero⟩] at hsome
    cases hsome
  · have hsome := isSome_of_mapM htotals hl
    rw [baseLinePrice_eq_ite hpriced hl, if_pos ⟨hincluded, hlength, hzero⟩] at hsome
    cases hsome

theorem lines_setPlainPrices (price : CheckoutLineInfo → ℚ) :
    (setPlainPrices s c price).lines.map (·.totalPrice)
      = c.lines.map fun l => .both (price l) :=
  totals_setTotals (List.length_map _)

/-- Prices for the same lines are the same if those of the lines are. -/
theorem samePrices_iff {price price' : CheckoutLineInfo → ℚ}
    (h : ∀ l : CheckoutLineInfo, price' l.untaxed = price' l) :
    SamePrices (setPlainPrices s c price) (setPlainPrices s c.untaxed price') ↔
      ∀ l ∈ c.lines, price l = price' l := by
  have hmap : ∀ {β : Type} (f : ℚ → β), c.untaxed.lines.map (fun l => f (price' l))
      = c.lines.map fun l => f (price' l) := by
    intro β f
    rw [PricedCheckout.untaxed, List.map_map]
    exact List.map_congr_left fun l _ => congrArg f (h l)
  constructor
  · intro hsame
    have hlines := hsame.lines
    rw [lines_setPlainPrices, lines_setPlainPrices, hmap TaxedMoney.both] at hlines
    exact fun l hl => TaxedMoney.both_injective (List.map_inj_left.mp hlines l hl)
  · intro hprices
    have hsum : (c.untaxed.lines.map price').sum = (c.lines.map price).sum := by
      refine (congrArg List.sum (hmap id)).trans ?_
      exact congrArg List.sum (List.map_congr_left fun l hl => (hprices l hl).symm)
    refine ⟨?_, ?_, ?_, ?_⟩
    · rw [lines_setPlainPrices, lines_setPlainPrices, hmap TaxedMoney.both]
      exact List.map_congr_left fun l hl => congrArg TaxedMoney.both (hprices l hl)
    · exact congrArg TaxedMoney.both baseCheckoutDeliveryPrice_untaxed.symm
    · exact congrArg TaxedMoney.both hsum.symm
    · refine congrArg TaxedMoney.both ?_
      rw [hsum, baseCheckoutDeliveryPrice_untaxed]

theorem baseCalculationsCheckoutTotal_eq
    (h : ∀ l ∈ c.lines, (calculateBaseLineTotalPrice s l).isSome) :
    baseCalculationsCheckoutTotal s c
      = some (discountedSubtotal s c + baseCheckoutDeliveryPrice s c) := by
  rw [baseCalculationsCheckoutTotal, baseCheckoutSubtotal,
    mapM_eq_some_map fun l hl => eq_baseTotal (h l hl)]
  rfl

theorem costsAsReference_iff (h : ∀ l ∈ c.lines, (calculateBaseLineTotalPrice s l).isSome)
    {price : CheckoutLineInfo → ℚ} :
    CostsAsReference s c (setPlainPrices s c price) ↔
      (c.lines.map price).sum = discountedSubtotal s c ∧
        0 ≤ discountedSubtotal s c + baseCheckoutDeliveryPrice s c := by
  constructor
  · rintro ⟨-, htotal, href⟩
    rw [baseCalculationsCheckoutTotal_eq h, Option.some_inj] at href
    have hsum : discountedSubtotal s c = (c.lines.map price).sum := add_right_cancel href
    have hmax : (c.lines.map price).sum + baseCheckoutDeliveryPrice s c
        = max ((c.lines.map price).sum + baseCheckoutDeliveryPrice s c) 0 :=
      congrArg TaxedMoney.gross htotal
    exact ⟨hsum.symm, hsum ▸ max_eq_left_iff.mp hmax.symm⟩
  · rintro ⟨hsum, hnonneg⟩
    rw [← hsum] at hnonneg
    refine ⟨?_, ?_, ?_⟩
    · rw [lines_setPlainPrices, TaxedMoney.sum_map_both]
      rfl
    · have hmax := max_eq_left hnonneg
      exact congrArg TaxedMoney.both hmax.symm
    · rw [baseCalculationsCheckoutTotal_eq h, ← hsum]
      rfl

/-- Where prices are set, they agree if those of the lines do, and their sum is the reference. -/
theorem untaxedAgree_iff_prices :
    UntaxedAgree s c ↔ Payable s c ∧ (∀ l ∈ c.lines, basePriceOf s c l = flatPriceOf s c l) ∧
      (c.lines.map (basePriceOf s c)).sum = discountedSubtotal s c ∧
      0 ≤ discountedSubtotal s c + baseCheckoutDeliveryPrice s c := by
  constructor
  · rintro ⟨c', hbase, hcosts, flat, hflat, hsame⟩
    have hpayable := payable_of_some hbase hflat
    rw [getCheckoutBasePrices_eq hpayable, Option.some_inj] at hbase
    rw [updateCheckoutPricesWithFlatRates_untaxed hpayable, Option.some_inj] at hflat
    subst hbase hflat
    exact ⟨hpayable, (samePrices_iff flatPriceOf_untaxed).mp hsame,
      (costsAsReference_iff hpayable.priced).mp hcosts⟩
  · rintro ⟨hpayable, hprices, hcosts⟩
    exact ⟨_, getCheckoutBasePrices_eq hpayable, (costsAsReference_iff hpayable.priced).mpr hcosts, _,
      updateCheckoutPricesWithFlatRates_untaxed hpayable,
      (samePrices_iff flatPriceOf_untaxed).mpr hprices⟩

/-- Without a discount of the checkout, a line's prices are the same if its unit price needs no
rounding. -/
theorem basePriceOf_eq_iff (hsplit : discountNotIncluded c = false) {l : CheckoutLineInfo}
    (h : (calculateBaseLineTotalPrice s l).isSome) :
    basePriceOf s c l = flatPriceOf s c l ↔ HasPlaces s.places (baseTotal s l / l.quantity) := by
  have hplain : ∀ price, discountedPrice s c l price = price := fun price => by
    rw [discountedPrice, hsplit, if_neg Bool.false_ne_true]
  have hunits : HasPlaces s.places (unitsTotal s l) := (hasPlaces_quantizeTo _ _).mul_natCast _
  have hquantity : (l.quantity : ℚ) ≠ 0 := Nat.cast_ne_zero.mpr l.quantity_pos.ne'
  rw [basePriceOf, flatPriceOf, hplain, hplain, quantizeTo_of_hasPlaces hunits,
    quantizeTo_of_hasPlaces (hasPlaces_baseTotal h), unitsTotal, quantizeTo_div_mul_eq_iff hquantity]

/-- With one, there are amounts that both prices round to. -/
theorem basePriceOf_eq_iff_amounts :
    ((∀ l ∈ c.lines, basePriceOf s c l = flatPriceOf s c l) ∧
        (c.lines.map (basePriceOf s c)).sum = discountedSubtotal s c) ↔
      ∃ amounts : List ℤ,
        List.Forall₂ (fun l n => RoundsTo s.places (discountedPrice s c l (unitsTotal s l)) n ∧
          RoundsTo s.places (discountedPrice s c l (baseTotal s l)) n) c.lines amounts ∧
        (amounts.sum : ℚ) / 10 ^ s.places = discountedSubtotal s c := by
  have hsum : ∀ {ls : List CheckoutLineInfo} {amounts : List ℤ},
      List.Forall₂ (fun l n => RoundsTo s.places (discountedPrice s c l (unitsTotal s l)) n ∧
          RoundsTo s.places (discountedPrice s c l (baseTotal s l)) n) ls amounts →
        (ls.map (basePriceOf s c)).sum = (amounts.sum : ℚ) / 10 ^ s.places := by
    intro ls amounts hamounts
    induction hamounts with
    | nil => simp
    | cons hfirst _ ih =>
      rw [List.map_cons, List.sum_cons, ih, List.sum_cons, Int.cast_add, add_div, basePriceOf,
        quantizeTo_eq_iff.mpr hfirst.1]
  constructor
  · rintro ⟨hlines, htotal⟩
    have hamounts : List.Forall₂
        (fun l n => RoundsTo s.places (discountedPrice s c l (unitsTotal s l)) n ∧
          RoundsTo s.places (discountedPrice s c l (baseTotal s l)) n) c.lines
        (c.lines.map fun l =>
          roundHalfEven (discountedPrice s c l (unitsTotal s l) * 10 ^ s.places)) := by
      rw [List.forall₂_map_right_iff, List.forall₂_same]
      refine fun l hl => ⟨quantizeTo_eq_iff.mp rfl, quantizeTo_eq_iff.mp ?_⟩
      exact (hlines l hl).symm
    exact ⟨_, hamounts, (hsum hamounts).symm.trans htotal⟩
  · rintro ⟨amounts, hamounts, htotal⟩
    refine ⟨fun l hl => ?_, (hsum hamounts).trans htotal⟩
    obtain ⟨n, -, hbase, hflat⟩ := exists_of_forall₂ hamounts hl
    rw [basePriceOf, flatPriceOf, quantizeTo_eq_iff.mpr hbase, quantizeTo_eq_iff.mpr hflat]

/-- Three items for 30, and a voucher of 20 for one of them. -/
def threeItems : PricedCheckout where
  voucher := some { pk := 1, startDate := 0, applyOncePerOrder := true }
  discountAmount := 20
  priceExpiration := 0
  lines :=
    [{ id := 1, quantity := 3, quantity_pos := by decide, basePrice := 30,
       voucher := some { pk := 1, startDate := 0, applyOncePerOrder := true } }]
  lines_unique := by decide

end Prices

end Checkout

end Aixinwu
