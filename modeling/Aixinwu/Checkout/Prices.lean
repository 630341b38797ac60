import Aixinwu.Checkout.Models
import Aixinwu.Lib.Aggregates
import Mathlib.Algebra.BigOperators.Group.List.Basic
import Mathlib.Data.Rat.Floor

/-!
# The prices of a checkout

`checkout/base_calculations.py` works out what a checkout costs before taxes,
`tax/calculations/checkout.py` and `checkout/calculations.py` put the taxes on it and keep the
result on the checkout and its lines until it expires. A voucher enters at one of three places: a
voucher for specific products, or one that applies once per order, is in the base price of a line; a
voucher for the entire order is spread over the lines; a voucher for the shipping is taken off the
shipping price. So whatever its type, it is in the total before anyone looks at
`checkout.discount`.

## Amounts

A price in memory is a `Decimal`, here a rational. `quantize_price` rounds half to even to the
places of the currency.

## What is deliberately absent

The tax rates that are stored beside the prices, the refresh of the promotions of the lines, and
how a voucher comes to stand on a line. What a voucher takes off a price is calculated by the
package `prices`, whose two rules are parameters, and so are the prices that plugins and tax apps
return.

## Main definitions

* `TaxedMoney`, `CheckoutLineInfo`, `PricedCheckout`, `PriceSettings`
* `calculateBaseLineTotalPrice`, `applyCheckoutDiscountOnCheckoutLine`, `baseCheckoutDeliveryPrice`
* `fetchCheckoutPricesIfExpired`

## Main results

* `addsUp_fetchCheckoutPrices` — the total is what the lines and the shipping cost
-/

namespace Aixinwu

namespace Checkout

open Decimals

/-- `prices.TaxedMoney`. -/
structure TaxedMoney where
  net : ℚ
  gross : ℚ
deriving DecidableEq, Repr

namespace TaxedMoney

instance : Zero TaxedMoney := ⟨⟨0, 0⟩⟩

instance : Add TaxedMoney := ⟨fun p q => ⟨p.net + q.net, p.gross + q.gross⟩⟩

@[simp] theorem net_zero : (0 : TaxedMoney).net = 0 := rfl

@[simp] theorem gross_zero : (0 : TaxedMoney).gross = 0 := rfl

@[simp] theorem net_add (p q : TaxedMoney) : (p + q).net = p.net + q.net := rfl

@[simp] theorem gross_add (p q : TaxedMoney) : (p + q).gross = p.gross + q.gross := rfl

/-- Taking an amount off takes it off both prices. -/
def subMoney (p : TaxedMoney) (m : ℚ) : TaxedMoney := ⟨p.net - m, p.gross - m⟩

/-- `quantize_price`. -/
def quantize (places : ℕ) (p : TaxedMoney) : TaxedMoney :=
  ⟨quantizeTo places p.net, quantizeTo places p.gross⟩

/-- `max(p, q)`, which compares the gross prices. -/
def max (p q : TaxedMoney) : TaxedMoney := if p.gross < q.gross then q else p

theorem gross_sum (ps : List TaxedMoney) : ps.sum.gross = (ps.map (·.gross)).sum := by
  induction ps with
  | nil => rfl
  | cons p ps ih => rw [List.sum_cons, gross_add, ih, List.map_cons, List.sum_cons]

/-- Both prices have no more places than the currency. -/
def Quantized (places : ℕ) (p : TaxedMoney) : Prop :=
  HasPlaces places p.net ∧ HasPlaces places p.gross

theorem quantized_quantize (places : ℕ) (p : TaxedMoney) : (p.quantize places).Quantized places :=
  ⟨hasPlaces_quantizeTo places p.net, hasPlaces_quantizeTo places p.gross⟩

theorem quantized_zero (places : ℕ) : (0 : TaxedMoney).Quantized places :=
  ⟨hasPlaces_zero places, hasPlaces_zero places⟩

theorem Quantized.add {places : ℕ} {p q : TaxedMoney} (hp : p.Quantized places)
    (hq : q.Quantized places) : (p + q).Quantized places :=
  ⟨hp.1.add hq.1, hp.2.add hq.2⟩

theorem Quantized.sum {places : ℕ} {ps : List TaxedMoney} (h : ∀ p ∈ ps, p.Quantized places) :
    ps.sum.Quantized places := by
  induction ps with
  | nil => exact quantized_zero places
  | cons p ps ih =>
    rw [List.sum_cons]
    exact (h p List.mem_cons_self).add (ih fun q hq => h q (List.mem_cons_of_mem p hq))

theorem quantize_of_quantized {places : ℕ} {p : TaxedMoney} (h : p.Quantized places) :
    p.quantize places = p := by
  rw [quantize, quantizeTo_of_hasPlaces h.1, quantizeTo_of_hasPlaces h.2]

end TaxedMoney

/-- `checkout.fetch.CheckoutLineInfo`, with the line's own prices. `basePrice` is the base price of
the variant in the channel or the price that overrides it, `discounts` are the amounts of the
promotions, `taxRate` is the rate of the tax class in the country. The quantity of a line is
validated to be positive. -/
structure CheckoutLineInfo where
  id : ℕ
  quantity : ℕ
  quantity_pos : 0 < quantity
  isShippingRequired : Bool := true
  basePrice : ℚ
  discounts : List ℚ := []
  voucher : Option Voucher := none
  taxRate : ℚ := 0
  totalPrice : TaxedMoney := 0
deriving DecidableEq, Repr

instance : HasPk CheckoutLineInfo ℕ := ⟨CheckoutLineInfo.id⟩

/-- `line.total_price = …`. -/
def CheckoutLineInfo.setTotalPrice (l : CheckoutLineInfo) (p : TaxedMoney) : CheckoutLineInfo :=
  { l with totalPrice := p }

/-- The totals of the lines, one after the other, as far as there are any. -/
def setTotals : List CheckoutLineInfo → List TaxedMoney → List CheckoutLineInfo
  | l :: ls, p :: ps => l.setTotalPrice p :: setTotals ls ps
  | ls, _ => ls

theorem ids_setTotals : ∀ (ls : List CheckoutLineInfo) (ps : List TaxedMoney),
    (setTotals ls ps).map (·.id) = ls.map (·.id)
  | [], _ => by rw [setTotals]; intros; contradiction
  | _ :: _, [] => by rw [setTotals]; intros; contradiction
  | l :: ls, p :: ps => by
    rw [setTotals, List.map_cons, List.map_cons, ids_setTotals ls ps]
    rfl

theorem totals_setTotals : ∀ {ls : List CheckoutLineInfo} {ps : List TaxedMoney},
    ps.length = ls.length → (setTotals ls ps).map (·.totalPrice) = ps
  | [], [], _ => rfl
  | l :: ls, p :: ps, h => by
    rw [setTotals, List.map_cons, totals_setTotals (Nat.succ.inj h)]
    rfl

/-- The checkout with its prices and its lines. `voucher` is the voucher of the checkout,
`discountAmount` what it was found to be worth when it was put on the checkout; `shippingMethod` is
the price of the chosen shipping method. -/
structure PricedCheckout where
  voucher : Option Voucher := none
  discountAmount : ℚ := 0
  taxExemption : Bool := false
  priceExpiration : Time
  shippingMethod : Option ℚ := none
  shippingTaxRate : ℚ := 0
  shippingPrice : TaxedMoney := 0
  subtotal : TaxedMoney := 0
  total : TaxedMoney := 0
  lines : List CheckoutLineInfo
  lines_unique : (lines.map (·.id)).Nodup
deriving DecidableEq, Repr

/-- `TaxCalculationStrategy`. -/
inductive TaxCalculationStrategy where
  | flatRates
  | taxApp
deriving DecidableEq, Repr

/-- `core.taxes.TaxData`, as far as prices go. -/
structure TaxData where
  shippingPrice : TaxedMoney
  lines : List TaxedMoney
deriving DecidableEq, Repr

/-- What the plugins manager answers: its prices for the lines and for the checkout, and the tax
data of an app. -/
structure PluginPrices where
  lineTotal : List TaxedMoney
  shipping : TaxedMoney
  subtotal : TaxedMoney
  total : TaxedMoney
  taxData : Option TaxData := none
deriving DecidableEq, Repr

/-- What the calculation of prices is configured with. `places` are the decimal places of the
currency, `fixedDiscount` and `percentageDiscount` the rules of the package `prices`. -/
structure PriceSettings where
  places : ℕ
  fixedDiscount : ℚ → ℚ → ℚ
  percentageDiscount : ℚ → ℚ → ℚ
  channel : ℕ
  listings : List VoucherChannelListing
  pricesEnteredWithTax : Bool
  chargeTaxes : Bool
  strategy : TaxCalculationStrategy
  plugins : PluginPrices
  checkoutPricesTtl : Time

variable (s : PriceSettings)

/-! ### Base prices -/

/-- `Voucher.get_discount`; nothing where the voucher is not assigned to the channel. -/
def getDiscount (v : Voucher) : Option (ℚ → ℚ) :=
  (s.listings.find? fun l => l.voucher = v.pk && l.channel = s.channel).map fun l =>
    match v.discountValueType with
    | .fixed => fun price => s.fixedDiscount price l.discountValue
    | .percentage => fun price => s.percentageDiscount price l.discountValue

/-- `Voucher.get_discount_amount_for`. -/
def getDiscountAmountFor (v : Voucher) (price : ℚ) : Option ℚ :=
  (getDiscount s v).map fun discount => if discount price < 0 then price else price - discount price

/-- `calculate_base_line_total_price`. -/
def calculateBaseLineTotalPrice (l : CheckoutLineInfo) : Option ℚ :=
  let totalPrice := l.basePrice * l.quantity - l.discounts.sum
  let unitPrice := totalPrice / l.quantity
  match l.voucher with
  | none => some (quantizeTo s.places totalPrice)
  | some v =>
    if v.applyOncePerOrder then
      -- the voucher is for one item of the line
      (getDiscountAmountFor s v unitPrice).map fun discount =>
        quantizeTo s.places (unitPrice * (l.quantity - 1) + max (unitPrice - discount) 0)
    else
      match v.discountValueType with
      | .percentage =>
        (getDiscountAmountFor s v totalPrice).map fun discount =>
          quantizeTo s.places (max (totalPrice - discount) 0)
      | .fixed =>
        (getDiscountAmountFor s v unitPrice).map fun discount =>
          quantizeTo s.places (max (totalPrice - discount * l.quantity) 0)

/-- `calculate_base_line_unit_price`. -/
def calculateBaseLineUnitPrice (l : CheckoutLineInfo) : Option ℚ :=
  (calculateBaseLineTotalPrice s l).map fun total => quantizeTo s.places (total / l.quantity)

/-- `base_checkout_undiscounted_delivery_price`. -/
def baseCheckoutUndiscountedDeliveryPrice (c : PricedCheckout) : ℚ :=
  match c.shippingMethod with
  | none => 0
  | some price => if c.lines.any (·.isShippingRequired) then quantizeTo s.places price else 0

/-- `base_checkout_delivery_price`. -/
def baseCheckoutDeliveryPrice (c : PricedCheckout) : ℚ :=
  let shippingPrice := baseCheckoutUndiscountedDeliveryPrice s c
  if c.voucher.any (·.type = .shipping) then
    quantizeTo s.places (max 0 (shippingPrice - c.discountAmount))
  else quantizeTo s.places shippingPrice

/-- `_calculate_discount_for_last_element`. -/
def calculateDiscountForLastElement (linesTotalPrices : List ℚ) (totalPrice discount : ℚ) : ℚ :=
  discount - (linesTotalPrices.map fun p => p / totalPrice * discount).sum

/-- `apply_checkout_discount_on_checkout_line`; nothing where it divides by zero. -/
def applyCheckoutDiscountOnCheckoutLine (c : PricedCheckout) (l : CheckoutLineInfo) (price : ℚ) :
    Option ℚ :=
  match c.voucher with
  | none => some price
  | some v =>
    if v.applyOncePerOrder || v.type = .shipping || v.type = .specificProduct then some price
    else if c.lines.length = 1 then some (max (price - c.discountAmount) 0)
    else
      ((c.lines.filter (·.id ≠ l.id)).mapM (calculateBaseLineTotalPrice s)).bind fun others =>
        let totalPrice := others.sum + price
        if totalPrice = 0 then none
        else
          let discount :=
            if c.lines.getLast?.map (·.id) = some l.id then
              calculateDiscountForLastElement others totalPrice c.discountAmount
            else price / totalPrice * c.discountAmount
          some (max (price - discount) 0)

/-! ### Taxes -/

/-- `calculate_flat_rate_tax`. -/
def calculateFlatRateTax (money taxRate : ℚ) (pricesEnteredWithTax : Bool) : TaxedMoney :=
  let taxRate := 1 + taxRate / 100
  if pricesEnteredWithTax then ⟨money / taxRate, money⟩ else ⟨money, money * taxRate⟩

/-- `tax.calculations.checkout.calculate_checkout_line_total`. -/
def calculateCheckoutLineTotal (c : PricedCheckout) (l : CheckoutLineInfo) : Option TaxedMoney :=
  ((calculateBaseLineTotalPrice s l).bind (applyCheckoutDiscountOnCheckoutLine s c l)).map
    fun price => (calculateFlatRateTax price l.taxRate s.pricesEnteredWithTax).quantize s.places

/-- `tax.calculations.checkout.calculate_checkout_shipping`. -/
def calculateCheckoutShipping (c : PricedCheckout) : TaxedMoney :=
  (calculateFlatRateTax (baseCheckoutDeliveryPrice s c) c.shippingTaxRate
    s.pricesEnteredWithTax).quantize s.places

/-- The prices of a checkout and of its lines. -/
def PricedCheckout.setPrices (c : PricedCheckout) (totals : List TaxedMoney)
    (shippingPrice subtotal total : TaxedMoney) : PricedCheckout :=
  { c with
    shippingPrice := shippingPrice
    subtotal := subtotal
    total := total
    lines := setTotals c.lines totals
    lines_unique := by rw [ids_setTotals]; exact c.lines_unique }

/-- `update_checkout_prices_with_flat_rates`. -/
def updateCheckoutPricesWithFlatRates (c : PricedCheckout) : Option PricedCheckout :=
  (c.lines.mapM (calculateCheckoutLineTotal s c)).map fun totals =>
    let shippingPrice := calculateCheckoutShipping s c
    c.setPrices totals shippingPrice totals.sum (totals.sum + shippingPrice)

/-- `_get_checkout_base_prices`, for a line. -/
def baseLinePrice (c : PricedCheckout) (l : CheckoutLineInfo) : Option TaxedMoney :=
  ((calculateBaseLineUnitPrice s l).bind fun unitPrice =>
    applyCheckoutDiscountOnCheckoutLine s c l (unitPrice * l.quantity)).map fun price =>
      ⟨quantizeTo s.places price, quantizeTo s.places price⟩

/-- `_get_checkout_base_prices`. -/
def getCheckoutBasePrices (c : PricedCheckout) : Option PricedCheckout :=
  (c.lines.mapM (baseLinePrice s c)).map fun totals =>
    let shippingPrice : TaxedMoney :=
      ⟨baseCheckoutDeliveryPrice s c, baseCheckoutDeliveryPrice s c⟩
    c.setPrices totals (shippingPrice.quantize s.places) totals.sum
      ((totals.sum + shippingPrice).quantize s.places)

/-- `_apply_tax_data_from_plugins`. -/
def applyTaxDataFromPlugins (c : PricedCheckout) : PricedCheckout :=
  c.setPrices s.plugins.lineTotal s.plugins.shipping s.plugins.subtotal s.plugins.total

/-- `_apply_tax_data`. -/
def applyTaxData (c : PricedCheckout) : PricedCheckout :=
  match s.plugins.taxData with
  | none => c
  | some taxData =>
    let lines := setTotals c.lines (taxData.lines.map (·.quantize s.places))
    let shippingPrice := taxData.shippingPrice.quantize s.places
    let subtotal := (lines.map CheckoutLineInfo.totalPrice).sum.quantize s.places
    c.setPrices (taxData.lines.map (·.quantize s.places)) shippingPrice subtotal
      ((subtotal + shippingPrice).quantize s.places)

/-- `_calculate_and_add_tax`. -/
def calculateAndAddTax (c : PricedCheckout) : Option PricedCheckout :=
  match s.strategy with
  | .taxApp => some (applyTaxData s (applyTaxDataFromPlugins s c))
  | .flatRates => updateCheckoutPricesWithFlatRates s c

/-- The gross price becomes the net price. -/
def TaxedMoney.removeTax (p : TaxedMoney) : TaxedMoney := ⟨p.net, p.net⟩

/-- `_remove_tax`. -/
def removeTax (c : PricedCheckout) : PricedCheckout :=
  c.setPrices (c.lines.map fun l => l.totalPrice.removeTax) c.shippingPrice.removeTax c.subtotal.removeTax
    c.total.removeTax

/-- The prices that `_fetch_checkout_prices_if_expired` calculates. -/
def fetchCheckoutPrices (c : PricedCheckout) : Option PricedCheckout :=
  let shouldChargeTax := s.chargeTaxes && !c.taxExemption
  if s.pricesEnteredWithTax then
    if shouldChargeTax then calculateAndAddTax s c
    else (calculateAndAddTax s c).map removeTax
  else if shouldChargeTax then calculateAndAddTax s c
  else getCheckoutBasePrices s c

/-- `_fetch_checkout_prices_if_expired`, where no update is forced. -/
def fetchCheckoutPricesIfExpired (now : Time) (c : PricedCheckout) : Option PricedCheckout :=
  if now < c.priceExpiration then some c
  else (fetchCheckoutPrices s c).map fun c =>
    { c with priceExpiration := now + s.checkoutPricesTtl }

/-! ### The total of the prices -/

/-- The total is what the lines and the shipping cost. -/
def AddsUp (c : PricedCheckout) : Prop :=
  c.total.quantize s.places
    = (c.lines.map fun l => l.totalPrice.quantize s.places).sum
      + c.shippingPrice.quantize s.places

variable {s}

/-- Quantized prices add up when the total is their sum. -/
theorem addsUp_setPrices {c : PricedCheckout} {totals : List TaxedMoney}
    {shippingPrice subtotal total : TaxedMoney} (hlength : totals.length = c.lines.length)
    (htotals : ∀ p ∈ totals, p.Quantized s.places) (hshipping : shippingPrice.Quantized s.places)
    (htotal : total.quantize s.places = totals.sum + shippingPrice) :
    AddsUp s (c.setPrices totals shippingPrice subtotal total) := by
  have hlines : ((setTotals c.lines totals).map fun l => l.totalPrice.quantize s.places) = totals := by
    calc (setTotals c.lines totals).map (fun l => l.totalPrice.quantize s.places)
        = ((setTotals c.lines totals).map (·.totalPrice)).map (·.quantize s.places) := by
          rw [List.map_map]
          rfl
      _ = totals.map (·.quantize s.places) := by rw [totals_setTotals hlength]
      _ = totals := by
          rw [List.map_congr_left fun p hp => TaxedMoney.quantize_of_quantized (htotals p hp),
            List.map_id']
  show total.quantize s.places
    = ((setTotals c.lines totals).map fun l => l.totalPrice.quantize s.places).sum
      + shippingPrice.quantize s.places
  rw [hlines, TaxedMoney.quantize_of_quantized hshipping, htotal]

theorem quantized_calculateCheckoutLineTotal {c : PricedCheckout} {l : CheckoutLineInfo}
    {p : TaxedMoney} (h : calculateCheckoutLineTotal s c l = some p) : p.Quantized s.places := by
  obtain ⟨price, -, rfl⟩ := Option.map_eq_some_iff.mp h
  exact TaxedMoney.quantized_quantize _ _

theorem quantized_baseLinePrice {c : PricedCheckout} {l : CheckoutLineInfo} {p : TaxedMoney}
    (h : baseLinePrice s c l = some p) : p.Quantized s.places := by
  obtain ⟨price, -, rfl⟩ := Option.map_eq_some_iff.mp h
  exact ⟨hasPlaces_quantizeTo _ _, hasPlaces_quantizeTo _ _⟩

theorem quantize_baseCheckoutDeliveryPrice (c : PricedCheckout) :
    quantizeTo s.places (baseCheckoutDeliveryPrice s c) = baseCheckoutDeliveryPrice s c := by
  refine quantizeTo_of_hasPlaces ?_
  rw [baseCheckoutDeliveryPrice]
  split <;> exact hasPlaces_quantizeTo _ _

theorem addsUp_updateCheckoutPricesWithFlatRates {c c' : PricedCheckout}
    (h : updateCheckoutPricesWithFlatRates s c = some c') : AddsUp s c' := by
  obtain ⟨totals, htotals, rfl⟩ := Option.map_eq_some_iff.mp h
  have hlines := forall₂_of_mapM htotals
  have hquantized : ∀ p ∈ totals, p.Quantized s.places := by
    intro p hp
    obtain ⟨l, -, hl⟩ := exists_of_forall₂ hlines.flip hp
    exact quantized_calculateCheckoutLineTotal hl
  have hshipping : (calculateCheckoutShipping s c).Quantized s.places :=
    TaxedMoney.quantized_quantize _ _
  exact addsUp_setPrices hlines.length_eq.symm hquantized hshipping
    (TaxedMoney.quantize_of_quantized ((TaxedMoney.Quantized.sum hquantized).add hshipping))

theorem addsUp_getCheckoutBasePrices {c c' : PricedCheckout}
    (h : getCheckoutBasePrices s c = some c') : AddsUp s c' := by
  obtain ⟨totals, htotals, rfl⟩ := Option.map_eq_some_iff.mp h
  have hlines := forall₂_of_mapM htotals
  have hquantized : ∀ p ∈ totals, p.Quantized s.places := by
    intro p hp
    obtain ⟨l, -, hl⟩ := exists_of_forall₂ hlines.flip hp
    exact quantized_baseLinePrice hl
  have hshipping : (TaxedMoney.mk (baseCheckoutDeliveryPrice s c)
      (baseCheckoutDeliveryPrice s c)).quantize s.places
      = ⟨baseCheckoutDeliveryPrice s c, baseCheckoutDeliveryPrice s c⟩ := by
    rw [TaxedMoney.quantize, quantize_baseCheckoutDeliveryPrice]
  have hsum := (TaxedMoney.Quantized.sum hquantized).add
    (TaxedMoney.quantized_quantize s.places
      (TaxedMoney.mk (baseCheckoutDeliveryPrice s c) (baseCheckoutDeliveryPrice s c)))
  refine addsUp_setPrices hlines.length_eq.symm hquantized
    (TaxedMoney.quantized_quantize _ _) ?_
  rw [hshipping] at hsum ⊢
  rw [TaxedMoney.quantize_of_quantized hsum, TaxedMoney.quantize_of_quantized hsum]

/-- Tax data for every line. -/
theorem addsUp_applyTaxData {c : PricedCheckout} {taxData : TaxData}
    (hdata : s.plugins.taxData = some taxData) (hlength : taxData.lines.length = c.lines.length) :
    AddsUp s (applyTaxData s c) := by
  have hlength : (taxData.lines.map (·.quantize s.places)).length = c.lines.length := by
    rw [List.length_map, hlength]
  have hquantized : ∀ p ∈ taxData.lines.map (·.quantize s.places), p.Quantized s.places := by
    intro p hp
    obtain ⟨q, -, rfl⟩ := List.mem_map.mp hp
    exact TaxedMoney.quantized_quantize _ _
  have hsubtotal := TaxedMoney.Quantized.sum hquantized
  have hshipping := TaxedMoney.quantized_quantize s.places taxData.shippingPrice
  rw [applyTaxData, hdata]
  simp only [totals_setTotals hlength]
  refine addsUp_setPrices hlength hquantized hshipping ?_
  rw [TaxedMoney.quantize_of_quantized hsubtotal,
    TaxedMoney.quantize_of_quantized (hsubtotal.add hshipping),
    TaxedMoney.quantize_of_quantized (hsubtotal.add hshipping)]

/-! Without taxes the net prices add up. -/

theorem TaxedMoney.removeTax_add (p q : TaxedMoney) :
    (p + q).removeTax = p.removeTax + q.removeTax := rfl

theorem TaxedMoney.removeTax_sum (ps : List TaxedMoney) :
    ps.sum.removeTax = (ps.map removeTax).sum := by
  induction ps with
  | nil => rfl
  | cons p ps ih => rw [List.sum_cons, removeTax_add, ih, List.map_cons, List.sum_cons]

theorem addsUp_removeTax {c : PricedCheckout} (h : AddsUp s c) : AddsUp s (removeTax c) := by
  have hlines : ((removeTax c).lines.map fun l => l.totalPrice.quantize s.places)
      = (c.lines.map fun l => l.totalPrice.quantize s.places).map TaxedMoney.removeTax := by
    calc (removeTax c).lines.map (fun l => l.totalPrice.quantize s.places)
        = ((removeTax c).lines.map (·.totalPrice)).map (·.quantize s.places) := by
          rw [List.map_map]
          rfl
      _ = (c.lines.map fun l => l.totalPrice.removeTax).map (·.quantize s.places) := by
          rw [removeTax, PricedCheckout.setPrices, totals_setTotals (List.length_map _)]
      _ = (c.lines.map fun l => l.totalPrice.quantize s.places).map TaxedMoney.removeTax := by
          rw [List.map_map, List.map_map]
          rfl
  rw [AddsUp, hlines, ← TaxedMoney.removeTax_sum]
  exact congrArg TaxedMoney.removeTax h

theorem length_setTotals (ls : List CheckoutLineInfo) (ps : List TaxedMoney) :
    (setTotals ls ps).length = ls.length := by
  have hids := congrArg List.length (ids_setTotals ls ps)
  rwa [List.length_map, List.length_map] at hids

/-- **The total is what the lines and the shipping cost**, whenever the prices are not calculated by
a tax app, or by one that prices every line. -/
theorem addsUp_fetchCheckoutPrices {c c' : PricedCheckout}
    (happ : s.strategy = .taxApp →
      ∃ taxData, s.plugins.taxData = some taxData ∧ taxData.lines.length = c.lines.length)
    (h : fetchCheckoutPrices s c = some c') : AddsUp s c' := by
  have htax : ∀ {d}, calculateAndAddTax s c = some d → AddsUp s d := by
    intro d hd
    rw [calculateAndAddTax] at hd
    split at hd
    · rename_i hstrategy
      obtain ⟨taxData, hdata, hlength⟩ := happ hstrategy
      obtain rfl := Option.some.inj hd
      refine addsUp_applyTaxData hdata (hlength.trans ?_)
      exact (length_setTotals c.lines s.plugins.lineTotal).symm
    · exact addsUp_updateCheckoutPricesWithFlatRates hd
  rw [fetchCheckoutPrices] at h
  split at h
  · split at h
    · exact htax h
    · obtain ⟨d, hd, rfl⟩ := Option.map_eq_some_iff.mp h
      exact addsUp_removeTax (htax hd)
  · split at h
    · exact htax h
    · exact addsUp_getCheckoutBasePrices h

/-! ### What stays as it is -/

/-- Only prices differ. -/
structure SameCheckout (c c' : PricedCheckout) : Prop where
  ids : c'.lines.map (·.id) = c.lines.map (·.id)
  discountAmount : c'.discountAmount = c.discountAmount

theorem SameCheckout.refl (c : PricedCheckout) : SameCheckout c c := ⟨rfl, rfl⟩

theorem SameCheckout.trans {c d e : PricedCheckout} (h : SameCheckout c d)
    (h' : SameCheckout d e) : SameCheckout c e :=
  ⟨h'.ids.trans h.ids, h'.discountAmount.trans h.discountAmount⟩

theorem sameCheckout_setPrices (c : PricedCheckout) (totals : List TaxedMoney)
    (shippingPrice subtotal total : TaxedMoney) :
    SameCheckout c (c.setPrices totals shippingPrice subtotal total) :=
  ⟨ids_setTotals c.lines totals, rfl⟩

theorem sameCheckout_calculateAndAddTax {c c' : PricedCheckout}
    (h : calculateAndAddTax s c = some c') : SameCheckout c c' := by
  have hplugins : SameCheckout c (applyTaxDataFromPlugins s c) := sameCheckout_setPrices ..
  rw [calculateAndAddTax] at h
  split at h
  · obtain rfl := Option.some.inj h
    rw [applyTaxData]
    split
    · exact hplugins
    · exact hplugins.trans (sameCheckout_setPrices ..)
  · obtain ⟨totals, -, rfl⟩ := Option.map_eq_some_iff.mp h
    exact sameCheckout_setPrices ..

theorem sameCheckout_fetchCheckoutPrices {c c' : PricedCheckout}
    (h : fetchCheckoutPrices s c = some c') : SameCheckout c c' := by
  rw [fetchCheckoutPrices] at h
  split at h
  · split at h
    · exact sameCheckout_calculateAndAddTax h
    · obtain ⟨d, hd, rfl⟩ := Option.map_eq_some_iff.mp h
      exact (sameCheckout_calculateAndAddTax hd).trans (sameCheckout_setPrices ..)
  · split at h
    · exact sameCheckout_calculateAndAddTax h
    · obtain ⟨totals, -, rfl⟩ := Option.map_eq_some_iff.mp h
      exact sameCheckout_setPrices ..

theorem sameCheckout_fetchCheckoutPricesIfExpired {now : Time} {c c' : PricedCheckout}
    (h : fetchCheckoutPricesIfExpired s now c = some c') : SameCheckout c c' := by
  rw [fetchCheckoutPricesIfExpired] at h
  split at h
  · obtain rfl := Option.some.inj h
    exact SameCheckout.refl _
  · obtain ⟨d, hd, rfl⟩ := Option.map_eq_some_iff.mp h
    have hsame := sameCheckout_fetchCheckoutPrices hd
    exact ⟨hsame.ids, hsame.discountAmount⟩

/-! ### Reading the prices -/

variable (s)

/-- `calculations.checkout_total`. -/
def checkoutTotal (now : Time) (c : PricedCheckout) : Option TaxedMoney :=
  (fetchCheckoutPricesIfExpired s now c).map (·.total.quantize s.places)

/-- `calculations.checkout_shipping_price`. -/
def checkoutShippingPrice (now : Time) (c : PricedCheckout) : Option TaxedMoney :=
  (fetchCheckoutPricesIfExpired s now c).map (·.shippingPrice.quantize s.places)

/-- `_find_checkout_line_info`. -/
def findCheckoutLineInfo (c : PricedCheckout) (id : ℕ) : Option CheckoutLineInfo :=
  c.lines.find? (·.id = id)

/-- `calculations.checkout_line_total`. -/
def checkoutLineTotal (now : Time) (c : PricedCheckout) (id : ℕ) : Option TaxedMoney :=
  (fetchCheckoutPricesIfExpired s now c).bind fun c =>
    (findCheckoutLineInfo c id).map (·.totalPrice.quantize s.places)

variable {s}

theorem findCheckoutLineInfo_id {c : PricedCheckout} {l : CheckoutLineInfo} (hl : l ∈ c.lines) :
    findCheckoutLineInfo c l.id = some l :=
  (Table.mem_iff_find? (t := ⟨c.lines, c.lines_unique⟩)).mp hl

/-- The totals of all lines, once the prices are there. -/
theorem mapM_checkoutLineTotal {now : Time} {c p : PricedCheckout}
    (hp : fetchCheckoutPricesIfExpired s now c = some p) :
    (c.lines.mapM fun l => checkoutLineTotal s now c l.id)
      = some (p.lines.map fun l => l.totalPrice.quantize s.places) := by
  have hids := (sameCheckout_fetchCheckoutPricesIfExpired hp).ids
  have hline : ∀ l ∈ p.lines,
      checkoutLineTotal s now c l.id = some (l.totalPrice.quantize s.places) := by
    intro l hl
    rw [checkoutLineTotal, hp, Option.bind_some, findCheckoutLineInfo_id hl, Option.map_some]
  have hmap : (p.lines.map (·.id)).mapM (checkoutLineTotal s now c) =
      some (p.lines.map fun l => l.totalPrice.quantize s.places) := by
    rw [List.mapM_map]
    exact mapM_eq_some_map hline
  rwa [hids, List.mapM_map] at hmap

end Checkout

end Aixinwu
