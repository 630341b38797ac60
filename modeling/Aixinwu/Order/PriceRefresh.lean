import Aixinwu.Order.FlatRates

/-!
# Refreshing the prices of an order

`fetch_order_prices_if_expired` brings the discount of the order's voucher up to date and then
computes the prices of lines and shipping and the total, with flat rates or without taxes; computing
the total also records on the discounts what they take off.

The loop over the lines is taken apart here: what a line bears depends on the base prices and on the
discount that is spread, and its prices on that and on its rate. So lines that agree in these are
priced alike, whatever prices they had before.

## Main definitions

* `Order`, `TaxSettings`
* `fetchOrderPricesIfExpired`
* `lineAmounts`, `priceLines` — what the lines bear, and their prices
* `Alike` — two lines that get the same prices

## Main results

* `updateLines_eq_lineAmounts`
* `priceLines_again`
-/

namespace Aixinwu

namespace PriceRefresh

open Checkout Checkout.LinePrices Decimals Promotions FlatRates
open BaseCalculations (OrderDiscount baseOrderTotal recorded start)

/-! ### Orders -/

/-- `discount.models.Voucher`, with what it takes off in the channel of the order, if anything. -/
structure Voucher where
  type : VoucherType
  discountValueType : DiscountValueType
  discountValue : Option ℚ
deriving DecidableEq, Repr

/-- `order.models.Order`, with its discounts by `created_at` and the voucher codes of these. A tax
class is given by its rates. -/
@[ext] structure Order where
  isEditable : Bool := true
  voucher : Option Voucher := none
  voucherCode : Option String := none
  discounts : Table OrderDiscount
  discountVoucherCode : ℕ → Option String := fun _ => none
  baseShippingPrice : ℚ
  shippingTaxClass : Option (List TaxClassCountryRate) := none
  shippingTaxClassName : Option String := none
  shippingTaxRate : Option NNRat := none
  shippingPrice : TaxedMoney := 0
  undiscountedTotal : TaxedMoney := 0
  total : TaxedMoney := 0
  lines : List FlatRates.OrderLine

/-- How an order is taxed: the rates, and whether taxes are charged at all. -/
structure TaxSettings extends TaxContext where
  shouldChargeTax : Bool

/-! ### The discount of the voucher -/

/-- A key that no discount has. -/
def newId (discounts : Table OrderDiscount) : ℕ := (discounts.rows.map (·.id)).sum + 1

theorem id_ne_newId {discounts : Table OrderDiscount} {d : OrderDiscount}
    (h : d ∈ discounts.rows) : d.id ≠ newId discounts := by
  have hle : d.id ≤ (discounts.rows.map (·.id)).sum := List.le_sum_of_mem (List.mem_map_of_mem h)
  rw [newId]
  omega

/-- The discounts with a new one. -/
def withDiscount (discounts : Table OrderDiscount) (d : OrderDiscount)
    (h : d.id = newId discounts) : Table OrderDiscount where
  rows := discounts.rows ++ [d]
  nodup := by
    rw [List.map_append, List.nodup_append]
    refine ⟨discounts.nodup, List.nodup_singleton _, ?_⟩
    intro k hk k' hk'
    obtain ⟨e, he, rfl⟩ := List.mem_map.mp hk
    obtain rfl := List.mem_singleton.mp hk'
    exact fun heq => id_ne_newId he (heq.trans h)

/-- `_update_order_discount_for_voucher`. -/
def updateOrderDiscountForVoucher (o : Order) : Order :=
  match o.voucher with
  | none => { o with discounts := o.discounts.delete fun d => d.type = .voucher }
  | some voucher =>
    if o.discounts.rows.any fun d => o.discountVoucherCode d.id = o.voucherCode then o
    else match voucher.discountValue with
      | none => o
      | some value =>
        { o with
          discounts := withDiscount o.discounts
            { id := newId o.discounts, type := .voucher
              valueType := voucher.discountValueType, value }
            rfl
          discountVoucherCode :=
            Function.update o.discountVoucherCode (newId o.discounts) o.voucherCode }

/-! ### Prices -/

/-- The order as `get_total_order_discount_excluding_shipping` sees it. -/
def flatOrder (o : Order) : FlatRates.Order where
  discounts := o.discounts.rows
  voucher := o.voucher.map (·.type)
  undiscountedTotalGross := o.undiscountedTotal.gross

/-- The order as `base_order_total` sees it. -/
def baseOrder (o : Order) : BaseCalculations.Order := ⟨o.baseShippingPrice, o.discounts⟩

/-- The lines as `base_order_total` sees them. -/
def baseLines (lines : List FlatRates.OrderLine) : List BaseCalculations.OrderLine :=
  lines.map fun line => ⟨line.baseUnitPrice, line.quantity⟩

/-- `shipping_tax_rate`. -/
def shippingTaxRateOf (t : TaxContext) (o : Order) : NNRat :=
  match o.shippingTaxClass with
  | some countryRates => getTaxRateForTaxClass countryRates t.defaultTaxRate t.countryCode
  | none =>
    match o.shippingTaxClassName, o.shippingTaxRate with
    | some _, some taxRate => denormalizeTaxRateFromDb taxRate
    | _, _ => t.defaultTaxRate

/-- `_calculate_order_shipping`. -/
def calculateOrderShipping (t : TaxContext) (o : Order) (taxRate : NNRat) : TaxedMoney :=
  (calculateFlatRateTax o.baseShippingPrice taxRate t.pricesEnteredWithTax).quantize t.places

section Runs

variable (prices : PricesPackage)

/-- `_calculate_order_total`: the total, and the discounts with what they take off. -/
def calculateOrderTotal (places : ℕ) (o : Order) (lines : List FlatRates.OrderLine)
    (shippingPrice : TaxedMoney) : TaxedMoney × Table OrderDiscount :=
  let (defaultValue, base) := baseOrderTotal prices (baseOrder o) (baseLines lines)
  let total := (lines.map (·.totalPrice)).sum + shippingPrice
  let undiscountedSubtotal := (lines.map (·.undiscountedTotalPrice)).sum
  let total :=
    match base.discounts.rows.find? fun d => d.type = .manual with
    | some d =>
      if undiscountedSubtotal.gross < d.amount then
        total.subMoney (d.amount - undiscountedSubtotal.gross)
      else total
    | none => total
  (if defaultValue ≤ 0 then TaxedMoney.quantize places ⟨defaultValue, defaultValue⟩
    else (TaxedMoney.max total 0).quantize places, base.discounts)

/-- What `update_order_prices_with_flat_rates` does once the lines are priced. -/
def withPrices (t : TaxContext) (o : Order) (lines : List FlatRates.OrderLine)
    (undiscountedSubtotal : TaxedMoney) : Order :=
  let shippingTaxRate := shippingTaxRateOf t o
  let shippingPrice := calculateOrderShipping t o shippingTaxRate
  let total := calculateOrderTotal prices t.places o lines shippingPrice
  { o with
    lines := lines
    shippingPrice := shippingPrice
    shippingTaxRate := some (normalizeTaxRateForDb shippingTaxRate)
    undiscountedTotal := undiscountedSubtotal + ⟨o.baseShippingPrice, o.baseShippingPrice⟩
    total := total.1
    discounts := total.2 }

/-- `update_order_prices_with_flat_rates`, nothing where it divides by zero. -/
def updateOrderPricesWithFlatRates (t : TaxContext) (o : Order) : Option Order :=
  (updateTaxesForOrderLines t (flatOrder o) o.lines).map fun p =>
    withPrices prices t o p.lines p.undiscountedSubtotal

/-- `calculate_tax_rate`. -/
def calculateTaxRate (price : TaxedMoney) : NNRat :=
  if price.gross ≠ 0 ∧ price.net ≠ 0 then ((price.gross - price.net) / price.net).toNNRat else 0

/-- A price of an amount without tax, rounded. -/
def untaxedPrice (places : ℕ) (amount : ℚ) : TaxedMoney :=
  TaxedMoney.quantize places ⟨amount, amount⟩

/-- The prices of a line in `_get_order_base_prices`. -/
def setBasePrices (places : ℕ) (line : FlatRates.OrderLine) : FlatRates.OrderLine :=
  if line.variant = none then line
  else
    { line with
      undiscountedUnitPrice := untaxedPrice places line.undiscountedBaseUnitPrice
      unitPrice := untaxedPrice places line.baseUnitPrice
      undiscountedTotalPrice := untaxedPrice places line.undiscountedLineTotalPrice
      totalPrice := untaxedPrice places line.lineTotalPrice
      taxRate := some (calculateTaxRate (untaxedPrice places line.baseUnitPrice)) }

/-- `_get_order_base_prices`. -/
def getOrderBasePrices (places : ℕ) (o : Order) : Order :=
  let lines := o.lines.map (setBasePrices places)
  let undiscountedSubtotal :=
    ((lines.filter (·.variant.isSome)).map (·.undiscountedTotalPrice)).sum
  let shippingPrice := untaxedPrice places o.baseShippingPrice
  let (total, base) := baseOrderTotal prices (baseOrder o) (baseLines lines)
  { o with
    lines := lines
    shippingPrice := shippingPrice
    shippingTaxRate := some (calculateTaxRate shippingPrice)
    undiscountedTotal := undiscountedSubtotal + shippingPrice
    total := untaxedPrice places total
    discounts := base.discounts }

/-- A price without its tax. -/
def withoutTax (price : TaxedMoney) : TaxedMoney := ⟨price.net, price.net⟩

/-- What `_remove_tax` does to a line. -/
def removeLineTax (line : FlatRates.OrderLine) : FlatRates.OrderLine :=
  { line with
    unitPrice := withoutTax line.unitPrice
    undiscountedUnitPrice := withoutTax line.undiscountedUnitPrice
    totalPrice := withoutTax line.totalPrice
    undiscountedTotalPrice := withoutTax line.undiscountedTotalPrice
    taxRate := some 0 }

/-- `_remove_tax`. -/
def removeTax (o : Order) : Order :=
  { o with
    total := withoutTax o.total
    undiscountedTotal := withoutTax o.undiscountedTotal
    shippingPrice := withoutTax o.shippingPrice
    shippingTaxRate := some 0
    lines := o.lines.map removeLineTax }

/-- `fetch_order_prices_if_expired`, forced, with flat rates or without taxes. -/
def fetchOrderPricesIfExpired (s : TaxSettings) (order : Order) : Option Order :=
  if order.isEditable = false then some order
  else
    let o := updateOrderDiscountForVoucher order
    if s.pricesEnteredWithTax then
      (updateOrderPricesWithFlatRates prices s.toTaxContext o).map fun o =>
        if s.shouldChargeTax then o else removeTax o
    else if s.shouldChargeTax then updateOrderPricesWithFlatRates prices s.toTaxContext o
    else some (getOrderBasePrices prices s.places o)

end Runs

/-! ### The loop over the lines, by what each line bears -/

section Loop

variable {t : TaxContext} {d d' T x : ℚ} {lines lines' : List FlatRates.OrderLine}
  {l l' : FlatRates.OrderLine} {amounts amounts' : List (Option ℚ)}

/-- `discount_amount` of all lines; a line without a variant has none. -/
def lineAmounts (t : TaxContext) (d T : ℚ) : ℚ → List FlatRates.OrderLine → Option (List (Option ℚ))
  | _, [] => some []
  | x, line :: lines =>
    if line.variant = none then (lineAmounts t d T x lines).map (none :: ·)
    else (discountAmount t d T lines.isEmpty x line).bind fun amount =>
      (lineAmounts t d T (x + amount) lines).map (some amount :: ·)

/-- A line with its prices, if it gets any. -/
def priceLine (t : TaxContext) (d : ℚ) (line : FlatRates.OrderLine) :
    Option ℚ → FlatRates.OrderLine
  | none => line
  | some amount => setPrices t d line amount

/-- The lines with their prices. -/
def priceLines (t : TaxContext) (d : ℚ) (lines : List FlatRates.OrderLine)
    (amounts : List (Option ℚ)) : List FlatRates.OrderLine :=
  List.zipWith (priceLine t d) lines amounts

/-- The undiscounted prices of the lines with a variant. -/
def undiscountedSubtotalOf (lines : List FlatRates.OrderLine) : ℚ :=
  ((lines.filter (·.variant.isSome)).map OrderLine.undiscountedLineTotalPrice).sum

/-- Exactly the lines with a variant bear something. -/
def Fits (lines : List FlatRates.OrderLine) (amounts : List (Option ℚ)) : Prop :=
  List.Forall₂ (fun line amount => amount.isSome = line.variant.isSome) lines amounts

theorem undiscountedSubtotalOf_cons (line : FlatRates.OrderLine)
    (lines : List FlatRates.OrderLine) : undiscountedSubtotalOf (line :: lines)
      = (if line.variant = none then 0 else line.undiscountedLineTotalPrice)
        + undiscountedSubtotalOf lines := by
  rw [undiscountedSubtotalOf, undiscountedSubtotalOf]
  cases hvariant : line.variant with
  | none => simp [hvariant]
  | some v => simp [hvariant]

/-- **The loop** prices the lines by what they bear. -/
theorem updateLines_eq_lineAmounts (p : Progress) :
    (updateLines t d T p lines).map (fun q => (q.lines, q.undiscountedSubtotal))
      = (lineAmounts t d T p.totalLineDiscounts lines).map fun amounts =>
          (p.lines ++ priceLines t d lines amounts,
            p.undiscountedSubtotal
              + ⟨undiscountedSubtotalOf lines, undiscountedSubtotalOf lines⟩) := by
  induction lines generalizing p with
  | nil =>
    have hzero : p.undiscountedSubtotal + ⟨undiscountedSubtotalOf [], undiscountedSubtotalOf []⟩
        = p.undiscountedSubtotal :=
      congrArg₂ TaxedMoney.mk (add_zero _) (add_zero _)
    rw [updateLines, lineAmounts, Option.map_some, Option.map_some, hzero, priceLines,
      List.zipWith_nil_left, List.append_nil]
  | cons line lines ih =>
    rw [updateLines, updateLine, lineAmounts, undiscountedSubtotalOf_cons]
    by_cases hvariant : line.variant = none
    · simp only [if_pos hvariant, Option.bind_some, zero_add]
      rw [ih, Option.map_map]
      refine congrArg₂ Option.map (funext fun amounts => ?_) rfl
      simp [priceLines, priceLine]
    · simp only [if_neg hvariant]
      cases hamount : discountAmount t d T lines.isEmpty p.totalLineDiscounts line with
      | none => rfl
      | some amount =>
        rw [Option.map_some, Option.bind_some, Option.bind_some, ih, Option.map_map]
        refine congrArg₂ Option.map (funext fun amounts => ?_) rfl
        refine Prod.ext ?_ ?_
        · simp [priceLines, priceLine]
        · exact congrArg₂ TaxedMoney.mk (add_assoc _ _ _) (add_assoc _ _ _)

theorem fits_of_lineAmounts (h : lineAmounts t d T x lines = some amounts) :
    Fits lines amounts := by
  induction lines generalizing x amounts with
  | nil =>
    obtain rfl := Option.some.inj h
    exact List.Forall₂.nil
  | cons line lines ih =>
    rw [lineAmounts] at h
    by_cases hvariant : line.variant = none
    · rw [if_pos hvariant] at h
      obtain ⟨rest, hrest, rfl⟩ := Option.map_eq_some_iff.mp h
      exact List.Forall₂.cons (by rw [hvariant]; rfl) (ih hrest)
    · rw [if_neg hvariant] at h
      obtain ⟨amount, -, h⟩ := Option.bind_eq_some_iff.mp h
      obtain ⟨rest, hrest, rfl⟩ := Option.map_eq_some_iff.mp h
      exact List.Forall₂.cons (Option.isSome_iff_ne_none.mpr hvariant).symm (ih hrest)

/-! ### Lines that are priced alike -/

/-- Two lines that get the same prices from the same amount. -/
structure Alike (t : TaxContext) (l l' : FlatRates.OrderLine) : Prop where
  variant : l'.variant = l.variant
  quantity : l'.quantity = l.quantity
  baseUnitPrice : l'.baseUnitPrice = l.baseUnitPrice
  undiscountedBaseUnitPrice : l'.undiscountedBaseUnitPrice = l.undiscountedBaseUnitPrice
  taxClass : l'.taxClass = l.taxClass
  taxClassName : l'.taxClassName = l.taxClassName
  taxRate : l.variant.isSome → lineTaxRate t l' = lineTaxRate t l

theorem Alike.setPrices (h : Alike t l l') (hl : l.variant.isSome) (amount : ℚ) :
    FlatRates.setPrices t d l' amount = FlatRates.setPrices t d l amount := by
  obtain ⟨hvariant, hquantity, hbase, hundiscounted, hclass, hname, hrate'⟩ := h
  have hrate := hrate' hl
  obtain ⟨variant, quantity, hpos, base, hbase', undiscounted, hundiscounted', _, _, _, _, _, _, _⟩ :=
    l
  obtain ⟨variant', quantity', hpos', base', _, undiscounted', _, _, _, _, _, _, _, _⟩ := l'
  simp only at hvariant hquantity hbase hundiscounted hclass hname
  subst hvariant hquantity hbase hundiscounted hclass hname
  simp only [FlatRates.setPrices, hrate, priceWithDiscounts, OrderLine.lineTotalPrice]

theorem Alike.lineTotalPrice (h : Alike t l l') : l'.lineTotalPrice = l.lineTotalPrice := by
  rw [OrderLine.lineTotalPrice, OrderLine.lineTotalPrice, h.baseUnitPrice, h.quantity]

theorem Alike.undiscountedLineTotalPrice (h : Alike t l l') :
    l'.undiscountedLineTotalPrice = l.undiscountedLineTotalPrice := by
  rw [OrderLine.undiscountedLineTotalPrice, OrderLine.undiscountedLineTotalPrice,
    h.undiscountedBaseUnitPrice, h.quantity]

theorem Alike.discountAmount (h : Alike t l l') (last : Bool) :
    discountAmount t d T last x l' = discountAmount t d T last x l := by
  rw [FlatRates.discountAmount, FlatRates.discountAmount, h.lineTotalPrice]

/-- Lines that are alike bear the same. -/
theorem lineAmounts_congr (h : List.Forall₂ (Alike t) lines lines') :
    lineAmounts t d T x lines' = lineAmounts t d T x lines := by
  induction h generalizing x with
  | nil => rfl
  | cons hline hlines ih =>
    rw [lineAmounts, lineAmounts, hline.variant]
    split
    · rw [ih]
    · rename_i l l' ls ls' _
      have hisEmpty : ls'.isEmpty = ls.isEmpty := by
        cases hlines with
        | nil => rfl
        | cons _ _ => rfl
      rw [hisEmpty, hline.discountAmount]
      simp only [ih]

theorem map_congr_of_alike {τ : Type} {g : FlatRates.OrderLine → τ}
    (hg : ∀ l l', Alike t l l' → g l' = g l) (h : List.Forall₂ (Alike t) lines lines') :
    lines'.map g = lines.map g := by
  induction h with
  | nil => rfl
  | cons hline _ ih => rw [List.map_cons, List.map_cons, hg _ _ hline, ih]

theorem orderTotalPrice_congr (h : List.Forall₂ (Alike t) lines lines') :
    orderTotalPrice lines' = orderTotalPrice lines := by
  rw [orderTotalPrice, orderTotalPrice, map_congr_of_alike (fun _ _ => Alike.lineTotalPrice) h]

theorem baseLines_congr (h : List.Forall₂ (Alike t) lines lines') :
    baseLines lines' = baseLines lines :=
  map_congr_of_alike (fun _ _ h => by rw [h.baseUnitPrice, h.quantity]) h

theorem undiscountedSubtotalOf_congr (h : List.Forall₂ (Alike t) lines lines') :
    undiscountedSubtotalOf lines' = undiscountedSubtotalOf lines := by
  induction h with
  | nil => rfl
  | cons hline _ ih =>
    rw [undiscountedSubtotalOf_cons, undiscountedSubtotalOf_cons, hline.variant,
      hline.undiscountedLineTotalPrice, ih]

/-! ### Pricing again -/

variable {f : FlatRates.OrderLine → FlatRates.OrderLine}

/-- `f` of the lines without a variant. -/
def onRest (f : FlatRates.OrderLine → FlatRates.OrderLine) (line : FlatRates.OrderLine) :
    FlatRates.OrderLine :=
  if line.variant = none then f line else line

/-- What is done to priced lines leaves them alike. -/
def KeepsAlike (t : TaxContext) (f : FlatRates.OrderLine → FlatRates.OrderLine)
    (lines : List FlatRates.OrderLine) : Prop :=
  ∀ l ∈ lines, ∀ d amount, amount.isSome = l.variant.isSome → Alike t l (f (priceLine t d l amount))

theorem alike_priceLines (hf : KeepsAlike t f lines) (h : Fits lines amounts) :
    List.Forall₂ (Alike t) lines ((priceLines t d lines amounts).map f) := by
  induction h with
  | nil => exact List.Forall₂.nil
  | cons hline _ ih =>
    refine List.Forall₂.cons (hf _ List.mem_cons_self _ _ hline) ?_
    exact ih fun l hl => hf l (List.mem_cons_of_mem _ hl)

/-- **Pricing again** has no trace of the first time, except on lines without a variant. -/
theorem priceLines_again (hf : KeepsAlike t f lines) (h : Fits lines amounts)
    (h' : Fits lines amounts') :
    priceLines t d' ((priceLines t d lines amounts).map f) amounts'
      = (priceLines t d' lines amounts').map (onRest f) := by
  induction h generalizing amounts' with
  | nil =>
    cases h'
    rfl
  | @cons l amount lines amounts hline _ ih =>
    cases h' with
    | @cons _ amount' _ amounts' hline' hlines' =>
      have hrest := ih (fun l hl => hf l (List.mem_cons_of_mem _ hl)) hlines'
      have halike := hf l List.mem_cons_self d amount hline
      refine congrArg₂ List.cons ?_ hrest
      cases hvariant : l.variant with
      | none =>
        rw [hvariant] at hline hline'
        obtain rfl := Option.isSome_eq_false_iff.mp hline |> Option.isNone_iff_eq_none.mp
        obtain rfl := Option.isSome_eq_false_iff.mp hline' |> Option.isNone_iff_eq_none.mp
        exact (if_pos hvariant).symm
      | some v =>
        rw [hvariant] at hline hline'
        obtain ⟨a, rfl⟩ := Option.isSome_iff_exists.mp hline
        obtain ⟨a', rfl⟩ := Option.isSome_iff_exists.mp hline'
        have hne : ¬ (FlatRates.setPrices t d' l a').variant = none := by
          change ¬ l.variant = none
          rw [hvariant]
          exact Option.some_ne_none v
        refine (halike.setPrices (by rw [hvariant]; rfl) a').trans ?_
        exact (if_neg hne).symm

end Loop

end PriceRefresh

end Aixinwu
