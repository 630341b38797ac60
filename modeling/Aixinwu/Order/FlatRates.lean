import Aixinwu.Lib.Grouping
import Aixinwu.Lib.Shares
import Aixinwu.Order.BaseCalculations
import Mathlib.Data.NNRat.Defs

/-!
# The discounts of an order, spread over its lines

`update_taxes_for_order_lines` of `tax/calculations/order.py` puts flat tax rates on the lines of an
order. Before that it takes off what the order discounts take off the lines: a line bears its
proportion of it, rounded to the currency, and the last line bears what is left. A line whose variant
is gone is skipped, with its proportion, and if it is the last line then nobody bears what is left. Nor
is it in the undiscounted subtotal.

So the amounts add up if the last line has a variant, and then the last line bears the proportions of
the lines that were skipped, less what was rounded up elsewhere. It may come out below zero, or above
the line's price.

## Main definitions

* `updateLine`, `updateTaxesForOrderLines`
* `Distributes` — the amounts are as they should be
* `dueOfLast` — what the last line would have to bear

## Main results

* `updateTaxesForOrderLines_eq` — the amounts of the lines
* `distributes_iff`
-/

namespace Aixinwu

namespace Checkout

namespace TaxedMoney

/-- `p * n`. -/
def times (p : TaxedMoney) (n : ℕ) : TaxedMoney := ⟨p.net * n, p.gross * n⟩

/-- Neither price is negative. -/
def Nonneg (p : TaxedMoney) : Prop := 0 ≤ p.net ∧ 0 ≤ p.gross

theorem Nonneg.times {p : TaxedMoney} (h : p.Nonneg) (n : ℕ) : (p.times n).Nonneg :=
  ⟨mul_nonneg h.1 (Nat.cast_nonneg n), mul_nonneg h.2 (Nat.cast_nonneg n)⟩

theorem Nonneg.quantize {p : TaxedMoney} (h : p.Nonneg) (places : ℕ) : (p.quantize places).Nonneg :=
  ⟨Decimals.quantizeTo_nonneg h.1, Decimals.quantizeTo_nonneg h.2⟩

end TaxedMoney

/-- A flat rate that is not negative makes no price negative. -/
theorem nonneg_calculateFlatRateTax {money taxRate : ℚ} (hmoney : 0 ≤ money) (hrate : 0 ≤ taxRate)
    (pricesEnteredWithTax : Bool) :
    (calculateFlatRateTax money taxRate pricesEnteredWithTax).Nonneg := by
  have hfactor : 0 ≤ 1 + taxRate / 100 := by positivity
  rw [calculateFlatRateTax]
  cases pricesEnteredWithTax with
  | false => exact ⟨hmoney, mul_nonneg hmoney hfactor⟩
  | true => exact ⟨div_nonneg hmoney hfactor, hmoney⟩

end Checkout

namespace FlatRates

open Checkout Checkout.LinePrices Decimals Shares
open BaseCalculations (OrderDiscount)

/-- `tax.models.TaxClassCountryRate`. A rate is checked not to be negative. -/
structure TaxClassCountryRate where
  country : String
  rate : NNRat
deriving DecidableEq

/-- `order.models.OrderLine`, as far as flat rates go. A tax class is given by its rates. -/
structure OrderLine where
  variant : Option ℕ
  quantity : ℕ
  quantity_pos : 0 < quantity
  baseUnitPrice : ℚ
  baseUnitPrice_nonneg : 0 ≤ baseUnitPrice
  undiscountedBaseUnitPrice : ℚ
  undiscountedBaseUnitPrice_nonneg : 0 ≤ undiscountedBaseUnitPrice
  taxClass : Option (List TaxClassCountryRate) := none
  taxClassName : Option String := none
  taxRate : Option NNRat := none
  unitPrice : TaxedMoney := 0
  undiscountedUnitPrice : TaxedMoney := 0
  totalPrice : TaxedMoney := 0
  undiscountedTotalPrice : TaxedMoney := 0

/-- `order.models.Order`, as far as order discounts go. -/
structure Order where
  discounts : List OrderDiscount
  voucher : Option VoucherType := none
  undiscountedTotalGross : ℚ

/-- `get_total_order_discount_excluding_shipping`. -/
def getTotalOrderDiscountExcludingShipping (order : Order) : ℚ :=
  let allDiscounts :=
    if order.voucher = some .shipping then order.discounts.filter (·.type ≠ .voucher)
    else order.discounts
  min (allDiscounts.map (·.amount)).sum order.undiscountedTotalGross

/-- `get_tax_rate_for_tax_class`: the last rate for the country. -/
def getTaxRateForTaxClass (countryRates : List TaxClassCountryRate) (defaultTaxRate : NNRat)
    (countryCode : String) : NNRat :=
  countryRates.foldl
    (fun taxRate countryRate => if countryRate.country = countryCode then countryRate.rate else taxRate)
    defaultTaxRate

/-- `denormalize_tax_rate_from_db`. -/
def denormalizeTaxRateFromDb (taxRate : NNRat) : NNRat := taxRate * 100

/-- `normalize_tax_rate_for_db`. -/
def normalizeTaxRateForDb (taxRate : NNRat) : NNRat := taxRate / 100

/-- What the lines of an order are taxed with. `places` are the decimal places of the currency. -/
structure TaxContext where
  places : ℕ
  countryCode : String
  defaultTaxRate : NNRat
  pricesEnteredWithTax : Bool

/-- `tax_rate`. -/
def lineTaxRate (t : TaxContext) (line : OrderLine) : NNRat :=
  match line.taxClass with
  | some countryRates => getTaxRateForTaxClass countryRates t.defaultTaxRate t.countryCode
  | none =>
    match line.taxClassName, line.taxRate with
    | some _, some taxRate => denormalizeTaxRateFromDb taxRate
    | _, _ => t.defaultTaxRate

/-- `line.base_unit_price * line.quantity`. -/
def OrderLine.lineTotalPrice (line : OrderLine) : ℚ := line.baseUnitPrice * line.quantity

/-- `line.undiscounted_base_unit_price * line.quantity`. -/
def OrderLine.undiscountedLineTotalPrice (line : OrderLine) : ℚ :=
  line.undiscountedBaseUnitPrice * line.quantity

theorem OrderLine.lineTotalPrice_nonneg (line : OrderLine) : 0 ≤ line.lineTotalPrice :=
  mul_nonneg line.baseUnitPrice_nonneg (Nat.cast_nonneg _)

/-- The local variables of the loop. `discountAmounts` are the values of `discount_amount`, with their
lines. -/
structure Progress where
  totalLineDiscounts : ℚ := 0
  undiscountedSubtotal : TaxedMoney := 0
  lines : List OrderLine := []
  discountAmounts : List (OrderLine × ℚ) := []

section Update

variable (t : TaxContext) (totalDiscountAmount orderTotalPrice : ℚ)

/-- `discount_amount`, nothing where it divides by zero. Where there is no discount it is not set. -/
def discountAmount (last : Bool) (totalLineDiscounts : ℚ) (line : OrderLine) : Option ℚ :=
  if totalDiscountAmount = 0 then some 0
  else if last then some (totalDiscountAmount - totalLineDiscounts)
  else if orderTotalPrice = 0 then none
  else some (quantizeTo t.places (line.lineTotalPrice / orderTotalPrice * totalDiscountAmount))

/-- `price_with_discounts`. -/
def priceWithDiscounts (line : OrderLine) (discountAmount : ℚ) : ℚ :=
  if totalDiscountAmount = 0 then line.baseUnitPrice
  else max (quantizeTo t.places ((line.lineTotalPrice - discountAmount) / line.quantity)) 0

/-- The prices that a line gets. -/
def setPrices (line : OrderLine) (discountAmount : ℚ) : OrderLine :=
  let taxRate := lineTaxRate t line
  let unitPrice := calculateFlatRateTax
    (priceWithDiscounts t totalDiscountAmount line discountAmount) taxRate t.pricesEnteredWithTax
  let undiscountedUnitPrice := calculateFlatRateTax line.undiscountedBaseUnitPrice taxRate
    t.pricesEnteredWithTax
  { line with
    unitPrice := unitPrice.quantize t.places
    undiscountedUnitPrice := undiscountedUnitPrice.quantize t.places
    totalPrice := (unitPrice.times line.quantity).quantize t.places
    undiscountedTotalPrice := (undiscountedUnitPrice.times line.quantity).quantize t.places
    taxRate := some (normalizeTaxRateForDb taxRate) }

/-- A round of the loop. -/
def updateLine (last : Bool) (p : Progress) (line : OrderLine) : Option Progress :=
  if line.variant = none then some { p with lines := p.lines ++ [line] }
  else
    (discountAmount t totalDiscountAmount orderTotalPrice last p.totalLineDiscounts line).map
      fun amount =>
        { totalLineDiscounts := p.totalLineDiscounts + amount
          undiscountedSubtotal := p.undiscountedSubtotal
            + ⟨line.undiscountedLineTotalPrice, line.undiscountedLineTotalPrice⟩
          lines := p.lines ++ [setPrices t totalDiscountAmount line amount]
          discountAmounts := p.discountAmounts ++ [(line, amount)] }

/-- The loop. -/
def updateLines : Progress → List OrderLine → Option Progress
  | p, [] => some p
  | p, line :: lines =>
    (updateLine t totalDiscountAmount orderTotalPrice lines.isEmpty p line).bind fun p =>
      updateLines p lines

end Update

/-- `sum([line.base_unit_price.amount * line.quantity for line in lines])`. -/
def orderTotalPrice (lines : List OrderLine) : ℚ := (lines.map OrderLine.lineTotalPrice).sum

/-- `update_taxes_for_order_lines`: its local variables at the end, of which it returns the lines and
the undiscounted subtotal. -/
def updateTaxesForOrderLines (t : TaxContext) (order : Order) (lines : List OrderLine) :
    Option Progress :=
  updateLines t (getTotalOrderDiscountExcludingShipping order) (orderTotalPrice lines) {} lines

/-- The prices that were set are not negative. -/
structure OrderLine.PricesNonneg (line : OrderLine) : Prop where
  unitPrice : line.unitPrice.Nonneg
  undiscountedUnitPrice : line.undiscountedUnitPrice.Nonneg
  totalPrice : line.totalPrice.Nonneg
  undiscountedTotalPrice : line.undiscountedTotalPrice.Nonneg

/-- **The discount is distributed**: the amounts are those of the lines with a variant, they add up to
it, and each is at most the price of its line; no price is negative; and the undiscounted subtotal is
that of all lines. -/
structure Distributes (totalDiscountAmount : ℚ) (lines : List OrderLine) (p : Progress) : Prop where
  priced : p.discountAmounts.map (·.1) = lines.filter (·.variant.isSome)
  sum : (p.discountAmounts.map (·.2)).sum = totalDiscountAmount
  bounds : ∀ a ∈ p.discountAmounts, 0 ≤ a.2 ∧ a.2 ≤ a.1.lineTotalPrice
  nonneg : ∀ line ∈ p.lines, line.variant.isSome → line.PricesNonneg
  undiscountedSubtotal : p.undiscountedSubtotal
    = ⟨(lines.map OrderLine.undiscountedLineTotalPrice).sum,
      (lines.map OrderLine.undiscountedLineTotalPrice).sum⟩

/-! ### The amounts of the lines -/

section Amounts

variable {t : TaxContext} {d T : ℚ} {p p' p'' : Progress} {line : OrderLine}

/-- The rounded share of a line. -/
def roundedShare (t : TaxContext) (d T : ℚ) (line : OrderLine) : ℚ :=
  quantizeTo t.places (share T d line.lineTotalPrice)

/-- What is attributed to a line that is not the last. -/
def takes (t : TaxContext) (d T : ℚ) (line : OrderLine) : ℚ :=
  if line.variant.isSome then roundedShare t d T line else 0

theorem roundedShare_zero : roundedShare t 0 T line = 0 := by
  rw [roundedShare, share, mul_zero, quantizeTo_of_hasPlaces (hasPlaces_zero _)]

theorem discountAmount_false (h : d = 0 ∨ T ≠ 0) (x : ℚ) :
    discountAmount t d T false x line = some (roundedShare t d T line) := by
  rw [discountAmount]
  by_cases hd : d = 0
  · rw [if_pos hd, hd, roundedShare_zero]
  · rw [if_neg hd, if_neg Bool.false_ne_true, if_neg (h.resolve_left hd)]
    rfl

theorem discountAmount_true {x : ℚ} (h : d = 0 → x = 0) :
    discountAmount t d T true x line = some (d - x) := by
  rw [discountAmount]
  by_cases hd : d = 0
  · rw [if_pos hd, hd, h hd, sub_zero]
  · rw [if_neg hd, if_pos rfl]

theorem priceWithDiscounts_nonneg (line : OrderLine) (amount : ℚ) :
    0 ≤ priceWithDiscounts t d line amount := by
  rw [priceWithDiscounts]
  split_ifs
  · exact line.baseUnitPrice_nonneg
  · exact le_max_right _ _

theorem pricesNonneg_setPrices (line : OrderLine) (amount : ℚ) :
    (setPrices t d line amount).PricesNonneg := by
  have hrate : (0 : ℚ) ≤ lineTaxRate t line := NNRat.coe_nonneg _
  have hunit := nonneg_calculateFlatRateTax (@priceWithDiscounts_nonneg t d line amount) hrate
    t.pricesEnteredWithTax
  have hundiscounted := nonneg_calculateFlatRateTax line.undiscountedBaseUnitPrice_nonneg hrate
    t.pricesEnteredWithTax
  exact ⟨hunit.quantize _, hundiscounted.quantize _, (hunit.times _).quantize _,
    (hundiscounted.times _).quantize _⟩

/-- From `p` to `p'` some lines were priced, with these amounts. -/
structure Adds (rows : List (OrderLine × ℚ)) (p p' : Progress) : Prop where
  totalLineDiscounts : p'.totalLineDiscounts = p.totalLineDiscounts + (rows.map (·.2)).sum
  discountAmounts : p'.discountAmounts = p.discountAmounts ++ rows
  undiscountedSubtotal : p'.undiscountedSubtotal = p.undiscountedSubtotal
    + ⟨(rows.map fun r => r.1.undiscountedLineTotalPrice).sum,
      (rows.map fun r => r.1.undiscountedLineTotalPrice).sum⟩
  nonneg : (∀ line ∈ p.lines, line.variant.isSome → line.PricesNonneg) →
    ∀ line ∈ p'.lines, line.variant.isSome → line.PricesNonneg

theorem adds_add (p q : TaxedMoney) (x y : ℚ) (hq : q = p + ⟨x, x⟩) :
    q + ⟨y, y⟩ = p + ⟨x + y, x + y⟩ := by
  rw [hq]
  exact congrArg₂ TaxedMoney.mk (add_assoc _ _ _) (add_assoc _ _ _)

theorem Adds.refl (p : Progress) : Adds [] p p where
  totalLineDiscounts := (add_zero _).symm
  discountAmounts := (List.append_nil _).symm
  undiscountedSubtotal := congrArg₂ TaxedMoney.mk (add_zero _).symm (add_zero _).symm
  nonneg := id

theorem Adds.trans {rows rows' : List (OrderLine × ℚ)} (h : Adds rows p p')
    (h' : Adds rows' p' p'') : Adds (rows ++ rows') p p'' where
  totalLineDiscounts := by
    rw [h'.totalLineDiscounts, h.totalLineDiscounts, List.map_append, List.sum_append, add_assoc]
  discountAmounts := by rw [h'.discountAmounts, h.discountAmounts, List.append_assoc]
  undiscountedSubtotal := by
    rw [h'.undiscountedSubtotal, List.map_append, List.sum_append]
    exact adds_add _ _ _ _ h.undiscountedSubtotal
  nonneg := fun hp => h'.nonneg (h.nonneg hp)

/-- A line without a variant is skipped. -/
theorem updateLine_of_none (h : line.variant = none) (last : Bool) (p : Progress) :
    ∃ p', updateLine t d T last p line = some p' ∧ Adds [] p p' := by
  refine ⟨{ p with lines := p.lines ++ [line] }, if_pos h, ?_⟩
  refine { Adds.refl p with nonneg := fun hp l hl hvariant => ?_ }
  rcases List.mem_append.mp hl with hold | hnew
  · exact hp l hold hvariant
  · rw [List.mem_singleton] at hnew
    rw [hnew, h] at hvariant
    cases hvariant

/-- A line with a variant is priced. -/
theorem updateLine_of_some {last : Bool} {amount : ℚ} (h : line.variant.isSome)
    (hamount : discountAmount t d T last p.totalLineDiscounts line = some amount) :
    ∃ p', updateLine t d T last p line = some p' ∧ Adds [(line, amount)] p p' := by
  have hne : ¬ line.variant = none := Option.isSome_iff_ne_none.mp h
  refine ⟨_, by rw [updateLine, if_neg hne, hamount]; rfl, ?_, rfl, ?_, fun hp l hl hvariant => ?_⟩
  · simp
  · simp
  · rcases List.mem_append.mp hl with hold | hnew
    · exact hp l hold hvariant
    · rw [List.mem_singleton] at hnew
      rw [hnew]
      exact pricesNonneg_setPrices line amount

/-- The rounds before the last. -/
theorem foldlM_updateLine (h : d = 0 ∨ T ≠ 0) (lines : List OrderLine) (p : Progress) :
    ∃ p', lines.foldlM (updateLine t d T false) p = some p' ∧
      Adds ((lines.filter (·.variant.isSome)).map fun l => (l, roundedShare t d T l)) p p' := by
  induction lines generalizing p with
  | nil => exact ⟨p, rfl, Adds.refl p⟩
  | cons line lines ih =>
    by_cases hvariant : line.variant.isSome
    · obtain ⟨p', hp', hadds⟩ := updateLine_of_some (p := p) hvariant (discountAmount_false h _)
      obtain ⟨p'', hp'', hrest⟩ := ih p'
      refine ⟨p'', ?_, ?_⟩
      · rw [List.foldlM_cons, hp']
        exact hp''
      · rw [List.filter_cons_of_pos (by exact hvariant), List.map_cons]
        exact hadds.trans hrest
    · obtain ⟨p', hp', hadds⟩ := @updateLine_of_none t d T line (by simpa using hvariant) false p
      obtain ⟨p'', hp'', hrest⟩ := ih p'
      refine ⟨p'', ?_, ?_⟩
      · rw [List.foldlM_cons, hp']
        exact hp''
      · rw [List.filter_cons_of_neg (by exact hvariant)]
        exact hadds.trans hrest

theorem updateLines_concat (lines : List OrderLine) (p : Progress) :
    updateLines t d T p (lines ++ [line])
      = (lines.foldlM (updateLine t d T false) p).bind fun p => updateLine t d T true p line := by
  induction lines generalizing p with
  | nil =>
    rw [List.nil_append, updateLines]
    exact Option.bind_fun_some _
  | cons l lines ih =>
    have hmore : (lines ++ [line]).isEmpty = false := by simp
    rw [List.cons_append, updateLines, hmore, List.foldlM_cons]
    cases updateLine t d T false p l with
    | none => rfl
    | some p' => exact ih p'

/-- The rounded shares, as what the lines take. -/
theorem sum_takes (lines : List OrderLine) :
    (((lines.filter (·.variant.isSome)).map fun l => (l, roundedShare t d T l)).map (·.2)).sum
      = (lines.map (takes t d T)).sum := by
  have h := sum_map_ite (roundedShare t d T) (fun l : OrderLine => l.variant.isSome = true) lines
  rw [List.map_map]
  refine Eq.trans ?_ h.symm
  rw [sumIf]
  simp only [Bool.decide_eq_true]
  rfl

/-- The amounts of the lines before the last one, and of the last one if it has a variant. -/
def amountsOf (t : TaxContext) (d T : ℚ) (lines : List OrderLine) (last : OrderLine) :
    List (OrderLine × ℚ) :=
  ((lines.filter (·.variant.isSome)).map fun l => (l, roundedShare t d T l))
    ++ if last.variant.isSome then [(last, d - (lines.map (takes t d T)).sum)] else []

/-- **What the loop does**: it finishes, with these amounts. -/
theorem updateLines_eq (h : d = 0 ∨ T ≠ 0) (lines : List OrderLine) (last : OrderLine) :
    ∃ p, updateLines t d T {} (lines ++ [last]) = some p ∧
      Adds (amountsOf t d T lines last) {} p := by
  obtain ⟨p, hp, hadds⟩ := @foldlM_updateLine t d T h lines {}
  rw [updateLines_concat, hp, Option.bind_some, amountsOf]
  by_cases hvariant : last.variant.isSome
  · have htotal : p.totalLineDiscounts = (lines.map (takes t d T)).sum := by
      rw [hadds.totalLineDiscounts, sum_takes]
      exact zero_add _
    have hzero : d = 0 → p.totalLineDiscounts = 0 := by
      rintro rfl
      rw [htotal]
      refine List.sum_eq_zero (List.forall_mem_map.mpr fun l _ => ?_)
      rw [takes, roundedShare_zero, ite_self]
    obtain ⟨p', hp', hlast⟩ := @updateLine_of_some t d T p last true _ hvariant
      (discountAmount_true hzero)
    rw [if_pos hvariant, ← htotal]
    exact ⟨p', hp', hadds.trans hlast⟩
  · obtain ⟨p', hp', hlast⟩ := @updateLine_of_none t d T last (by simpa using hvariant) true p
    rw [if_neg hvariant]
    exact ⟨p', hp', hadds.trans hlast⟩

end Amounts

/-! ### Whether the discount is distributed -/

section Distribution

variable {t : TaxContext} {d : ℚ}

/-- **What the last line would have to bear**: its share, and what the other lines did not take of
theirs. -/
def dueOfLast (t : TaxContext) (d T : ℚ) (lines : List OrderLine) (last : OrderLine) : ℚ :=
  share T d last.lineTotalPrice
    + (lines.map fun l => share T d l.lineTotalPrice - takes t d T l).sum

/-- **The condition**: a line that is skipped had no price before discounts; the share of a line before
the last is rounded to at most its price; and what the last line has to bear is between zero and its
price, or nothing if it is skipped. -/
structure Distributable (t : TaxContext) (d : ℚ) (lines : List OrderLine) : Prop where
  skipped : ∀ l ∈ lines, l.variant = none → l.undiscountedBaseUnitPrice = 0
  rounds : ∀ l ∈ lines.dropLast, l.variant.isSome →
    RoundsAtMost t.places (share (orderTotalPrice lines) d l.lineTotalPrice)
      ⌊l.lineTotalPrice * 10 ^ t.places⌋
  last : ∀ l ∈ lines.getLast?,
    if l.variant.isSome then
      0 ≤ dueOfLast t d (orderTotalPrice lines) lines.dropLast l ∧
        dueOfLast t d (orderTotalPrice lines) lines.dropLast l ≤ l.lineTotalPrice
    else dueOfLast t d (orderTotalPrice lines) lines.dropLast l = 0

/-- What the last line has to bear is what the others leave. -/
theorem dueOfLast_eq {T : ℚ} (h : d = 0 ∨ T ≠ 0) {lines : List OrderLine} {last : OrderLine}
    (hT : T = orderTotalPrice (lines ++ [last])) :
    dueOfLast t d T lines last = d - (lines.map (takes t d T)).sum := by
  have hshares : (lines.map fun l => share T d l.lineTotalPrice).sum + share T d last.lineTotalPrice
      = d := by
    have hall := sum_share T d ((lines ++ [last]).map OrderLine.lineTotalPrice)
    rw [← orderTotalPrice, ← hT, List.map_map] at hall
    rw [List.map_append, List.sum_append] at hall
    refine Eq.trans ?_ (hall.trans ?_)
    · simp [Function.comp_def]
    · rcases h with rfl | hne
      · rw [share, mul_zero]
      · exact share_self hne
  have hsub := sumIf_sub (fun _ => true) (fun l : OrderLine => share T d l.lineTotalPrice)
    (takes t d T) lines
  rw [sumIf_of_forall fun _ _ => rfl, sumIf_of_forall fun _ _ => rfl,
    sumIf_of_forall fun _ _ => rfl] at hsub
  rw [dueOfLast, hsub]
  linarith only [hshares]

/-- The skipped lines come to nothing exactly if none of them had a price. -/
theorem sum_undiscounted_iff (lines : List OrderLine) :
    ((lines.filter (·.variant.isSome)).map OrderLine.undiscountedLineTotalPrice).sum
        = (lines.map OrderLine.undiscountedLineTotalPrice).sum ↔
      ∀ l ∈ lines, l.variant = none → l.undiscountedBaseUnitPrice = 0 := by
  have hite := sum_map_ite OrderLine.undiscountedLineTotalPrice
    (fun l : OrderLine => l.variant.isSome = true) lines
  simp only [sumIf, Bool.decide_eq_true] at hite
  have hle : ∀ l ∈ lines, (if l.variant.isSome = true then l.undiscountedLineTotalPrice else 0)
      ≤ l.undiscountedLineTotalPrice := by
    intro l _
    split_ifs
    · exact le_rfl
    · exact mul_nonneg l.undiscountedBaseUnitPrice_nonneg (Nat.cast_nonneg _)
  rw [← hite, Grouping.sum_map_eq_iff_of_le hle]
  refine forall₂_congr fun l _ => ?_
  have hquantity : (l.quantity : ℚ) ≠ 0 := Nat.cast_ne_zero.mpr l.quantity_pos.ne'
  rcases hvariant : l.variant with - | v
  · rw [if_neg (by simp), OrderLine.undiscountedLineTotalPrice, eq_comm, mul_eq_zero,
      or_iff_left hquantity]
    exact ⟨fun h _ => h, fun h => h rfl⟩
  · refine iff_of_true (if_pos rfl) fun h => ?_
    cases h

variable {T : ℚ} {lines : List OrderLine} {last : OrderLine}

/-- The amounts are those of the lines with a variant. -/
theorem map_fst_amountsOf :
    (amountsOf t d T lines last).map (·.1) = (lines ++ [last]).filter (·.variant.isSome) := by
  rw [amountsOf, List.map_append, List.map_map, List.filter_append]
  refine congrArg₂ _ ((List.map_congr_left fun _ _ => rfl).trans (List.map_id _)) ?_
  by_cases hvariant : last.variant.isSome
  · rw [if_pos hvariant, List.filter_cons_of_pos (by exact hvariant)]
    rfl
  · rw [if_neg hvariant, List.filter_cons_of_neg (by exact hvariant)]
    rfl

/-- They add up to the discount, unless the last line is skipped. -/
theorem sum_amountsOf :
    ((amountsOf t d T lines last).map (·.2)).sum = d ↔
      (last.variant.isSome ∨ d - (lines.map (takes t d T)).sum = 0) := by
  rw [amountsOf, List.map_append, List.sum_append, sum_takes]
  by_cases hvariant : last.variant.isSome
  · rw [if_pos hvariant]
    simp [hvariant]
  · rw [if_neg hvariant, sub_eq_zero]
    simp [hvariant, eq_comm]

/-- A rounded share is never negative. -/
theorem bounds_amountsOf (hd : 0 ≤ d) (hT : 0 ≤ T) :
    (∀ a ∈ amountsOf t d T lines last, 0 ≤ a.2 ∧ a.2 ≤ a.1.lineTotalPrice) ↔
      (∀ l ∈ lines, l.variant.isSome → RoundsAtMost t.places (share T d l.lineTotalPrice)
        ⌊l.lineTotalPrice * 10 ^ t.places⌋) ∧
      (last.variant.isSome → 0 ≤ d - (lines.map (takes t d T)).sum ∧
        d - (lines.map (takes t d T)).sum ≤ last.lineTotalPrice) := by
  have hnonneg : ∀ l : OrderLine, 0 ≤ roundedShare t d T l := fun l =>
    quantizeTo_nonneg (share_nonneg l.lineTotalPrice_nonneg hd hT)
  rw [amountsOf, List.forall_mem_append, List.forall_mem_map]
  refine and_congr ?_ ?_
  · simp only [List.mem_filter, and_imp, hnonneg, true_and]
    exact forall₃_congr fun l _ _ => quantizeTo_le_iff_floor
  · split_ifs with hvariant
    · rw [List.forall_mem_singleton]
      exact ⟨fun h _ => h, fun h => h hvariant⟩
    · exact iff_of_true (fun a ha => absurd ha List.not_mem_nil) fun h => absurd h hvariant

theorem distributes_iff_of_adds {p : Progress} (hd : 0 ≤ d) (hT : 0 ≤ T)
    (h : Adds (amountsOf t d T lines last) {} p) :
    Distributes d (lines ++ [last]) p ↔
      (∀ l ∈ lines ++ [last], l.variant = none → l.undiscountedBaseUnitPrice = 0) ∧
      (last.variant.isSome ∨ d - (lines.map (takes t d T)).sum = 0) ∧
      (∀ l ∈ lines, l.variant.isSome → RoundsAtMost t.places (share T d l.lineTotalPrice)
        ⌊l.lineTotalPrice * 10 ^ t.places⌋) ∧
      (last.variant.isSome → 0 ≤ d - (lines.map (takes t d T)).sum ∧
        d - (lines.map (takes t d T)).sum ≤ last.lineTotalPrice) := by
  have hrows : p.discountAmounts = amountsOf t d T lines last := by
    rw [h.discountAmounts]
    exact List.nil_append _
  have hsubtotal : p.undiscountedSubtotal
      = ⟨(((lines ++ [last]).filter (·.variant.isSome)).map
          OrderLine.undiscountedLineTotalPrice).sum,
        (((lines ++ [last]).filter (·.variant.isSome)).map
          OrderLine.undiscountedLineTotalPrice).sum⟩ := by
    rw [h.undiscountedSubtotal, ← @map_fst_amountsOf t d T lines last, List.map_map]
    exact congrArg₂ TaxedMoney.mk (zero_add _) (zero_add _)
  rw [← sum_undiscounted_iff, ← sum_amountsOf, ← bounds_amountsOf hd hT]
  constructor
  · intro hdistributes
    have heq := hsubtotal.symm.trans hdistributes.undiscountedSubtotal
    refine ⟨congrArg TaxedMoney.net heq, ?_, ?_⟩
    · rw [← hrows]
      exact hdistributes.sum
    · rw [← hrows]
      exact hdistributes.bounds
  · rintro ⟨hskipped, hsum, hbounds⟩
    refine ⟨?_, ?_, ?_, h.nonneg fun l hl => absurd hl List.not_mem_nil, ?_⟩
    · rw [hrows]
      exact map_fst_amountsOf
    · rw [hrows]
      exact hsum
    · rw [hrows]
      exact hbounds
    · rw [hsubtotal, hskipped]

/-- The condition, in terms of what the others leave to the last line. -/
theorem distributable_concat_iff (h : d = 0 ∨ orderTotalPrice (lines ++ [last]) ≠ 0) :
    Distributable t d (lines ++ [last]) ↔
      (∀ l ∈ lines ++ [last], l.variant = none → l.undiscountedBaseUnitPrice = 0) ∧
      (last.variant.isSome ∨
        d - (lines.map (takes t d (orderTotalPrice (lines ++ [last])))).sum = 0) ∧
      (∀ l ∈ lines, l.variant.isSome →
        RoundsAtMost t.places (share (orderTotalPrice (lines ++ [last])) d l.lineTotalPrice)
          ⌊l.lineTotalPrice * 10 ^ t.places⌋) ∧
      (last.variant.isSome →
        0 ≤ d - (lines.map (takes t d (orderTotalPrice (lines ++ [last])))).sum ∧
          d - (lines.map (takes t d (orderTotalPrice (lines ++ [last])))).sum
            ≤ last.lineTotalPrice) := by
  have hdue := @dueOfLast_eq t d _ h lines last rfl
  constructor
  · rintro ⟨hskipped, hrounds, hlast⟩
    rw [List.dropLast_concat] at hrounds hlast
    have hlast := hlast last List.getLast?_concat
    rw [hdue] at hlast
    refine ⟨hskipped, ?_, hrounds, fun hvariant => ?_⟩
    · split_ifs at hlast with hvariant
      · exact .inl hvariant
      · exact .inr hlast
    · rw [if_pos hvariant] at hlast
      exact hlast
  · rintro ⟨hskipped, hsum, hrounds, hbounds⟩
    refine ⟨hskipped, ?_, ?_⟩
    · rw [List.dropLast_concat]
      exact hrounds
    · intro l hl
      rw [List.getLast?_concat, Option.mem_some_iff] at hl
      subst hl
      rw [List.dropLast_concat, hdue]
      split_ifs with hvariant
      · exact hbounds hvariant
      · exact hsum.resolve_left hvariant

/-- An item for 10, whose variant may be gone. -/
def tenOf (variant : Option ℕ) : OrderLine where
  variant := variant
  quantity := 1
  quantity_pos := Nat.one_pos
  baseUnitPrice := 10
  baseUnitPrice_nonneg := by decide +kernel
  undiscountedBaseUnitPrice := 10
  undiscountedBaseUnitPrice_nonneg := by decide +kernel

/-- An order with 6 off. -/
def sixOff : Order where
  discounts := [{ id := 1, amount := 6 }]
  undiscountedTotalGross := 20

/-- Prices to the cent, without taxes. -/
def untaxed : TaxContext := ⟨2, "PL", 0, true⟩

end Distribution

end FlatRates

end Aixinwu
