import Aixinwu.Checkout.LinePrices
import Aixinwu.Product.Promotions

/-!
# What an order costs before taxes, and what its discounts take off

`order/base_calculations.py` goes through the discounts of an order with two running amounts, the
subtotal and the shipping price. A voucher is applied to the subtotal. A manual percentage is applied
to both amounts, a manual fixed discount to their sum, of which the subtotal bears its proportion. On
each discount it records what the two amounts went down by, and the rows whose amount is another one
are written.

The amounts that are recorded are never read again, so the running amounts are the same when the
function is called once more, and nothing is left to write then.

The prices are exact here, and the two rules of the package `prices` are parameters.

## Main definitions

* `OrderDiscount`, `Order`, `Running`
* `baseOrderSubtotal`, `baseOrderTotal`
* `runningAt` — the two amounts after some of the discounts

## Main results

* `rows_baseOrderTotal` — the discounts after the call
* `baseOrderTotal_records`
-/

namespace Aixinwu

namespace BaseCalculations

open Checkout Checkout.LinePrices Promotions

/-- `order.models.OrderLine`, as far as base prices go. -/
structure OrderLine where
  baseUnitPrice : ℚ
  quantity : ℤ
deriving DecidableEq, Repr

/-- `discount.models.OrderDiscount`; the amount is `amount_value`. -/
structure OrderDiscount where
  id : ℕ
  type : DiscountType := .manual
  valueType : DiscountValueType := .fixed
  value : ℚ := 0
  amount : ℚ := 0
deriving DecidableEq, Repr

instance : HasPk OrderDiscount ℕ := ⟨OrderDiscount.id⟩

/-- `amount_value = …`. -/
def OrderDiscount.setAmount (d : OrderDiscount) (amount : ℚ) : OrderDiscount :=
  { d with amount := amount }

@[simp] theorem OrderDiscount.amount_setAmount (d : OrderDiscount) (amount : ℚ) :
    (d.setAmount amount).amount = amount := rfl

@[simp] theorem OrderDiscount.id_setAmount (d : OrderDiscount) (amount : ℚ) :
    (d.setAmount amount).id = d.id := rfl

/-- `order.models.Order`, as far as base prices go; `discounts` are its discounts by `created_at`. -/
structure Order where
  baseShippingPrice : ℚ
  discounts : Table OrderDiscount

/-- `base_order_subtotal`. -/
def baseOrderSubtotal (lines : List OrderLine) : ℚ :=
  (lines.map fun line => line.baseUnitPrice * (line.quantity : ℚ)).sum

/-- `subtotal` and `shipping_price` of the loop. -/
structure Running where
  subtotal : ℚ
  shippingPrice : ℚ
deriving DecidableEq, Repr

/-- `subtotal + shipping_price`. -/
def Running.total (r : Running) : ℚ := r.subtotal + r.shippingPrice

/-- Neither amount is negative. -/
def Running.Nonneg (r : Running) : Prop := 0 ≤ r.subtotal ∧ 0 ≤ r.shippingPrice

variable (prices : PricesPackage)

/-- `apply_discount_to_value`. -/
def applyDiscountToValue (value : ℚ) (valueType : DiscountValueType) (priceToDiscount : ℚ) : ℚ :=
  match valueType with
  | .fixed => prices.fixedDiscount priceToDiscount value
  | .percentage => prices.percentageDiscount priceToDiscount value

/-- A round of the loop, up to the two amounts. -/
def Running.discounted (r : Running) (d : OrderDiscount) : Running :=
  if d.type = .voucher then
    { r with subtotal := applyDiscountToValue prices d.value d.valueType r.subtotal }
  else if d.valueType = .percentage then
    { subtotal := applyDiscountToValue prices d.value d.valueType r.subtotal
      shippingPrice := applyDiscountToValue prices d.value d.valueType r.shippingPrice }
  else if 0 < r.total then
    let totalDiscount := r.total - applyDiscountToValue prices d.value d.valueType r.total
    let subtotalDiscount := r.subtotal / r.total * totalDiscount
    { subtotal := r.subtotal - subtotalDiscount
      shippingPrice := r.shippingPrice - (totalDiscount - subtotalDiscount) }
  else r

/-- `total_discount_amount`: what a round takes off the two amounts. -/
def totalDiscountAmount (before after : Running) : ℚ :=
  (before.shippingPrice - after.shippingPrice) + (before.subtotal - after.subtotal)

/-- The loop: the two amounts at the end, and `order_discounts_to_update`. -/
def applyDiscounts : Running → List OrderDiscount → Running × List OrderDiscount
  | r, [] => (r, [])
  | r, d :: ds =>
    let after := r.discounted prices d
    let amount := totalDiscountAmount r after
    let rest := applyDiscounts after ds
    (rest.1, if d.amount ≠ amount then d.setAmount amount :: rest.2 else rest.2)

/-- The two amounts that the loop begins with. -/
def start (order : Order) (lines : List OrderLine) : Running :=
  ⟨baseOrderSubtotal lines, order.baseShippingPrice⟩

/-- `base_order_total`: the price, and the order with the discounts that were written. -/
def baseOrderTotal (order : Order) (lines : List OrderLine) : ℚ × Order :=
  let after := applyDiscounts prices (start order lines) order.discounts.rows
  let orderDiscountsToUpdate := after.2
  (max after.1.total 0,
    { order with
      discounts := order.discounts.bulkUpdate orderDiscountsToUpdate
        (fun m d => d.setAmount m.amount) fun m d => d.id_setAmount m.amount })

/-! ### The running amounts -/

/-- The two amounts after the first `i` discounts. -/
def runningAt (r : Running) (ds : List OrderDiscount) (i : ℕ) : Running :=
  (ds.take i).foldl (Running.discounted prices) r

variable {prices}

@[simp] theorem runningAt_zero (r : Running) (ds : List OrderDiscount) :
    runningAt prices r ds 0 = r := rfl

@[simp] theorem runningAt_cons_succ (r : Running) (d : OrderDiscount) (ds : List OrderDiscount)
    (i : ℕ) :
    runningAt prices r (d :: ds) (i + 1) = runningAt prices (r.discounted prices d) ds i := rfl

theorem totalDiscountAmount_eq (before after : Running) :
    totalDiscountAmount before after = before.total - after.total := by
  rw [totalDiscountAmount, Running.total, Running.total]
  ring

theorem applyDiscounts_fst (r : Running) (ds : List OrderDiscount) :
    (applyDiscounts prices r ds).1 = runningAt prices r ds ds.length := by
  induction ds generalizing r with
  | nil => rfl
  | cons d ds ih =>
    rw [applyDiscounts, List.length_cons, runningAt_cons_succ]
    exact ih _

/-- What the package is taken to do: a fixed discount ends at nothing, a percentage is exact. -/
structure ExactPrices (prices : PricesPackage) : Prop where
  fixed : ∀ base discount, prices.fixedDiscount base discount = max (base - discount) 0
  percentage : ∀ base percentage,
    prices.percentageDiscount base percentage = base - base * percentage / 100

/-- A discount that can be given: not negative, and no more than all of it. -/
def OrderDiscount.Valid (d : OrderDiscount) : Prop :=
  0 ≤ d.value ∧ (d.valueType = .percentage → d.value ≤ 100)

/-- A discounted price is between nothing and the price. -/
theorem applyDiscountToValue_mem (hprices : ExactPrices prices) {d : OrderDiscount} (hd : d.Valid)
    {price : ℚ} (hprice : 0 ≤ price) :
    0 ≤ applyDiscountToValue prices d.value d.valueType price ∧
      applyDiscountToValue prices d.value d.valueType price ≤ price := by
  obtain ⟨hvalue, hpercentage⟩ := hd
  rcases htype : d.valueType with _ | _
  · rw [applyDiscountToValue, hprices.fixed]
    exact ⟨le_max_right _ _, max_le (sub_le_self price hvalue) hprice⟩
  · have hle : d.value ≤ 100 := hpercentage htype
    rw [applyDiscountToValue, hprices.percentage]
    have hall : price * d.value / 100 ≤ price := by
      rw [div_le_iff₀ (by norm_num)]
      exact mul_le_mul_of_nonneg_left hle hprice
    have hnonneg : 0 ≤ price * d.value / 100 := by positivity
    exact ⟨sub_nonneg.mpr hall, sub_le_self price hnonneg⟩

/-- **A round keeps both amounts from falling below nothing.** What a fixed discount takes off the sum
is at most the sum, so each amount bears a proportion of itself. -/
theorem Running.Nonneg.discounted (hprices : ExactPrices prices) {r : Running} (hr : r.Nonneg)
    {d : OrderDiscount} (hd : d.Valid) : (r.discounted prices d).Nonneg := by
  obtain ⟨hsubtotal, hshipping⟩ := hr
  rw [Running.discounted]
  split_ifs with hvoucher hpercentage hpositive
  · exact ⟨(applyDiscountToValue_mem hprices hd hsubtotal).1, hshipping⟩
  · exact ⟨(applyDiscountToValue_mem hprices hd hsubtotal).1,
      (applyDiscountToValue_mem hprices hd hshipping).1⟩
  · have htotal := applyDiscountToValue_mem hprices hd hpositive.le
    set left := applyDiscountToValue prices d.value d.valueType r.total with hleft
    have hsubtotal' : r.subtotal - r.subtotal / r.total * (r.total - left)
        = r.subtotal / r.total * left := by
      field_simp
      ring
    have hshipping' : r.shippingPrice - (r.total - left - r.subtotal / r.total * (r.total - left))
        = r.shippingPrice / r.total * left := by
      have hsum : r.shippingPrice = r.total - r.subtotal := by
        rw [Running.total]
        ring
      rw [hsum]
      field_simp
      ring
    refine ⟨?_, ?_⟩
    · show 0 ≤ r.subtotal - r.subtotal / r.total * (r.total - left)
      rw [hsubtotal']
      exact mul_nonneg (div_nonneg hsubtotal hpositive.le) htotal.1
    · show 0 ≤ r.shippingPrice - (r.total - left - r.subtotal / r.total * (r.total - left))
      rw [hshipping']
      exact mul_nonneg (div_nonneg hshipping hpositive.le) htotal.1
  · exact ⟨hsubtotal, hshipping⟩

/-- **The amounts of a run** are never negative. -/
theorem nonneg_runningAt (hprices : ExactPrices prices) {r : Running} (hr : r.Nonneg)
    {ds : List OrderDiscount} (hds : ∀ d ∈ ds, d.Valid) (i : ℕ) :
    (runningAt prices r ds i).Nonneg := by
  induction ds generalizing r i with
  | nil =>
    rw [runningAt, List.take_nil]
    exact hr
  | cons d ds ih =>
    cases i with
    | zero => exact hr
    | succ i =>
      rw [runningAt_cons_succ]
      exact ih (hr.discounted hprices (hds d List.mem_cons_self))
        (fun e he => hds e (List.mem_cons_of_mem d he)) i

/-! ### What is recorded -/

/-- The discounts with what each takes off. -/
def recorded (prices : PricesPackage) : Running → List OrderDiscount → List OrderDiscount
  | _, [] => []
  | r, d :: ds =>
    let after := r.discounted prices d
    d.setAmount (totalDiscountAmount r after) :: recorded prices after ds

/-- The row that `bulk_update` leaves of a discount. -/
def written (objs : List OrderDiscount) (d : OrderDiscount) : OrderDiscount :=
  match objs.find? fun m => m.id = d.id with
  | some m => d.setAmount m.amount
  | none => d

theorem written_cons_of_ne {m d : OrderDiscount} (objs : List OrderDiscount) (h : m.id ≠ d.id) :
    written (m :: objs) d = written objs d := by
  rw [written, List.find?_cons_of_neg (by simpa using h), written]

theorem written_of_not_mem {objs : List OrderDiscount} {d : OrderDiscount}
    (h : d.id ∉ objs.map (·.id)) : written objs d = d := by
  have hnone : (objs.find? fun m => m.id = d.id) = none := by
    refine List.find?_eq_none.mpr fun m hm => ?_
    simp only [decide_eq_true_eq]
    exact fun hid => h (hid ▸ List.mem_map_of_mem hm)
  rw [written, hnone]

/-- Only discounts of the list are written. -/
theorem ids_applyDiscounts (r : Running) (ds : List OrderDiscount) :
    ∀ k ∈ (applyDiscounts prices r ds).2.map (·.id), k ∈ ds.map (·.id) := by
  induction ds generalizing r with
  | nil => exact fun k hk => hk
  | cons d ds ih =>
    intro k hk
    rw [applyDiscounts] at hk
    rw [List.map_cons]
    split_ifs at hk
    · rw [List.map_cons] at hk
      rcases List.mem_cons.mp hk with rfl | hk
      · exact List.mem_cons_self
      · exact List.mem_cons_of_mem _ (ih _ k hk)
    · exact List.mem_cons_of_mem _ (ih _ k hk)

/-- **What is written makes the rows right**: those that are not written have their amount already. -/
theorem map_written {ds : List OrderDiscount} (hids : (ds.map (·.id)).Nodup) (r : Running) :
    ds.map (written (applyDiscounts prices r ds).2) = recorded prices r ds := by
  induction ds generalizing r with
  | nil => rfl
  | cons d ds ih =>
    rw [List.map_cons, List.nodup_cons] at hids
    obtain ⟨hfresh, hids⟩ := hids
    rw [applyDiscounts, recorded, List.map_cons]
    split_ifs with hchanged
    · refine congrArg₂ List.cons ?_ ((List.map_congr_left fun e he => ?_).trans (ih hids _))
      · rw [written, List.find?_cons_of_pos (by simp)]
        rfl
      · refine written_cons_of_ne _ fun hid => hfresh ?_
        rw [OrderDiscount.id_setAmount] at hid
        exact hid ▸ List.mem_map_of_mem he
    · refine congrArg₂ List.cons ?_ (ih hids _)
      rw [written_of_not_mem fun hmem => hfresh (ids_applyDiscounts _ _ _ hmem)]
      exact congrArg d.setAmount (not_not.mp hchanged)

/-- **The discounts after the call.** -/
theorem rows_baseOrderTotal (order : Order) (lines : List OrderLine) :
    (baseOrderTotal prices order lines).2.discounts.rows
      = recorded prices (start order lines) order.discounts.rows := by
  rw [← map_written order.discounts.nodup, baseOrderTotal]
  simp only [Table.bulkUpdate, Table.rows_map]
  refine List.map_congr_left fun d _ => ?_
  rw [written]
  have hfind : ((applyDiscounts prices (start order lines) order.discounts.rows).2.find?
      fun m => pk m = pk d) = (applyDiscounts prices (start order lines)
        order.discounts.rows).2.find? fun m => m.id = d.id := rfl
  rw [hfind]
  cases (applyDiscounts prices (start order lines) order.discounts.rows).2.find? fun m =>
    m.id = d.id
  · rfl
  · rfl

theorem getElem?_recorded (r : Running) (ds : List OrderDiscount) (i : ℕ) :
    (recorded prices r ds)[i]? = ds[i]?.map fun d =>
      d.setAmount ((runningAt prices r ds i).total - (runningAt prices r ds (i + 1)).total) := by
  induction ds generalizing r i with
  | nil => rfl
  | cons d ds ih =>
    rw [recorded]
    cases i with
    | zero =>
      rw [List.getElem?_cons_zero, List.getElem?_cons_zero, totalDiscountAmount_eq]
      rfl
    | succ i =>
      rw [List.getElem?_cons_succ, List.getElem?_cons_succ, ih]
      rfl

/-- The recorded amounts come to what the total went down by. -/
theorem sum_recorded (r : Running) (ds : List OrderDiscount) :
    ((recorded prices r ds).map (·.amount)).sum
      = r.total - (runningAt prices r ds ds.length).total := by
  induction ds generalizing r with
  | nil => exact (sub_self r.total).symm
  | cons d ds ih =>
    rw [recorded, List.map_cons, List.sum_cons, ih, List.length_cons, runningAt_cons_succ,
      OrderDiscount.amount_setAmount, totalDiscountAmount_eq]
    ring

/-- The amounts of the discounts are not read. -/
theorem applyDiscounts_recorded (r : Running) (ds : List OrderDiscount) :
    applyDiscounts prices r (recorded prices r ds) = ((applyDiscounts prices r ds).1, []) := by
  induction ds generalizing r with
  | nil => rfl
  | cons d ds ih =>
    have hsame : r.discounted prices (d.setAmount (totalDiscountAmount r (r.discounted prices d)))
        = r.discounted prices d := rfl
    rw [recorded, applyDiscounts, applyDiscounts, hsame, ih, OrderDiscount.amount_setAmount,
      if_neg (not_not.mpr rfl)]

/-- **Another call** returns the same and changes nothing. -/
theorem baseOrderTotal_again (order : Order) (lines : List OrderLine) :
    baseOrderTotal prices (baseOrderTotal prices order lines).2 lines
      = baseOrderTotal prices order lines := by
  have hagain : applyDiscounts prices (start (baseOrderTotal prices order lines).2 lines)
      (baseOrderTotal prices order lines).2.discounts.rows
      = ((applyDiscounts prices (start order lines) order.discounts.rows).1, []) := by
    rw [rows_baseOrderTotal]
    exact applyDiscounts_recorded _ _
  refine Prod.ext ?_ ?_
  · show max (applyDiscounts prices _ _).1.total 0 = _
    rw [hagain]
    rfl
  · simp only [baseOrderTotal] at hagain ⊢
    rw [hagain, Table.bulkUpdate_nil]

/-- **What an order's discounts take off is what is recorded on them.** The two amounts are never
negative, the price is the undiscounted one less the recorded amounts, each discount has what it took
off, and another call returns the same and changes nothing. -/
theorem baseOrderTotal_records (hprices : ExactPrices prices) (order : Order)
    (lines : List OrderLine) (hsubtotal : 0 ≤ baseOrderSubtotal lines)
    (hshipping : 0 ≤ order.baseShippingPrice) (hdiscounts : ∀ d ∈ order.discounts, d.Valid) :
    (∀ i, (runningAt prices (start order lines) order.discounts.rows i).Nonneg) ∧
      (baseOrderTotal prices order lines).1
        = baseOrderSubtotal lines + order.baseShippingPrice
          - ((baseOrderTotal prices order lines).2.discounts.rows.map (·.amount)).sum ∧
      (∀ i : ℕ, (baseOrderTotal prices order lines).2.discounts.rows[i]?
        = order.discounts.rows[i]?.map fun d =>
          d.setAmount ((runningAt prices (start order lines) order.discounts.rows i).total
            - (runningAt prices (start order lines) order.discounts.rows (i + 1)).total)) ∧
      baseOrderTotal prices (baseOrderTotal prices order lines).2 lines
        = baseOrderTotal prices order lines := by
  have hstart : (start order lines).Nonneg := ⟨hsubtotal, hshipping⟩
  have hnonneg := nonneg_runningAt hprices hstart hdiscounts
  have hrows := @rows_baseOrderTotal prices order lines
  have htotal : (baseOrderTotal prices order lines).1
      = (runningAt prices (start order lines) order.discounts.rows
        order.discounts.rows.length).total := by
    show max (applyDiscounts prices _ _).1.total 0 = _
    rw [applyDiscounts_fst]
    exact max_eq_left (add_nonneg (hnonneg _).1 (hnonneg _).2)
  refine ⟨hnonneg, ?_, fun i => ?_, ?_⟩
  · rw [htotal, hrows, sum_recorded]
    exact (sub_sub_cancel _ _).symm
  · rw [hrows, getElem?_recorded]
  · exact baseOrderTotal_again order lines

/-- Exact prices. -/
def exactly : PricesPackage where
  fixedDiscount base discount := max (base - discount) 0
  percentageDiscount base percentage := base - base * percentage / 100

/-- Shipping for 10, a voucher of a tenth and 19 off by hand. -/
def discountedOrder : Order where
  baseShippingPrice := 10
  discounts := ⟨[⟨1, .voucher, .percentage, 10, 0⟩, ⟨2, .manual, .fixed, 19, 19⟩], by decide⟩

/-- Three items for 10 each and shipping for 10, 10% off the items and then 19 off everything: 18 are
left. -/
theorem baseOrderTotal_records_discountedOrder :
    (baseOrderTotal exactly discountedOrder [⟨10, 3⟩]).1
      = baseOrderSubtotal [⟨10, 3⟩] + 10
        - ((baseOrderTotal exactly discountedOrder [⟨10, 3⟩]).2.discounts.rows.map (·.amount)).sum := by
  refine (baseOrderTotal_records ⟨fun _ _ => rfl, fun _ _ => rfl⟩ discountedOrder [⟨10, 3⟩]
    (by norm_num [baseOrderSubtotal]) (by norm_num [discountedOrder]) ?_).2.1
  intro d hd
  have hd : d ∈ discountedOrder.discounts.rows := hd
  simp only [discountedOrder, List.mem_cons, List.not_mem_nil, or_false] at hd
  rcases hd with rfl | rfl
  · exact ⟨by norm_num, fun _ => by norm_num⟩
  · exact ⟨by norm_num, fun h => by cases h⟩

end BaseCalculations

end Aixinwu
