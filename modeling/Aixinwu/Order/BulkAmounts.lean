import Aixinwu.Lib.Aggregates
import Aixinwu.Lib.Decimals
import Aixinwu.Order.BulkPolicies
import Aixinwu.Order.Models

/-!
# The amounts and the status of imported orders

`OrderBulkCreate` takes the amounts of an order from its input: those of a line are its total prices and
what they come to for one item, those of the order are the sums over its lines, and the shipping price
beside them. What is imported as the status is compared with the quantities that are ordered and
fulfilled in all.

The making of an order is written out here with these, over the making of `BulkCreate.createSingleOrder`
that is given what amounts and status report. Whatever is made here is made there
(`createSingleOrder_data`), so what holds of policies and stocks holds of these orders too.

Amounts are those of the objects that are made, before they are put in columns of three decimal places.

## Main definitions

* `makeOrderLineCalculations`, `makeOrderCalculations` — the amounts
* `getDeliveryMethod`, `validateOrderStatus`
* `createSingleOrder`, `performMutation`

## Main results

* `makeOrderLineCalculations_eq` — the amounts of a line are always there to be computed
* `makeOrderCalculations_eq_error_iff` — those of an order are not
* `createSingleOrder_data`, `performMutation_data` — the import as `BulkCreate` knows it
-/

namespace Aixinwu

namespace BulkAmounts

open BulkCreate (OrderBulkError OrderBulkCreateErrorCode OrderBulkCreateData OrderBulkOrderLine
  FulfillmentLineInput TaxedMoneyInput MutationError Report DateInput SavedOrder ErrorPolicy
  StockUpdatePolicy Database isDatetimeValid)

/-! ### Data -/

/-- `OrderBulkCreateOrderLineInput`, with what amounts and delivery ask of it. -/
structure OrderLineInput extends BulkCreate.OrderLineInput where
  taxRate : Option ℚ
  isShippingRequired : Bool

/-- `OrderBulkCreateDeliveryMethodInput`. The instances are what `get_instance` finds for an id, if it is
given; that of the tax class is only asked for with a shipping method. -/
structure DeliveryMethodInput where
  warehouse : Option (Except OrderBulkError ℕ) := none
  shippingMethod : Option (Except OrderBulkError ℕ) := none
  shippingTaxClass : Except OrderBulkError ℕ
  shippingTaxRate : Option ℚ := none
  shippingPrice : Option TaxedMoneyInput := none

/-- `DeliveryMethod`. -/
structure DeliveryMethod where
  isShippingRequired : Bool
  warehouse : Option ℕ := none
  shippingMethod : Option ℕ := none
  shippingTaxClass : Option ℕ := none
deriving DecidableEq, Repr

/-- `LineAmounts`. -/
structure LineAmounts where
  totalGross : ℚ
  totalNet : ℚ
  unitGross : ℚ
  unitNet : ℚ
  undiscountedTotalGross : ℚ
  undiscountedTotalNet : ℚ
  undiscountedUnitGross : ℚ
  undiscountedUnitNet : ℚ
  unitDiscountAmount : ℚ
  quantity : ℕ
  taxRate : Option ℚ
deriving DecidableEq, Repr

/-- `OrderAmounts`. -/
structure OrderAmounts where
  shippingPriceGross : ℚ
  shippingPriceNet : ℚ
  totalGross : ℚ
  totalNet : ℚ
  undiscountedTotalGross : ℚ
  undiscountedTotalNet : ℚ
  shippingTaxRate : ℚ
deriving DecidableEq, Repr

/-- `OrderBulkCreateInput`. The channel is the one that is found, `places` are those of the currency, and
the other checks are given by the errors they report: `instances` for `get_instances_related_to_order`,
`details` for notes, transactions, invoices and discounts. -/
structure OrderInput where
  createdAt : DateInput
  urlAndWeight : List OrderBulkError
  externalReference : Option String
  currencyAndVoucher : Report
  instances : Report
  channel : ℕ
  places : ℕ
  lines : List OrderLineInput
  fulfillments : List (List FulfillmentLineInput)
  deliveryMethod : DeliveryMethodInput
  details : Except MutationError (List OrderBulkError)
  status : OrderStatus
  metadata : List OrderBulkError

/-- The fields of an `Order` that are set when everything has been checked. -/
structure OrderFields where
  status : OrderStatus
  amounts : OrderAmounts
deriving DecidableEq, Repr

/-- `OrderBulkCreateData`, with the amounts of the lines and the fields of the order. -/
structure OrderData where
  data : OrderBulkCreateData
  lineAmounts : List LineAmounts := []
  fields : Option OrderFields := none
deriving DecidableEq, Repr

/-- The prices in `object_storage`, by shipping method. -/
abbrev ShippingPrices : Type := ℕ → Option ℚ

/-- The price of a `ShippingMethodChannelListing`, by shipping method and channel. -/
abbrev Listings : Type := ℕ → ℕ → Option ℚ

/-! ### Amounts -/

/-- Decimal division. -/
def divide (a b : ℚ) : Except MutationError ℚ := if b = 0 then .error .arithmetic else .ok (a / b)

/-- The tax rate of a line. -/
def lineTaxRate (taxRate : Option ℚ) (price : TaxedMoneyInput) : Except MutationError (Option ℚ) :=
  match taxRate with
  | some taxRate => .ok (some taxRate)
  | none =>
    if 0 < price.net then (divide price.gross price.net).map fun ratio => some (ratio - 1)
    else .ok none

/-- `make_order_line_calculations`. The checks are those of `BulkCreate`. -/
def makeOrderLineCalculations (places : ℕ) (input : OrderLineInput) (index : ℕ)
    (d : OrderBulkCreateData) : Except MutationError (OrderBulkCreateData × Option LineAmounts) := do
  let price := input.totalPrice
  let undiscounted := input.undiscountedTotalPrice
  let d := (BulkCreate.makeOrderLineCalculations input.toOrderLineInput index d).1
  let taxRate ← lineTaxRate input.taxRate price
  if d.isCriticalError then .ok (d, none)
  else
    let unitNet ← divide price.net input.quantity
    let unitGross ← divide price.gross input.quantity
    let undiscountedUnitNet ← divide undiscounted.net input.quantity
    let undiscountedUnitGross ← divide undiscounted.gross input.quantity
    .ok (d, some {
      totalGross := price.gross
      totalNet := price.net
      unitGross := Decimals.quantizeTo places unitGross
      unitNet := Decimals.quantizeTo places unitNet
      undiscountedTotalGross := undiscounted.gross
      undiscountedTotalNet := undiscounted.net
      undiscountedUnitGross := Decimals.quantizeTo places undiscountedUnitGross
      undiscountedUnitNet := Decimals.quantizeTo places undiscountedUnitNet
      unitDiscountAmount :=
        Decimals.quantizeTo places undiscountedUnitNet - Decimals.quantizeTo places unitNet
      quantity := input.quantity.toNat
      taxRate := taxRate })

/-- The price of a shipping method that is in `object_storage`, or listed in the channel. -/
def listedPrice (prices : ShippingPrices) (listing : ℕ → Option ℚ) (shippingMethod : ℕ) : Option ℚ :=
  match prices shippingMethod with
  | some price => if price ≠ 0 then some price else listing shippingMethod
  | none => listing shippingMethod

/-- The amounts of an order with some lines, for a shipping price and tax rate. -/
def orderAmounts (lines : List LineAmounts) (shippingPrice : TaxedMoneyInput) (shippingTaxRate : ℚ) :
    OrderAmounts where
  shippingPriceGross := shippingPrice.gross
  shippingPriceNet := shippingPrice.net
  totalGross := (lines.map LineAmounts.totalGross).sum
  totalNet := (lines.map LineAmounts.totalNet).sum
  undiscountedTotalGross := (lines.map LineAmounts.undiscountedTotalGross).sum
  undiscountedTotalNet := (lines.map LineAmounts.undiscountedTotalNet).sum
  shippingTaxRate := shippingTaxRate

/-- `make_order_calculations`. -/
def makeOrderCalculations (listing : ℕ → Option ℚ) (deliveryMethod : DeliveryMethod)
    (input : DeliveryMethodInput) (lines : List LineAmounts) (prices : ShippingPrices)
    (d : OrderBulkCreateData) :
    Except MutationError (ShippingPrices × OrderBulkCreateData × OrderAmounts) :=
  let shippingTaxRate := input.shippingTaxRate.getD 0
  match deliveryMethod.shippingMethod with
  | none => .ok (prices, d, orderAmounts lines ⟨0, 0⟩ shippingTaxRate)
  | some shippingMethod =>
    match input.shippingPrice with
    | some price =>
      let d := if price.gross < price.net then
          d.addCritical ⟨"Net price can't be greater then gross price.",
            some "delivery_method.shipping_price", .priceError⟩ else d
      (divide price.gross price.net).map fun ratio =>
        (prices, d, orderAmounts lines price (ratio - 1))
    | none =>
      match listedPrice prices listing shippingMethod with
      | none => .ok (prices, d, orderAmounts lines ⟨0, 0⟩ shippingTaxRate)
      | some price =>
        if price = 0 then .ok (prices, d, orderAmounts lines ⟨0, 0⟩ shippingTaxRate)
        else .ok (Function.update prices shippingMethod (some price), d,
          orderAmounts lines ⟨price * (1 + shippingTaxRate), price⟩ shippingTaxRate)

/-! ### Making the orders -/

/-- `create_single_order_line`. -/
def createSingleOrderLine (places : ℕ) (input : OrderLineInput) (index : ℕ)
    (d : OrderBulkCreateData) :
    Except MutationError (OrderBulkCreateData × Option (OrderBulkOrderLine × LineAmounts)) :=
  let d := d.addLookup input.variant
  if input.variant.toOption = none ∧ input.productName = none then
    .ok (d.addError ⟨"Order line input must contain product name when no variant provided.",
      some s!"lines.{index}", .required⟩, none)
  else
    let d := d.addLookup input.warehouse
    match input.warehouse with
    | .error _ => .ok (d, none)
    | .ok warehouse =>
      let d := d.addLookup input.taxClass
      match makeOrderLineCalculations places input index d with
      | .error e => .error e
      | .ok (d, none) => .ok (d, none)
      | .ok (d, some amounts) =>
        match isDatetimeValid input.createdAt with
        | .error e => .error e
        | .ok valid =>
          let d := d.addUnless valid ⟨"Order line input contains future date.",
            some s!"lines.{index}.created_at", .futureDate⟩
          .ok (d.addErrors input.metadata,
            some (⟨input.variant.toOption, warehouse, amounts.quantity, 0⟩, amounts))

/-- `create_order_lines`, from the line with an index on, with the amounts of the lines. -/
def createOrderLines (places : ℕ) : List OrderLineInput → ℕ → OrderBulkCreateData →
    List LineAmounts → Except MutationError (OrderBulkCreateData × List LineAmounts)
  | [], _, d, amounts => .ok (d, amounts)
  | input :: inputs, index, d, amounts =>
    match createSingleOrderLine places input index d with
    | .error e => .error e
    | .ok (d, some (line, lineAmounts)) =>
      createOrderLines places inputs (index + 1) { d with lines := d.lines ++ [line] }
        (amounts ++ [lineAmounts])
    | .ok (d, none) =>
      createOrderLines places inputs (index + 1) { d with isCriticalError := true } amounts

/-- `is_shipping_required`. -/
def isShippingRequired (input : OrderInput) : Bool :=
  input.lines.any OrderLineInput.isShippingRequired

/-- An instance that is looked up if an id is given. -/
def found (instance? : Option (Except OrderBulkError ℕ)) : Option ℕ :=
  instance?.bind Except.toOption

/-- The error of a lookup, if an id is given. -/
def addFound (instance? : Option (Except OrderBulkError ℕ)) (d : OrderBulkCreateData) :
    OrderBulkCreateData :=
  match instance? with
  | none => d
  | some lookup => d.addLookup lookup

/-- `get_delivery_method`. -/
def getDeliveryMethod (input : DeliveryMethodInput) (isShippingRequired : Bool)
    (d : OrderBulkCreateData) : OrderBulkCreateData × DeliveryMethod :=
  if isShippingRequired = false then (d, { isShippingRequired := isShippingRequired })
  else
    let d := if input.warehouse.isSome ∧ input.shippingMethod.isSome then
        d.addError ⟨"Can't provide both warehouse and shipping method IDs.", some "delivery_method",
          .tooManyIdentifiers⟩ else d
    let d := addFound input.warehouse d
    let d := addFound input.shippingMethod d
    let d := if input.shippingMethod.isSome then d.addLookup input.shippingTaxClass else d
    if found input.warehouse = none ∧ found input.shippingMethod = none then
      (d.addCritical ⟨"No delivery method provided.", some "delivery_method", .required⟩,
        { isShippingRequired := isShippingRequired })
    else
      (d, { isShippingRequired := true
            warehouse := found input.warehouse
            shippingMethod := found input.shippingMethod
            shippingTaxClass :=
              if input.shippingMethod.isSome then input.shippingTaxClass.toOption else none })

/-- `total_order_quantity`. -/
def totalOrderQuantity (d : OrderBulkCreateData) : ℤ :=
  (d.lines.map fun line => (line.quantity : ℤ)).sum

/-- `total_fulfillment_quantity`. -/
def totalFulfillmentQuantity (d : OrderBulkCreateData) : ℤ :=
  (d.fulfillments.flatten.map BulkCreate.OrderBulkFulfillmentLine.quantity).sum

/-- A status that is at odds with what is ordered and fulfilled in all. -/
def InvalidStatus (status : OrderStatus) (ordered fulfilled : ℤ) : Prop :=
  (fulfilled = 0 ∧ (status = .partiallyFulfilled ∨ status = .fulfilled)) ∨
  (0 < fulfilled ∧ 0 < ordered - fulfilled ∧ (status = .fulfilled ∨ status = .unfulfilled)) ∨
  (ordered = fulfilled ∧ (status = .partiallyFulfilled ∨ status = .unfulfilled))

instance (status : OrderStatus) (ordered fulfilled : ℤ) :
    Decidable (InvalidStatus status ordered fulfilled) :=
  inferInstanceAs (Decidable (_ ∨ _ ∨ _))

/-- The error of `validate_order_status`. -/
def invalidStatusError : OrderBulkError := ⟨"Invalid order status.", some "status", .invalid⟩

/-- `validate_order_status`. -/
def validateOrderStatus (status : OrderStatus) (d : OrderBulkCreateData) : OrderBulkCreateData :=
  if InvalidStatus status (totalOrderQuantity d) (totalFulfillmentQuantity d) then
    d.addError invalidStatusError
  else d

/-- The input as `BulkCreate` knows it, given what instances and delivery, amounts, and the checks that
are left report. -/
def OrderInput.toOrderInput (input : OrderInput) (related amounts : Report)
    (details : List OrderBulkError) : BulkCreate.OrderInput where
  createdAt := input.createdAt
  urlAndWeight := input.urlAndWeight
  externalReference := input.externalReference
  currencyAndVoucher := input.currencyAndVoucher
  related := related
  lines := input.lines.map OrderLineInput.toOrderLineInput
  fulfillments := input.fulfillments
  amounts := .ok amounts
  details := .ok details

/-- `validate_order_input`. -/
def validateOrderInput (orders : List SavedOrder) (input : OrderInput) :
    Except MutationError OrderBulkCreateData :=
  BulkCreate.validateOrderInput orders
    (input.toOrderInput input.instances input.instances [])

/-- `create_single_order`, with the shipping prices that have been looked up. -/
def createSingleOrder (orders : List SavedOrder) (listings : Listings) (input : OrderInput)
    (prices : ShippingPrices) : Except MutationError (ShippingPrices × OrderData) :=
  match validateOrderInput orders input with
  | .error e => .error e
  | .ok d =>
    if d.isCriticalError then .ok (prices, { data := d })
    else
      let d := { d with order := some ⟨input.externalReference⟩ }.addReport input.instances
      match getDeliveryMethod input.deliveryMethod (isShippingRequired input) d with
      | (d, deliveryMethod) =>
        if d.isCriticalError then .ok (prices, { data := d.withoutOrder })
        else match createOrderLines input.places input.lines 0 d [] with
          | .error e => .error e
          | .ok (d, lines) =>
            if d.isCriticalError then .ok (prices, { data := d.withoutOrder, lineAmounts := lines })
            else
              let d := BulkCreate.createFulfillments input.fulfillments 0 d
              if d.isCriticalError then
                .ok (prices, { data := d.withoutOrder, lineAmounts := lines })
              else match makeOrderCalculations (fun method => listings method input.channel)
                  deliveryMethod input.deliveryMethod lines prices d with
                | .error e => .error e
                | .ok (prices, d, amounts) =>
                  if d.isCriticalError then
                    .ok (prices, { data := d.withoutOrder, lineAmounts := lines })
                  else match input.details with
                    | .error e => .error e
                    | .ok errors =>
                      let d := validateOrderStatus input.status (d.addErrors errors)
                      .ok (prices, { data := d.addErrors input.metadata
                                     lineAmounts := lines
                                     fields := some ⟨input.status, amounts⟩ })

/-- The loop over the inputs. -/
def createOrders (orders : List SavedOrder) (listings : Listings) :
    List OrderInput → ShippingPrices → Except MutationError (List OrderData)
  | [], _ => .ok []
  | input :: inputs, prices =>
    match createSingleOrder orders listings input prices with
    | .error e => .error e
    | .ok (prices, made) =>
      match createOrders orders listings inputs prices with
      | .error e => .error e
      | .ok rest => .ok (made :: rest)

/-- `perform_mutation`: the database, and for each input the order, if it was created, and the
errors. -/
def performMutation (db : Database) (listings : Listings) (inputs : List OrderInput)
    (errorPolicy : ErrorPolicy) (stockUpdatePolicy : StockUpdatePolicy) :
    Except MutationError (Database × List OrderData) :=
  if BulkCreate.maxOrders < inputs.length then
    .error (.bulkLimit s!"Number of orders exceeds limit: {BulkCreate.maxOrders}.")
  else match createOrders db.orders listings inputs fun _ => none with
    | .error e => .error e
    | .ok made =>
      let handled := BulkCreate.handleStocksUnlessSkip db.stocks stockUpdatePolicy
        (BulkCreate.handleErrorPolicy errorPolicy (made.map OrderData.data))
      match BulkCreate.saveData db handled.2 handled.1 with
      | .error e => .error e
      | .ok (db, saved) =>
        .ok (db, List.zipWith (fun order data => { order with data := data }) made saved)

/-! ### What is divided -/

section Amounts

variable {places index : ℕ} {input : OrderLineInput} {d : OrderBulkCreateData}

theorem divide_of_ne {b : ℚ} (a : ℚ) (hb : b ≠ 0) : divide a b = .ok (a / b) := if_neg hb

theorem map_eq_error_iff {α β : Type} {x : Except MutationError α} {f : α → β} {e : MutationError} :
    x.map f = .error e ↔ x = .error e := by
  cases x with
  | error e' => exact ⟨fun h => congrArg _ (Except.error.inj h), fun h => congrArg _ (Except.error.inj h)⟩
  | ok a => exact iff_of_false (fun h => by cases h) fun h => by cases h

theorem divide_eq_error_iff {a b : ℚ} {e : MutationError} :
    divide a b = .error e ↔ b = 0 ∧ e = .arithmetic := by
  rw [divide]
  split
  · rename_i hb
    rw [Except.error.injEq, and_iff_right hb, eq_comm]
  · rename_i hb
    exact iff_of_false (fun h => by cases h) fun h => hb h.1

/-- A line has a tax rate unless none is given and its price is not positive. -/
def taxRateOf (taxRate : Option ℚ) (price : TaxedMoneyInput) : Option ℚ :=
  taxRate.or (if 0 < price.net then some (price.gross / price.net - 1) else none)

theorem lineTaxRate_eq (taxRate : Option ℚ) (price : TaxedMoneyInput) :
    lineTaxRate taxRate price = .ok (taxRateOf taxRate price) := by
  cases taxRate with
  | some taxRate => rfl
  | none =>
    rw [lineTaxRate, taxRateOf, Option.none_or]
    split
    · rename_i hpos
      rw [divide_of_ne price.gross hpos.ne']
      rfl
    · rfl

theorem critical_ite {c : Prop} [Decidable c] {e : OrderBulkError}
    (h : d.isCriticalError = true) : (if c then d.addCritical e else d).isCriticalError = true := by
  split
  · rfl
  · exact h

/-- A line with amounts has a quantity. -/
theorem one_le_quantity_of_not_critical {input : BulkCreate.OrderLineInput}
    (h : (BulkCreate.makeOrderLineCalculations input index d).1.isCriticalError = false) :
    1 ≤ input.quantity := by
  by_contra hquantity
  have hcritical : (BulkCreate.makeOrderLineCalculations input index d).1.isCriticalError = true := by
    refine critical_ite (critical_ite (critical_ite ?_))
    rw [if_pos (by omega)]
    rfl
  rw [h] at hcritical
  cases hcritical

/-- The amounts of a line whose quantity is there. -/
def lineAmounts (places : ℕ) (input : OrderLineInput) : LineAmounts :=
  let price := input.totalPrice
  let undiscounted := input.undiscountedTotalPrice
  let unit := fun total : ℚ => Decimals.quantizeTo places (total / input.quantity)
  { totalGross := price.gross
    totalNet := price.net
    unitGross := unit price.gross
    unitNet := unit price.net
    undiscountedTotalGross := undiscounted.gross
    undiscountedTotalNet := undiscounted.net
    undiscountedUnitGross := unit undiscounted.gross
    undiscountedUnitNet := unit undiscounted.net
    unitDiscountAmount := unit undiscounted.net - unit price.net
    quantity := input.quantity.toNat
    taxRate := taxRateOf input.taxRate price }

/-- **The amounts of a line** are there unless the order has a critical error. -/
theorem makeOrderLineCalculations_eq : makeOrderLineCalculations places input index d =
    .ok ((BulkCreate.makeOrderLineCalculations input.toOrderLineInput index d).1,
      if (BulkCreate.makeOrderLineCalculations input.toOrderLineInput index d).1.isCriticalError
      then none else some (lineAmounts places input)) := by
  rw [makeOrderLineCalculations, lineTaxRate_eq]
  show (if _ then _ else _) = _
  split
  · rfl
  · rename_i hcritical
    have hone := one_le_quantity_of_not_critical (Bool.eq_false_iff.mpr hcritical)
    have hne : (input.quantity : ℚ) ≠ 0 := by
      rw [Ne, Int.cast_eq_zero]
      omega
    rw [divide_of_ne _ hne, divide_of_ne _ hne, divide_of_ne _ hne, divide_of_ne _ hne]
    rfl

/-- The quantity of the amounts is that of `BulkCreate`. -/
theorem snd_makeOrderLineCalculations :
    (if (BulkCreate.makeOrderLineCalculations input.toOrderLineInput index d).1.isCriticalError
      then none else some (lineAmounts places input)).map LineAmounts.quantity =
    (BulkCreate.makeOrderLineCalculations input.toOrderLineInput index d).2 := by
  show _ = if (BulkCreate.makeOrderLineCalculations input.toOrderLineInput index d).1.isCriticalError
    then none else some input.quantity.toNat
  split <;> rfl

/-- The amounts of an order cannot be computed for a shipping price that is given without a net. -/
theorem makeOrderCalculations_eq_error_iff {listing : ℕ → Option ℚ} {deliveryMethod : DeliveryMethod}
    {input : DeliveryMethodInput} {lines : List LineAmounts} {prices : ShippingPrices}
    {e : MutationError} :
    makeOrderCalculations listing deliveryMethod input lines prices d = .error e ↔
      deliveryMethod.shippingMethod.isSome = true ∧
        (∃ price, input.shippingPrice = some price ∧ price.net = 0) ∧ e = .arithmetic := by
  rw [makeOrderCalculations]
  cases deliveryMethod.shippingMethod with
  | none => exact iff_of_false (fun h => by cases h) fun h => by cases h.1
  | some shippingMethod =>
    rw [and_iff_right (by rfl)]
    cases input.shippingPrice with
    | some price =>
      show Except.map _ (divide price.gross price.net) = _ ↔ _
      rw [map_eq_error_iff, divide_eq_error_iff]
      simp only [Option.some.injEq, exists_eq_left']
    | none =>
      refine iff_of_false (fun h => ?_) fun h => by
        obtain ⟨⟨price, hprice, -⟩, -⟩ := h
        cases hprice
      dsimp only at h
      split at h
      · cases h
      · split at h <;> cases h

end Amounts

/-! ### The same import without amounts -/

/-- A step that only reports. -/
def Reports (d d' : OrderBulkCreateData) : Prop := ∃ report : Report, d' = d.addReport report

section Reports

variable {d d' d'' : OrderBulkCreateData}

theorem reports_refl (d : OrderBulkCreateData) : Reports d d := by
  refine ⟨⟨[], false, fun h => by cases h⟩, ?_⟩
  rw [OrderBulkCreateData.addReport, List.append_nil, Bool.or_false]

theorem Reports.trans (h : Reports d d') (h' : Reports d' d'') : Reports d d'' := by
  obtain ⟨report, rfl⟩ := h
  obtain ⟨report', rfl⟩ := h'
  refine ⟨⟨report.errors ++ report'.errors, report.critical || report'.critical, fun hcritical => ?_⟩,
    ?_⟩
  · rcases Bool.or_eq_true_iff.mp hcritical with h | h
    · exact List.append_ne_nil_of_left_ne_nil (report.reported h) report'.errors
    · exact List.append_ne_nil_of_right_ne_nil report.errors (report'.reported h)
  · rw [OrderBulkCreateData.addReport, OrderBulkCreateData.addReport, OrderBulkCreateData.addReport,
      List.append_assoc, Bool.or_assoc]

theorem reports_addReport (report : Report) : Reports d (d.addReport report) := ⟨report, rfl⟩

theorem reports_addErrors (errors : List OrderBulkError) : Reports d (d.addErrors errors) := by
  refine ⟨⟨errors, false, fun h => by cases h⟩, ?_⟩
  rw [OrderBulkCreateData.addReport, Bool.or_false]
  rfl

theorem reports_addError (e : OrderBulkError) : Reports d (d.addError e) := reports_addErrors [e]

theorem reports_addCritical (e : OrderBulkError) : Reports d (d.addCritical e) := by
  refine ⟨⟨[e], true, fun _ => List.cons_ne_nil e []⟩, ?_⟩
  rw [OrderBulkCreateData.addReport, Bool.or_true]
  rfl

theorem reports_addLookup {α : Type} (lookup : Except OrderBulkError α) :
    Reports d (d.addLookup lookup) := by
  cases lookup with
  | error e => exact reports_addError e
  | ok a => exact reports_refl d

theorem reports_addUnless (valid : Bool) (e : OrderBulkError) : Reports d (d.addUnless valid e) := by
  cases valid with
  | true => exact reports_refl d
  | false => exact reports_addError e

theorem reports_ite {c : Prop} [Decidable c] (h : Reports d d') :
    Reports d (if c then d' else d) := by
  split
  · exact h
  · exact reports_refl d

theorem reports_makeOrderLineCalculations (input : BulkCreate.OrderLineInput) (index : ℕ) :
    Reports d (BulkCreate.makeOrderLineCalculations input index d).1 :=
  (reports_ite (reports_addCritical _)).trans ((reports_ite (reports_addCritical _)).trans
    ((reports_ite (reports_addCritical _)).trans (reports_ite (reports_addCritical _))))

theorem reports_addFound (instance? : Option (Except OrderBulkError ℕ)) :
    Reports d (addFound instance? d) := by
  cases instance? with
  | none => exact reports_refl d
  | some lookup => exact reports_addLookup lookup

theorem reports_getDeliveryMethod (input : DeliveryMethodInput) (isShippingRequired : Bool) :
    Reports d (getDeliveryMethod input isShippingRequired d).1 := by
  rw [getDeliveryMethod]
  split
  · exact reports_refl d
  · have hlookups := (reports_ite (c := input.warehouse.isSome ∧ input.shippingMethod.isSome)
      (reports_addError (d := d) ⟨"Can't provide both warehouse and shipping method IDs.",
        some "delivery_method", .tooManyIdentifiers⟩)).trans ((reports_addFound input.warehouse).trans
          ((reports_addFound input.shippingMethod).trans
            (reports_ite (c := input.shippingMethod.isSome)
              (reports_addLookup input.shippingTaxClass))))
    dsimp only
    split
    · exact hlookups.trans (reports_addCritical _)
    · exact hlookups

theorem makeOrderCalculations_eq_ok {listing : ℕ → Option ℚ} {deliveryMethod : DeliveryMethod}
    {input : DeliveryMethodInput} {lines : List LineAmounts} {prices prices' : ShippingPrices}
    {amounts : OrderAmounts}
    (h : makeOrderCalculations listing deliveryMethod input lines prices d =
      .ok (prices', d', amounts)) :
    Reports d d' ∧ ∃ shippingPrice shippingTaxRate,
      amounts = orderAmounts lines shippingPrice shippingTaxRate := by
  rw [makeOrderCalculations] at h
  dsimp only at h
  split at h
  · cases h
    exact ⟨reports_refl d, _, _, rfl⟩
  · split at h
    · obtain ⟨ratio, -, hratio⟩ := exists_of_map_eq_ok h
      cases hratio
      exact ⟨reports_ite (reports_addCritical _), _, _, rfl⟩
    · split at h
      · cases h
        exact ⟨reports_refl d, _, _, rfl⟩
      · split at h
        · cases h
          exact ⟨reports_refl d, _, _, rfl⟩
        · cases h
          exact ⟨reports_refl d, _, _, rfl⟩

/-- The check of the status only adds its error. -/
theorem exists_validateOrderStatus (status : OrderStatus) (d : OrderBulkCreateData) :
    ∃ errors, validateOrderStatus status d = d.addErrors errors := by
  rw [validateOrderStatus]
  split
  · exact ⟨[invalidStatusError], rfl⟩
  · refine ⟨[], ?_⟩
    rw [OrderBulkCreateData.addErrors, List.append_nil]

end Reports

section Base

variable {orders : List SavedOrder} {listings : Listings} {places : ℕ}

/-- A line without its amounts. -/
theorem createSingleOrderLine_map (places : ℕ) (input : OrderLineInput) (index : ℕ)
    (d : OrderBulkCreateData) :
    (createSingleOrderLine places input index d).map (fun made => (made.1, made.2.map Prod.fst)) =
      BulkCreate.createSingleOrderLine input.toOrderLineInput index d := by
  rw [createSingleOrderLine, BulkCreate.createSingleOrderLine]
  dsimp only
  split
  · rfl
  · cases hwarehouse : input.warehouse with
    | error e => rfl
    | ok warehouse =>
      dsimp only
      rw [makeOrderLineCalculations_eq]
      generalize hd : ((d.addLookup input.variant).addLookup (Except.ok warehouse)).addLookup
        input.taxClass = dLookups
      by_cases hcritical : (BulkCreate.makeOrderLineCalculations input.toOrderLineInput index
          dLookups).1.isCriticalError = true
      · have hbase : BulkCreate.makeOrderLineCalculations input.toOrderLineInput index dLookups =
            (_, none) := Prod.ext rfl (if_pos hcritical)
        rw [if_pos hcritical, hbase]
        rfl
      · have hbase : BulkCreate.makeOrderLineCalculations input.toOrderLineInput index dLookups =
            (_, some input.quantity.toNat) := Prod.ext rfl (if_neg hcritical)
        rw [if_neg hcritical, hbase]
        dsimp only
        cases isDatetimeValid input.createdAt <;> rfl

/-- Lines without their amounts. -/
theorem createOrderLines_map (places : ℕ) (inputs : List OrderLineInput) (index : ℕ)
    (d : OrderBulkCreateData) (amounts : List LineAmounts) :
    (createOrderLines places inputs index d amounts).map Prod.fst =
      BulkCreate.createOrderLines (inputs.map OrderLineInput.toOrderLineInput) index d := by
  induction inputs generalizing index d amounts with
  | nil => rfl
  | cons input inputs ih =>
    rw [createOrderLines, List.map_cons, BulkCreate.createOrderLines,
      ← createSingleOrderLine_map places]
    cases createSingleOrderLine places input index d with
    | error e => rfl
    | ok made =>
      obtain ⟨dLine, _ | ⟨line, lineAmounts⟩⟩ := made
      · exact ih (index + 1) _ amounts
      · exact ih (index + 1) _ (amounts ++ [lineAmounts])

/-- **An order without its amounts** is made by `BulkCreate`, given what is reported here. -/
theorem createSingleOrder_data {input : OrderInput} {prices prices' : ShippingPrices}
    {made : OrderData} (h : createSingleOrder orders listings input prices = .ok (prices', made)) :
    ∃ related amounts details, BulkCreate.createSingleOrder orders
      (input.toOrderInput related amounts details) = .ok made.data := by
  rw [createSingleOrder] at h
  split at h
  · cases h
  · rename_i d hvalid
    have hstart : ∀ related amounts details, BulkCreate.validateOrderInput orders
        (input.toOrderInput related amounts details) = .ok d := fun _ _ _ => hvalid
    split at h
    · rename_i hcritical
      cases h
      refine ⟨input.instances, input.instances, [], ?_⟩
      rw [BulkCreate.createSingleOrder, hstart]
      exact if_pos hcritical
    · rename_i hvalid
      obtain ⟨related, hrelated⟩ := (reports_addReport
        (d := { d with order := some ⟨input.externalReference⟩ }) input.instances).trans
          (reports_getDeliveryMethod input.deliveryMethod (isShippingRequired input))
      dsimp only at h
      generalize getDeliveryMethod input.deliveryMethod (isShippingRequired input) _ = delivery
        at h hrelated
      obtain ⟨dRelated, deliveryMethod⟩ := delivery
      obtain rfl : dRelated = _ := hrelated
      dsimp only at h
      split at h
      · rename_i hcritical
        cases h
        refine ⟨related, input.instances, [], ?_⟩
        rw [BulkCreate.createSingleOrder, hstart]
        dsimp only
        rw [if_neg hvalid]
        exact if_pos hcritical
      · rename_i hrelated
        split at h
        · cases h
        · rename_i dLines lines hlines
          have hlines' := (createOrderLines_map input.places input.lines 0 _ []).symm.trans
            (congrArg (Except.map Prod.fst) hlines)
          -- from here on the base goes along with each check that is passed
          have hbase : ∀ amounts details, BulkCreate.createSingleOrder orders
              (input.toOrderInput related amounts details) =
              if dLines.isCriticalError then .ok dLines.withoutOrder
              else if (BulkCreate.createFulfillments input.fulfillments 0 dLines).isCriticalError
                then .ok (BulkCreate.createFulfillments input.fulfillments 0 dLines).withoutOrder
              else if ((BulkCreate.createFulfillments input.fulfillments 0 dLines).addReport
                amounts).isCriticalError
                then .ok ((BulkCreate.createFulfillments input.fulfillments 0 dLines).addReport
                  amounts).withoutOrder
              else .ok (((BulkCreate.createFulfillments input.fulfillments 0 dLines).addReport
                amounts).addErrors details) := by
            intro amounts details
            rw [BulkCreate.createSingleOrder, hstart]
            dsimp only [OrderInput.toOrderInput]
            rw [if_neg hvalid, if_neg hrelated, hlines']
            rfl
          split at h
          · rename_i hcritical
            cases h
            exact ⟨related, input.instances, [], (hbase _ _).trans (if_pos hcritical)⟩
          · rename_i hnotLines
            split at h
            · rename_i hcritical
              cases h
              refine ⟨related, input.instances, [], ?_⟩
              rw [hbase, if_neg hnotLines, if_pos hcritical]
            · rename_i hnotFulfillments
              split at h
              · cases h
              · rename_i pricesAfter dAmounts amounts hamounts
                obtain ⟨⟨report, rfl⟩, -⟩ := makeOrderCalculations_eq_ok hamounts
                split at h
                · rename_i hcritical
                  cases h
                  refine ⟨related, report, [], ?_⟩
                  rw [hbase, if_neg hnotLines, if_neg hnotFulfillments, if_pos hcritical]
                · rename_i hnotAmounts
                  split at h
                  · cases h
                  · rename_i errors hdetails
                    obtain ⟨statusErrors, hstatus⟩ := exists_validateOrderStatus input.status
                      (((BulkCreate.createFulfillments input.fulfillments 0 dLines).addReport
                        report).addErrors errors)
                    cases h
                    refine ⟨related, report, errors ++ statusErrors ++ input.metadata, ?_⟩
                    rw [hbase, if_neg hnotLines, if_neg hnotFulfillments, if_neg hnotAmounts, hstatus]
                    simp only [OrderBulkCreateData.addErrors, List.append_assoc]

/-- What there is of the first input, and of the others. -/
theorem createOrders_cons_eq_ok {input : OrderInput} {inputs : List OrderInput}
    {prices : ShippingPrices} {made : List OrderData}
    (h : createOrders orders listings (input :: inputs) prices = .ok made) :
    ∃ prices' first rest, createSingleOrder orders listings input prices = .ok (prices', first) ∧
      createOrders orders listings inputs prices' = .ok rest ∧ made = first :: rest := by
  rw [createOrders] at h
  split at h
  · cases h
  · rename_i prices' first hfirst
    split at h
    · cases h
    · rename_i rest hrest
      exact ⟨prices', first, rest, hfirst, hrest, (Except.ok.inj h).symm⟩

theorem createOrders_data {inputs : List OrderInput} {prices : ShippingPrices}
    {made : List OrderData} (h : createOrders orders listings inputs prices = .ok made) :
    ∃ inputs', inputs'.length = inputs.length ∧
      BulkCreate.createOrders orders inputs' = .ok (made.map OrderData.data) := by
  induction inputs generalizing prices made with
  | nil =>
    obtain rfl := Except.ok.inj h
    exact ⟨[], rfl, rfl⟩
  | cons input inputs ih =>
    obtain ⟨prices', first, rest, hfirst, hrest, rfl⟩ := createOrders_cons_eq_ok h
    obtain ⟨related, amounts, details, hinput⟩ := createSingleOrder_data hfirst
    obtain ⟨inputs', hlength, hinputs⟩ := ih hrest
    refine ⟨input.toOrderInput related amounts details :: inputs', ?_, ?_⟩
    · rw [List.length_cons, List.length_cons, hlength]
    · rw [BulkCreate.createOrders, hinput, hinputs]
      rfl

variable {db db' : Database} {inputs : List OrderInput} {errorPolicy : ErrorPolicy}
  {stockUpdatePolicy : StockUpdatePolicy} {final : List OrderData}

/-- What an import is made of. -/
theorem performMutation_eq_ok_iff :
    performMutation db listings inputs errorPolicy stockUpdatePolicy = .ok (db', final) ↔
      inputs.length ≤ BulkCreate.maxOrders ∧
      ∃ made, createOrders db.orders listings inputs (fun _ => none) = .ok made ∧
        BulkCreate.Savable db (BulkCreate.finalOrders db stockUpdatePolicy
          (BulkCreate.handleErrorPolicy errorPolicy (made.map OrderData.data))) ∧
        db' = BulkCreate.finalDatabase db stockUpdatePolicy
          (BulkCreate.handleErrorPolicy errorPolicy (made.map OrderData.data)) ∧
        final = List.zipWith (fun order data => { order with data := data }) made
          (BulkCreate.finalOrders db stockUpdatePolicy
            (BulkCreate.handleErrorPolicy errorPolicy (made.map OrderData.data))) := by
  constructor
  · intro h
    rw [performMutation] at h
    split at h
    · cases h
    · rename_i hlimit
      split at h
      · cases h
      · rename_i made hmade
        dsimp only at h
        split at h
        · cases h
        · rename_i dbSaved saved hsaved
          obtain ⟨hsavable, rfl, rfl⟩ := BulkCreate.saveData_eq_ok_iff.mp hsaved
          cases h
          exact ⟨Nat.le_of_not_lt hlimit, made, hmade, hsavable, rfl, rfl⟩
  · rintro ⟨hlimit, made, hmade, hsavable, rfl, rfl⟩
    rw [performMutation, if_neg (Nat.not_lt.mpr hlimit), hmade]
    dsimp only
    rw [BulkCreate.saveData_eq_ok_iff.mpr ⟨hsavable, rfl, rfl⟩]

theorem length_finalOrders (db : Database) (stockUpdatePolicy : StockUpdatePolicy)
    (ds : List OrderBulkCreateData) :
    (BulkCreate.finalOrders db stockUpdatePolicy ds).length = ds.length := by
  rw [BulkCreate.finalOrders, List.length_map, BulkCreate.handleStocksUnlessSkip]
  split
  · rfl
  · exact Tentative.length_attempts ds

theorem length_handleErrorPolicy (errorPolicy : ErrorPolicy) (ds : List OrderBulkCreateData) :
    (BulkCreate.handleErrorPolicy errorPolicy ds).length = ds.length := by
  rw [BulkCreate.handleErrorPolicy]
  split
  · exact List.length_map _
  · rfl

/-- **An import without its amounts** is an import of `BulkCreate`. -/
theorem performMutation_data
    (h : performMutation db listings inputs errorPolicy stockUpdatePolicy = .ok (db', final)) :
    ∃ inputs', inputs'.length = inputs.length ∧
      BulkCreate.performMutation db inputs' errorPolicy stockUpdatePolicy =
        .ok (db', final.map OrderData.data) := by
  obtain ⟨hlimit, made, hmade, hsavable, rfl, rfl⟩ := performMutation_eq_ok_iff.mp h
  obtain ⟨inputs', hlength, hinputs⟩ := createOrders_data hmade
  refine ⟨inputs', hlength, BulkCreate.performMutation_eq_ok_iff.mpr
    ⟨hlength ▸ hlimit, _, hinputs, hsavable, rfl, ?_⟩⟩
  rw [List.map_zipWith]
  refine List.ext_getElem ?_ fun j h₁ h₂ => List.getElem_zipWith
  rw [List.length_zipWith, length_finalOrders, length_handleErrorPolicy, List.length_map,
    Nat.min_self]

end Base

end BulkAmounts

end Aixinwu
