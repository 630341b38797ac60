import Aixinwu.Lib.Tentative
import Mathlib

/-!
# Importing orders in bulk

`OrderBulkCreate` goes through its inputs three times. First each order is made from its input, with the
errors that are found; some of these are critical and end the work on the order, which is then not
made. Then the error policy is applied to what has been found. Then the stocks are handled, in the
order of the inputs: each order works on a copy of the stocks, with its lines and fulfillments, and the
copy is kept unless the order has a critical error. What is left is saved.

Lookups of instances are given by what they find, and so are the checks that have nothing to do with
lines, fulfillments and stocks. An order line is known by its position.

## Main definitions

* `createSingleOrder`
* `handleErrorPolicy`, `handleStocks`, `saveData`
* `performMutation`

## Main results

* `made_of_createSingleOrder` — an order without an error that disqualifies it is there
-/

namespace Aixinwu

namespace BulkCreate

/-! ### Data -/

/-- `OrderBulkCreateErrorCode`. -/
inductive OrderBulkCreateErrorCode where
  | required
  | invalid
  | notFound
  | unique
  | tooManyIdentifiers
  | futureDate
  | invalidQuantity
  | priceError
  | noteLength
  | insufficientStock
  | nonExistingStock
  | noRelatedOrderLine
  | negativeIndex
  | orderLineFulfillmentLineMismatch
  | metadataKeyRequired
  | incorrectCurrency
deriving DecidableEq, Repr

/-- `OrderBulkError`. -/
structure OrderBulkError where
  message : String
  path : Option String
  code : OrderBulkCreateErrorCode
deriving DecidableEq, Repr

/-- `ErrorPolicy`. -/
inductive ErrorPolicy where
  | ignoreFailed
  | rejectEverything
  | rejectFailedRows
deriving DecidableEq, Repr

/-- `StockUpdatePolicy`. -/
inductive StockUpdatePolicy where
  | skip
  | update
  | force
deriving DecidableEq, Repr

/-- What ends the mutation as a whole: nothing is saved. -/
inductive MutationError where
  | bulkLimit (message : String)
  | validation (message : String)
  | arithmetic
  | integrity (column : String)
deriving DecidableEq, Repr

/-- `Order`, as far as it is looked at. -/
structure Order where
  externalReference : Option String
deriving DecidableEq, Repr

/-- `OrderBulkOrderLine`, with the quantities of its `OrderLine`. -/
structure OrderBulkOrderLine where
  variant : Option ℕ
  warehouse : ℕ
  quantity : ℕ
  quantityFulfilled : ℤ
deriving DecidableEq, Repr

/-- `OrderBulkFulfillmentLine`: the position of an order line, and a quantity. -/
structure OrderBulkFulfillmentLine where
  orderLine : ℕ
  quantity : ℤ
deriving DecidableEq, Repr

/-- `OrderBulkCreateData`. -/
structure OrderBulkCreateData where
  order : Option Order
  errors : List OrderBulkError
  lines : List OrderBulkOrderLine
  fulfillments : List (List OrderBulkFulfillmentLine)
  isCriticalError : Bool
deriving DecidableEq, Repr

namespace OrderBulkCreateData

/-- An error is added. -/
def addError (d : OrderBulkCreateData) (e : OrderBulkError) : OrderBulkCreateData :=
  { d with errors := d.errors ++ [e] }

/-- Errors are added. -/
def addErrors (d : OrderBulkCreateData) (errors : List OrderBulkError) : OrderBulkCreateData :=
  { d with errors := d.errors ++ errors }

/-- An error is added unless a check has passed. -/
def addUnless (d : OrderBulkCreateData) (valid : Bool) (e : OrderBulkError) :
    OrderBulkCreateData :=
  if valid then d else d.addError e

/-- An error that disqualifies the order is added. -/
def addCritical (d : OrderBulkCreateData) (e : OrderBulkError) : OrderBulkCreateData :=
  { d with errors := d.errors ++ [e], isCriticalError := true }

/-- The error of a lookup is added. -/
def addLookup {α : Type} (d : OrderBulkCreateData) : Except OrderBulkError α → OrderBulkCreateData
  | .error e => d.addError e
  | .ok _ => d

/-- `orderline_quantityfulfilled_map` at an order line. -/
def quantityFulfilled (d : OrderBulkCreateData) (orderLine : ℕ) : ℤ :=
  ((d.fulfillments.flatten.filter fun line => line.orderLine = orderLine).map
    OrderBulkFulfillmentLine.quantity).sum

end OrderBulkCreateData

/-! ### The inputs -/

/-- A date, against the time that is five minutes from now. -/
structure DateInput where
  aware : Bool
  future : Bool
deriving DecidableEq, Repr

/-- `is_datetime_valid`. -/
def isDatetimeValid (date : DateInput) : Except MutationError Bool :=
  if date.aware then .ok !date.future
  else .error (.validation ("Input 'date' must be timezone-aware. " ++
    "Expected format: 'YYYY-MM-DD HH:MM:SS TZ'."))

/-- What a group of checks reports. -/
structure Report where
  errors : List OrderBulkError
  critical : Bool
  /-- A critical error is reported. -/
  reported : critical = true → errors ≠ []

/-- `TaxedMoneyInput`. -/
structure TaxedMoneyInput where
  gross : ℚ
  net : ℚ
deriving DecidableEq, Repr

/-- `OrderBulkCreateOrderLineInput`. The instances are what `get_instance` finds, and `metadata` is
what `process_metadata` reports. -/
structure OrderLineInput where
  variant : Except OrderBulkError ℕ
  productName : Option String
  warehouse : Except OrderBulkError ℕ
  taxClass : Except OrderBulkError ℕ
  quantity : ℤ
  totalPrice : TaxedMoneyInput
  undiscountedTotalPrice : TaxedMoneyInput
  createdAt : DateInput
  metadata : List OrderBulkError

/-- `OrderBulkCreateFulfillmentLineInput`. -/
structure FulfillmentLineInput where
  variant : Except OrderBulkError ℕ
  warehouse : Except OrderBulkError ℕ
  orderLineIndex : ℤ
  quantity : ℤ

/-- `OrderBulkCreateInput`. The checks between that of the date and that of the external reference are
given by the errors they report, and so are the others: those of the currency and the voucher, those of
the instances and the delivery method, those of the amounts, and those of notes, transactions,
invoices, discounts, status and metadata. -/
structure OrderInput where
  createdAt : DateInput
  urlAndWeight : List OrderBulkError
  externalReference : Option String
  currencyAndVoucher : Report
  related : Report
  lines : List OrderLineInput
  fulfillments : List (List FulfillmentLineInput)
  amounts : Except MutationError Report
  details : Except MutationError (List OrderBulkError)

/-! ### The database -/

/-- `Stock`, of a variant in a warehouse. -/
structure Stock where
  quantity : ℤ
  quantityAllocated : ℤ
deriving DecidableEq, Repr

/-- What is available in a stock. -/
def Stock.available (s : Stock) : ℤ := s.quantity - s.quantityAllocated

/-- Stocks by variant and warehouse. -/
abbrev StockMap : Type := ℕ × ℕ → Option Stock

/-- An order that has been saved, with its lines and the lines of its fulfillments. -/
structure SavedOrder where
  order : Order
  lines : List OrderBulkOrderLine
  fulfillmentLines : List OrderBulkFulfillmentLine
deriving DecidableEq, Repr

/-- The stocks and the orders. -/
structure Database where
  stocks : StockMap
  orders : List SavedOrder

/-- The external references that are in use. -/
def references (orders : List SavedOrder) : List String :=
  orders.filterMap fun saved => saved.order.externalReference

/-! ### Making the orders -/

/-- What checks report is added. -/
def OrderBulkCreateData.addReport (d : OrderBulkCreateData) (report : Report) :
    OrderBulkCreateData :=
  { d with errors := d.errors ++ report.errors
           isCriticalError := d.isCriticalError || report.critical }

/-- The check of the external reference in `validate_order_input`. -/
def checkReference (orders : List SavedOrder) (reference : Option String)
    (d : OrderBulkCreateData) : OrderBulkCreateData :=
  match reference with
  | none => d
  | some reference =>
    if reference ≠ "" ∧ reference ∈ references orders then
      d.addCritical ⟨s!"Order with external_reference: {reference} already exists.",
        some "external_reference", .unique⟩
    else d

/-- `validate_order_input`. -/
def validateOrderInput (orders : List SavedOrder) (input : OrderInput) :
    Except MutationError OrderBulkCreateData :=
  match isDatetimeValid input.createdAt with
  | .error e => .error e
  | .ok valid =>
    let d : OrderBulkCreateData := ⟨none, [], [], [], false⟩
    let d := d.addUnless valid
      ⟨"Order input contains future date.", some "created_at", .futureDate⟩
    let d := d.addErrors input.urlAndWeight
    let d := checkReference orders input.externalReference d
    .ok (d.addReport input.currencyAndVoucher)

/-- `make_order_line_calculations`, with the quantity of the amounts. -/
def makeOrderLineCalculations (input : OrderLineInput) (index : ℕ) (d : OrderBulkCreateData) :
    OrderBulkCreateData × Option ℕ :=
  let price := input.totalPrice
  let undiscounted := input.undiscountedTotalPrice
  let d := if input.quantity < 1 then
      d.addCritical ⟨"Invalid quantity. Must be integer greater then or equal to 1.",
        some s!"lines.{index}.quantity", .invalidQuantity⟩ else d
  let d := if price.gross < price.net then
      d.addCritical ⟨"Net price can't be greater then gross price.",
        some s!"lines.{index}.total_price", .priceError⟩ else d
  let d := if undiscounted.gross < undiscounted.net then
      d.addCritical ⟨"Net price can't be greater then gross price.",
        some s!"lines.{index}.undiscounted_total_price", .priceError⟩ else d
  let d := if undiscounted.gross < price.gross ∨ undiscounted.net < price.net then
      d.addCritical ⟨"Total price can't be greater then undiscounted total price.",
        some s!"lines.{index}.undiscounted_total_price", .priceError⟩ else d
  (d, if d.isCriticalError then none else some input.quantity.toNat)

/-- `create_single_order_line`. -/
def createSingleOrderLine (input : OrderLineInput) (index : ℕ) (d : OrderBulkCreateData) :
    Except MutationError (OrderBulkCreateData × Option OrderBulkOrderLine) :=
  let d := d.addLookup input.variant
  if input.variant.toOption = none ∧ input.productName = none then
    .ok (d.addError ⟨"Order line input must contain product name when no variant provided.",
      some s!"lines.{index}", .required⟩, none)
  else
    let d := d.addLookup input.warehouse
    match input.warehouse with
    | .error _ => .ok (d, none)
    | .ok warehouse =>
      let d := d.addLookup input.taxClass
      match makeOrderLineCalculations input index d with
      | (d, none) => .ok (d, none)
      | (d, some quantity) =>
        match isDatetimeValid input.createdAt with
        | .error e => .error e
        | .ok valid =>
          let d := d.addUnless valid ⟨"Order line input contains future date.",
            some s!"lines.{index}.created_at", .futureDate⟩
          .ok (d.addErrors input.metadata,
            some ⟨input.variant.toOption, warehouse, quantity, 0⟩)

/-- `create_order_lines`, from the line with an index on. -/
def createOrderLines : List OrderLineInput → ℕ → OrderBulkCreateData →
    Except MutationError OrderBulkCreateData
  | [], _, d => .ok d
  | input :: inputs, index, d =>
    match createSingleOrderLine input index d with
    | .error e => .error e
    | .ok (d, some line) => createOrderLines inputs (index + 1) { d with lines := d.lines ++ [line] }
    | .ok (d, none) => createOrderLines inputs (index + 1) { d with isCriticalError := true }

/-- The lines of `create_single_fulfillment`, from the line with an index on. At an error that ends
the fulfillment there are none. -/
def createFulfillmentLines (index : ℕ) : List FulfillmentLineInput → ℕ → OrderBulkCreateData →
    OrderBulkCreateData × Option (List OrderBulkFulfillmentLine)
  | [], _, d => (d, some [])
  | input :: inputs, lineIndex, d =>
    let path := s!"fulfillments.{index}.lines.{lineIndex}"
    let d := (d.addLookup input.variant).addLookup input.warehouse
    match input.warehouse with
    | .error _ => (d, none)
    | .ok warehouse =>
      if input.orderLineIndex < 0 then
        (d.addError ⟨"Order line index can't be negative.", some s!"{path}.order_line_index",
          .negativeIndex⟩, none)
      else match d.lines[input.orderLineIndex.toNat]? with
        | none =>
          (d.addError ⟨s!"There is no order line with index: {input.orderLineIndex}.",
            some s!"{path}.order_line_index", .noRelatedOrderLine⟩, none)
        | some orderLine =>
          if orderLine.warehouse ≠ warehouse then
            (d.addError ⟨"Fulfillment line's warehouse is different then order line's warehouse.",
              some s!"{path}.warehouse", .orderLineFulfillmentLineMismatch⟩, none)
          else if orderLine.variant ≠ input.variant.toOption then
            (d.addError ⟨"Fulfillment line's product variant is different" ++
              " then order line's product variant.", some s!"{path}.variant_id",
              .orderLineFulfillmentLineMismatch⟩, none)
          else match createFulfillmentLines index inputs (lineIndex + 1) d with
            | (d, none) => (d, none)
            | (d, some lines) => (d, some (⟨input.orderLineIndex.toNat, input.quantity⟩ :: lines))

/-- `create_fulfillments`, from the fulfillment with an index on. -/
def createFulfillments : List (List FulfillmentLineInput) → ℕ → OrderBulkCreateData →
    OrderBulkCreateData
  | [], _, d => d
  | input :: inputs, index, d =>
    match createFulfillmentLines index input 0 d with
    | (d, some lines) =>
      createFulfillments inputs (index + 1) { d with fulfillments := d.fulfillments ++ [lines] }
    | (d, none) => createFulfillments inputs (index + 1) { d with isCriticalError := true }

/-- An order with a critical error is not made. -/
def OrderBulkCreateData.withoutOrder (d : OrderBulkCreateData) : OrderBulkCreateData :=
  { d with order := none }

/-- `create_single_order`. -/
def createSingleOrder (orders : List SavedOrder) (input : OrderInput) :
    Except MutationError OrderBulkCreateData :=
  match validateOrderInput orders input with
  | .error e => .error e
  | .ok d =>
    if d.isCriticalError then .ok d
    else
      let d := { d with order := some ⟨input.externalReference⟩ }.addReport input.related
      if d.isCriticalError then .ok d.withoutOrder
      else match createOrderLines input.lines 0 d with
        | .error e => .error e
        | .ok d =>
          if d.isCriticalError then .ok d.withoutOrder
          else
            let d := createFulfillments input.fulfillments 0 d
            if d.isCriticalError then .ok d.withoutOrder
            else match input.amounts with
              | .error e => .error e
              | .ok amounts =>
                let d := d.addReport amounts
                if d.isCriticalError then .ok d.withoutOrder
                else match input.details with
                  | .error e => .error e
                  | .ok errors => .ok (d.addErrors errors)

/-- The loop over the inputs. -/
def createOrders (orders : List SavedOrder) :
    List OrderInput → Except MutationError (List OrderBulkCreateData)
  | [] => .ok []
  | input :: inputs =>
    match createSingleOrder orders input with
    | .error e => .error e
    | .ok d =>
      match createOrders orders inputs with
      | .error e => .error e
      | .ok ds => .ok (d :: ds)

/-- What there is of the first input, and of the others. -/
theorem createOrders_cons_eq_ok {orders : List SavedOrder} {input : OrderInput}
    {inputs : List OrderInput} {made : List OrderBulkCreateData}
    (h : createOrders orders (input :: inputs) = .ok made) :
    ∃ d ds, createSingleOrder orders input = .ok d ∧ createOrders orders inputs = .ok ds ∧
      made = d :: ds := by
  rw [createOrders] at h
  split at h
  · cases h
  · rename_i d hd
    split at h
    · cases h
    · rename_i ds hds
      exact ⟨d, ds, hd, hds, (Except.ok.inj h).symm⟩

/-! ### Orders as they are made -/

/-- A critical error is reported. -/
def Reported (d : OrderBulkCreateData) : Prop := d.isCriticalError = true → d.errors ≠ []

section Made

variable {d : OrderBulkCreateData}

theorem addError_errors_ne (e : OrderBulkError) : (d.addError e).errors ≠ [] :=
  List.append_ne_nil_of_right_ne_nil _ (List.cons_ne_nil e [])

/-- A step that keeps the order, and reports what is critical. -/
def Keeps (d d' : OrderBulkCreateData) : Prop := d'.order = d.order ∧ (Reported d → Reported d')

theorem Keeps.trans {d' d'' : OrderBulkCreateData} (h : Keeps d d') (h' : Keeps d' d'') :
    Keeps d d'' :=
  ⟨h'.1.trans h.1, fun hd => h'.2 (h.2 hd)⟩

theorem keeps_addError (e : OrderBulkError) : Keeps d (d.addError e) :=
  ⟨rfl, fun _ _ => addError_errors_ne e⟩

theorem keeps_addCritical (e : OrderBulkError) : Keeps d (d.addCritical e) :=
  ⟨rfl, fun _ _ => addError_errors_ne e⟩

theorem keeps_addErrors (errors : List OrderBulkError) : Keeps d (d.addErrors errors) :=
  ⟨rfl, fun h hcritical => List.append_ne_nil_of_left_ne_nil (h hcritical) errors⟩

theorem keeps_addLookup {α : Type} (found : Except OrderBulkError α) : Keeps d (d.addLookup found) := by
  cases found with
  | error e => exact keeps_addError e
  | ok a => exact ⟨rfl, id⟩

theorem keeps_addReport (report : Report) : Keeps d (d.addReport report) := by
  refine ⟨rfl, fun h hcritical => ?_⟩
  rcases Bool.or_eq_true_iff.mp hcritical with hd | hreport
  · exact List.append_ne_nil_of_left_ne_nil (h hd) report.errors
  · exact List.append_ne_nil_of_right_ne_nil d.errors (report.reported hreport)

theorem keeps_ite {c : Prop} [Decidable c] {d' : OrderBulkCreateData} (h : Keeps d d') :
    Keeps d (if c then d' else d) := by
  split
  · exact h
  · exact ⟨rfl, id⟩

theorem keeps_addUnless (valid : Bool) (e : OrderBulkError) : Keeps d (d.addUnless valid e) := by
  cases valid with
  | true => exact ⟨rfl, id⟩
  | false => exact keeps_addError e

theorem keeps_checkReference (orders : List SavedOrder) (reference : Option String) :
    Keeps d (checkReference orders reference d) := by
  cases reference with
  | none => exact ⟨rfl, id⟩
  | some reference => exact keeps_ite (keeps_addCritical _)

/-- An order is disqualified once an error has been reported. -/
theorem keeps_critical {d' : OrderBulkCreateData} (h : Keeps d d') (herrors : d'.errors ≠ []) :
    Keeps d { d' with isCriticalError := true } :=
  ⟨h.1, fun _ _ => herrors⟩

theorem keeps_makeOrderLineCalculations (input : OrderLineInput) (index : ℕ) :
    Keeps d (makeOrderLineCalculations input index d).1 :=
  (keeps_ite (keeps_addCritical _)).trans ((keeps_ite (keeps_addCritical _)).trans
    ((keeps_ite (keeps_addCritical _)).trans (keeps_ite (keeps_addCritical _))))

/-- There are no amounts only for an order with a critical error. -/
theorem isCriticalError_of_makeOrderLineCalculations {input : OrderLineInput} {index : ℕ}
    (h : (makeOrderLineCalculations input index d).2 = none) :
    (makeOrderLineCalculations input index d).1.isCriticalError = true := by
  by_contra hcritical
  have hsome : (makeOrderLineCalculations input index d).2 = some input.quantity.toNat :=
    if_neg hcritical
  rw [hsome] at h
  cases h

/-- Where there is no line, an error says why. -/
theorem createSingleOrderLine_spec {input : OrderLineInput} {index : ℕ}
    {d' : OrderBulkCreateData} {line : Option OrderBulkOrderLine} (hd : Reported d)
    (h : createSingleOrderLine input index d = .ok (d', line)) :
    Keeps d d' ∧ (line = none → d'.errors ≠ []) := by
  have hvariant : Keeps d (d.addLookup input.variant) := keeps_addLookup input.variant
  have hwarehouse := hvariant.trans (keeps_addLookup input.warehouse)
  have htaxClass := hwarehouse.trans (keeps_addLookup input.taxClass)
  have hamounts := htaxClass.trans (keeps_makeOrderLineCalculations input index)
  rw [createSingleOrderLine] at h
  dsimp only at h
  split at h
  · obtain ⟨rfl, rfl⟩ := Prod.mk.inj (Except.ok.inj h)
    exact ⟨hvariant.trans (keeps_addError _), fun _ => addError_errors_ne _⟩
  · split at h
    · rename_i e he
      obtain ⟨rfl, rfl⟩ := Prod.mk.inj (Except.ok.inj h)
      refine ⟨hwarehouse, fun _ => ?_⟩
      rw [he]
      exact addError_errors_ne e
    · split at h
      · rename_i dAmounts hcalculations
        obtain ⟨rfl, rfl⟩ := Prod.mk.inj (Except.ok.inj h)
        have hcritical := isCriticalError_of_makeOrderLineCalculations (congrArg Prod.snd hcalculations)
        rw [hcalculations] at hamounts hcritical
        exact ⟨hamounts, fun _ => hamounts.2 hd hcritical⟩
      · rename_i dAmounts quantity hcalculations
        rw [hcalculations] at hamounts
        split at h
        · cases h
        · obtain ⟨rfl, rfl⟩ := Prod.mk.inj (Except.ok.inj h)
          refine ⟨(hamounts.trans (keeps_addUnless _ _)).trans (keeps_addErrors _), ?_⟩
          intro hnone
          cases hnone

theorem createOrderLines_spec {inputs : List OrderLineInput} {index : ℕ} {d' : OrderBulkCreateData}
    (hd : Reported d) (h : createOrderLines inputs index d = .ok d') : Keeps d d' := by
  induction inputs generalizing index d with
  | nil =>
    obtain rfl := Except.ok.inj h
    exact ⟨rfl, id⟩
  | cons input inputs ih =>
    rw [createOrderLines] at h
    split at h
    · cases h
    · rename_i dLine line hline
      have hkeeps := (createSingleOrderLine_spec hd hline).1
      have hnext : Keeps d { dLine with lines := dLine.lines ++ [line] } := hkeeps
      exact hnext.trans (ih (hnext.2 hd) h)
    · rename_i dLine hline
      have hspec := createSingleOrderLine_spec hd hline
      have hkeeps := keeps_critical hspec.1 (hspec.2 rfl)
      exact hkeeps.trans (ih (hkeeps.2 hd) h)

/-- Where there is no fulfillment, an error says why. -/
theorem createFulfillmentLines_spec (index : ℕ) (inputs : List FulfillmentLineInput)
    (lineIndex : ℕ) (d : OrderBulkCreateData) :
    Keeps d (createFulfillmentLines index inputs lineIndex d).1 ∧
      ((createFulfillmentLines index inputs lineIndex d).2 = none →
        (createFulfillmentLines index inputs lineIndex d).1.errors ≠ []) := by
  induction inputs generalizing lineIndex d with
  | nil =>
    refine ⟨⟨rfl, id⟩, fun hnone => ?_⟩
    cases hnone
  | cons input inputs ih =>
    have hlookups : Keeps d ((d.addLookup input.variant).addLookup input.warehouse) :=
      (keeps_addLookup input.variant).trans (keeps_addLookup input.warehouse)
    have herror : ∀ e, Keeps d
        (((d.addLookup input.variant).addLookup input.warehouse).addError e) :=
      fun e => hlookups.trans (keeps_addError e)
    rw [createFulfillmentLines]
    split
    · rename_i e he
      refine ⟨hlookups, fun _ => ?_⟩
      rw [he]
      exact addError_errors_ne e
    · split
      · exact ⟨herror _, fun _ => addError_errors_ne _⟩
      · split
        · exact ⟨herror _, fun _ => addError_errors_ne _⟩
        · split
          · exact ⟨herror _, fun _ => addError_errors_ne _⟩
          · split
            · exact ⟨herror _, fun _ => addError_errors_ne _⟩
            · rename_i warehouse hwarehouse _ _ _ _ _ _
              have ih' := ih (lineIndex + 1)
                ((d.addLookup input.variant).addLookup input.warehouse)
              split
              · rename_i dLines hlines
                rw [hlines] at ih'
                exact ⟨hlookups.trans ih'.1, ih'.2⟩
              · rename_i dLines lines hlines
                rw [hlines] at ih'
                refine ⟨hlookups.trans ih'.1, fun hnone => ?_⟩
                cases hnone

theorem createFulfillments_spec (inputs : List (List FulfillmentLineInput)) (index : ℕ) :
    Keeps d (createFulfillments inputs index d) := by
  induction inputs generalizing index d with
  | nil => exact ⟨rfl, id⟩
  | cons input inputs ih =>
    have hspec := createFulfillmentLines_spec index input 0 d
    rw [createFulfillments]
    split
    · rename_i dLines lines hlines
      rw [hlines] at hspec
      have hnext : Keeps d { dLines with fulfillments := dLines.fulfillments ++ [lines] } := hspec.1
      exact hnext.trans (ih (index + 1))
    · rename_i dLines hlines
      rw [hlines] at hspec
      exact (keeps_critical hspec.1 (hspec.2 rfl)).trans (ih (index + 1))

theorem validateOrderInput_spec {orders : List SavedOrder} {input : OrderInput}
    (h : validateOrderInput orders input = .ok d) : d.order = none ∧ Reported d := by
  rw [validateOrderInput] at h
  split at h
  · cases h
  · rename_i valid _
    have hkeeps : Keeps ⟨none, [], [], [], false⟩ d := by
      obtain rfl := Except.ok.inj h
      exact (((keeps_addUnless valid _).trans (keeps_addErrors input.urlAndWeight)).trans
        (keeps_checkReference orders input.externalReference)).trans
          (keeps_addReport input.currencyAndVoucher)
    exact ⟨hkeeps.1, hkeeps.2 fun hcritical => absurd hcritical Bool.false_ne_true⟩

/-- The order is there unless there is a critical error, and that is reported. -/
structure Made (d : OrderBulkCreateData) : Prop where
  reported : Reported d
  order : d.order.isSome = !d.isCriticalError

theorem made_withoutOrder (h : Reported d) (hcritical : d.isCriticalError = true) :
    Made d.withoutOrder := by
  refine ⟨h, ?_⟩
  show false = !d.isCriticalError
  rw [hcritical]
  rfl

theorem made_of_not_critical {order : Order} (h : Reported d) (horder : d.order = some order)
    (hcritical : ¬ d.isCriticalError = true) : Made d := by
  refine ⟨h, ?_⟩
  rw [horder, Bool.eq_false_iff.mpr hcritical]
  rfl

/-- What comes of making an order. -/
theorem made_of_createSingleOrder {orders : List SavedOrder} {input : OrderInput}
    (h : createSingleOrder orders input = .ok d) : Made d := by
  rw [createSingleOrder] at h
  split at h
  · cases h
  · rename_i dValid hvalid
    have hspec := validateOrderInput_spec hvalid
    dsimp only at h
    split at h
    · rename_i hcritical
      obtain rfl := Except.ok.inj h
      refine ⟨hspec.2, ?_⟩
      rw [hspec.1, hcritical]
      rfl
    · have hrelated := keeps_addReport (d := { dValid with order := some ⟨input.externalReference⟩ })
        input.related
      split at h
      · rename_i hcritical
        obtain rfl := Except.ok.inj h
        exact made_withoutOrder (hrelated.2 hspec.2) hcritical
      · split at h
        · cases h
        · rename_i dLines hlines
          have hkeeps := hrelated.trans (createOrderLines_spec (hrelated.2 hspec.2) hlines)
          split at h
          · rename_i hcritical
            obtain rfl := Except.ok.inj h
            exact made_withoutOrder (hkeeps.2 hspec.2) hcritical
          · have hfulfillments := hkeeps.trans (createFulfillments_spec input.fulfillments 0)
            split at h
            · rename_i hcritical
              obtain rfl := Except.ok.inj h
              exact made_withoutOrder (hfulfillments.2 hspec.2) hcritical
            · split at h
              · cases h
              · rename_i amounts _
                have hamounts := hfulfillments.trans (keeps_addReport amounts)
                split at h
                · rename_i hcritical
                  obtain rfl := Except.ok.inj h
                  exact made_withoutOrder (hamounts.2 hspec.2) hcritical
                · rename_i hnoncritical
                  split at h
                  · cases h
                  · rename_i errors _
                    obtain rfl := Except.ok.inj h
                    have hdetails := hamounts.trans (keeps_addErrors errors)
                    exact made_of_not_critical (hdetails.2 hspec.2) hdetails.1 hnoncritical

end Made

/-! ### Policies and stocks -/

/-- What the error policy makes of an order when there are errors. -/
def police (errorPolicy : ErrorPolicy) (d : OrderBulkCreateData) : OrderBulkCreateData :=
  match errorPolicy with
  | .rejectEverything => d.withoutOrder
  | .rejectFailedRows => if d.errors ≠ [] then d.withoutOrder else d
  | .ignoreFailed => d

/-- `handle_error_policy`. -/
def handleErrorPolicy (errorPolicy : ErrorPolicy) (ds : List OrderBulkCreateData) :
    List OrderBulkCreateData :=
  if ds.flatMap OrderBulkCreateData.errors ≠ [] then ds.map (police errorPolicy) else ds

/-- The key of the stock for a line. A line without a variant has none. -/
def OrderBulkOrderLine.key (line : OrderBulkOrderLine) : Option (ℕ × ℕ) :=
  line.variant.map fun variant => (variant, line.warehouse)

/-- How the variant of a line is written. -/
def OrderBulkOrderLine.variantId (line : OrderBulkOrderLine) : String :=
  match line.variant with
  | none => "None"
  | some variant => toString variant

/-- The stock for a line. -/
def StockMap.get (stocks : StockMap) (line : OrderBulkOrderLine) : Option Stock :=
  line.key.bind stocks

/-- A stock after a line. -/
def StockMap.takeLine (stocks : StockMap) (key : ℕ × ℕ) (stock : Stock) (quantity : ℕ)
    (fulfilled : ℤ) : StockMap :=
  Function.update stocks key
    (some ⟨stock.quantity - fulfilled, stock.quantityAllocated + (quantity - fulfilled)⟩)

/-- The loop of `handle_stocks` over the lines of an order, from the line with an index on, on a copy of
the stocks. -/
def handleLines (policy : StockUpdatePolicy) :
    List OrderBulkOrderLine → ℕ → StockMap → OrderBulkCreateData → StockMap × OrderBulkCreateData
  | [], _, stocks, d => (stocks, d)
  | line :: lines, index, stocks, d =>
    let fulfilled := d.quantityFulfilled index
    let quantityToAllocate := line.quantity - fulfilled
    if quantityToAllocate < 0 then
      (stocks, d.addCritical ⟨"There is more fulfillments, than ordered quantity for order line" ++
        s!" with variant: {line.variantId} and warehouse: {line.warehouse}", some s!"lines.{index}",
        .invalidQuantity⟩)
    else match line.key, stocks.get line with
      | some key, some stock =>
        let d := if stock.available < line.quantity ∧ policy ≠ .force then
            d.addCritical ⟨s!"Insufficient stock for product variant: {line.variantId} and " ++
              s!"warehouse: {line.warehouse}.", some s!"lines.{index}", .insufficientStock⟩
          else d
        handleLines policy lines (index + 1)
          (stocks.takeLine key stock line.quantity fulfilled) d
      | _, _ =>
        (stocks, d.addCritical ⟨s!"There is no stock for given product variant: {line.variantId} " ++
          s!"and warehouse: {line.warehouse}.", some s!"lines.{index}", .nonExistingStock⟩)

/-- An order in `handle_stocks`, on a copy of the stocks. -/
def handleOrder (policy : StockUpdatePolicy) (stocks : StockMap) (d : OrderBulkCreateData) :
    StockMap × OrderBulkCreateData :=
  handleLines policy d.lines 0 stocks d

/-- The stocks that `handle_stocks` asks for: of the variants and warehouses of the orders that are
there. -/
def queryStocks (stocks : StockMap) (ds : List OrderBulkCreateData) : StockMap :=
  let lines := (ds.filter fun d => d.order.isSome).flatMap OrderBulkCreateData.lines
  fun key =>
    if key.1 ∈ lines.filterMap OrderBulkOrderLine.variant ∧
        key.2 ∈ lines.map OrderBulkOrderLine.warehouse then stocks key
    else none

/-- `handle_stocks`. -/
def handleStocks (stocks : StockMap) (policy : StockUpdatePolicy) (ds : List OrderBulkCreateData) :
    StockMap × List OrderBulkCreateData :=
  Tentative.attempts (handleOrder policy) (fun d => !d.isCriticalError) (queryStocks stocks ds) ds

/-- The stocks and orders after `handle_stocks`, which is passed over with `SKIP`. -/
def handleStocksUnlessSkip (stocks : StockMap) (policy : StockUpdatePolicy)
    (ds : List OrderBulkCreateData) : StockMap × List OrderBulkCreateData :=
  if policy = .skip then (fun _ => none, ds) else handleStocks stocks policy ds

/-! ### Saving -/

/-- The orders with critical errors are left out, and the others know what has been fulfilled. -/
def prepareSave (d : OrderBulkCreateData) : OrderBulkCreateData :=
  { d with
    order := if d.isCriticalError then none else d.order
    lines := d.lines.mapIdx fun index line =>
      { line with quantityFulfilled := d.quantityFulfilled index } }

/-- What is saved of an order. -/
def OrderBulkCreateData.saved (d : OrderBulkCreateData) : Option SavedOrder :=
  d.order.map fun order => ⟨order, d.lines, d.fulfillments.flatten⟩

/-- `bulk_update` of the quantities. -/
def updateStocks (stocks changed : StockMap) : StockMap := fun key =>
  match changed key with
  | none => stocks key
  | some s => (stocks key).map fun stock => { stock with quantity := s.quantity }

/-- `save_data`. External references are unique, and quantities of fulfillment lines are not
negative. -/
def saveData (db : Database) (ds : List OrderBulkCreateData) (stocks : StockMap) :
    Except MutationError (Database × List OrderBulkCreateData) :=
  let ds := ds.map prepareSave
  let orders := ds.filterMap OrderBulkCreateData.saved
  if ¬ (references (db.orders ++ orders)).Nodup then .error (.integrity "external_reference")
  else if ∃ saved ∈ orders, ∃ line ∈ saved.fulfillmentLines, line.quantity < 0 then
    .error (.integrity "quantity")
  else .ok (⟨updateStocks db.stocks stocks, db.orders ++ orders⟩, ds)

/-- `MAX_ORDERS`. -/
def maxOrders : ℕ := 50

/-- `perform_mutation`: the database, and for each input the order, if it was created, and the
errors. -/
def performMutation (db : Database) (inputs : List OrderInput) (errorPolicy : ErrorPolicy)
    (stockUpdatePolicy : StockUpdatePolicy) :
    Except MutationError (Database × List OrderBulkCreateData) :=
  if maxOrders < inputs.length then
    .error (.bulkLimit s!"Number of orders exceeds limit: {maxOrders}.")
  else match createOrders db.orders inputs with
    | .error e => .error e
    | .ok ds =>
      let handled :=
        handleStocksUnlessSkip db.stocks stockUpdatePolicy (handleErrorPolicy errorPolicy ds)
      saveData db handled.2 handled.1

end BulkCreate

end Aixinwu
