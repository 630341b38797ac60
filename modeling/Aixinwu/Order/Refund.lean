import Aixinwu.Core.Mutations
import Aixinwu.Payment.Gateway

/-!
# Refunding an order

The four ways an order is refunded: `OrderRefund` of an amount, `FulfillmentRefundProducts` and
`FulfillmentReturnProducts` of lines or an amount, and the task that expires orders. They meet in
`gateway.refund`, and each says for itself which account is credited: the mutations on fulfilments
and the task name the owner of the order, `OrderRefund` names the user of the request.

What follows a refund, moving lines to a fulfilment, deallocating stock and writing events, is not
modelled: it is an input (`Rest`), any change of the status and the lines of the order and any
exception. What matters of it is which transaction it runs in. A return is rolled back by it, a
refund of products is not, unless it is a `DatabaseError`.

The lines of a request are those `clean_lines` and `clean_fulfillment_lines` have let through.

## Main definitions

* `Rest`, `commitOnErrors`
* `processRefund`, `createRefundFulfillment`, `createFulfillmentsForReturnedProducts`,
  `createFulfillmentsForExpiredOrders`
* `orderRefund`, `fulfillmentRefundProducts`, `fulfillmentReturnProducts`, `expireOrder`
-/

namespace Aixinwu

open Account Payments

namespace Refunds

/-- `FulfillmentStatus`. -/
inductive FulfillmentStatus where
  | fulfilled
  | refunded
  | returned
  | refundedAndReturned
  | replaced
  | canceled
  | waitingForApproval
deriving DecidableEq, Repr

/-- `order.models.FulfillmentLine`, with its order line and the status of its fulfilment. -/
structure FulfillmentLine where
  orderLine : OrderLine
  fulfillmentStatus : FulfillmentStatus
deriving DecidableEq, Repr

/-- `OrderLineInfo`, of a line to refund. -/
structure OrderLineInfo where
  line : OrderLine
  quantity : ℤ
  replace : Bool := false
deriving DecidableEq, Repr

/-- `FulfillmentLineData`. -/
structure FulfillmentLineData where
  line : FulfillmentLine
  quantity : ℤ
  replace : Bool := false
deriving DecidableEq, Repr

/-- What the work after a refund does to the order, and how it ends. -/
structure Rest where
  status : OrderStatus → OrderStatus := id
  lines : List OrderLine → List OrderLine := id
  raised : Option PaymentException := none

/-- Its writes. -/
def Rest.writes (rest : Rest) (order : ℕ) (db : Db) : Db :=
  { db with
    orders := db.orders.modify order
      (fun o => { o with status := rest.status o.status, lines := rest.lines o.lines })
      fun _ => rfl }

/-- It writes, and raises or returns. -/
def Rest.run (rest : Rest) (order : ℕ) : PaymentAction Unit :=
  modify (rest.writes order) >>= fun _ =>
    match rest.raised with
    | some e => throw e
    | none => pure ()

/-- `transaction_with_commit_on_errors`: only a `DatabaseError` rolls back. -/
def commitOnErrors {α : Type} (m : PaymentAction α) : PaymentAction α := fun db =>
  match m.exec db with
  | (.ok a, db') => (.ok a, db')
  | (.error e, db') => (.error e, if e = .databaseError then db else db')

/-! ### `saleor/order/actions.py` -/

/-- `_calculate_refund_amount`. -/
def calculateRefundAmount (orderLines : List OrderLineInfo)
    (fulfillmentLines : List FulfillmentLineData) : Amount :=
  (orderLines.map fun data => data.quantity * data.line.unitPriceGrossAmount).sum
    + ((fulfillmentLines.filter (·.line.fulfillmentStatus ≠ .refunded)).map fun data =>
        data.quantity * data.line.orderLine.unitPriceGrossAmount).sum

/-- The amount `_process_refund` starts from. -/
def requestedAmount (order : Order) (orderLines : List OrderLineInfo)
    (fulfillmentLines : List FulfillmentLineData) (amount : Option ℚ)
    (refundShippingCosts : Bool) : ℚ :=
  match amount with
  | some amount => amount
  | none =>
    calculateRefundAmount orderLines fulfillmentLines
      + if refundShippingCosts then (order.shippingPriceGrossAmount : ℚ) else 0

/-- `_process_refund`. -/
def processRefund (now : Time) (user : Option ℕ) (order : Order) (payment : Option Payment)
    (orderLines : List OrderLineInfo) (fulfillmentLines : List FulfillmentLineData)
    (amount : Option ℚ) (refundShippingCosts : Bool) : PaymentAction ℚ :=
  let amount := requestedAmount order orderLines fulfillmentLines amount refundShippingCosts
  commitOnErrors
    (match payment with
    | none => pure amount
    | some payment =>
      if amount = 0 then pure amount
      else
        let amount := min (payment.capturedAmount : ℚ) amount
        match user with
        | none => throw (.other "AttributeError")
        | some user => refund now payment.pk (some amount) (some user) >>= fun _ => pure amount)

/-- `create_refund_fulfillment`. -/
def createRefundFulfillment (now : Time) (user : Option ℕ) (order : Order)
    (payment : Option Payment) (orderLines : List OrderLineInfo)
    (fulfillmentLines : List FulfillmentLineData) (amount : Option ℚ)
    (refundShippingCosts : Bool) (rest : Rest) : PaymentAction Unit :=
  commitOnErrors
    (processRefund now user order payment orderLines fulfillmentLines amount refundShippingCosts
      >>= fun _ => rest.run order.pk)

/-- `create_fulfillments_for_returned_products`. -/
def createFulfillmentsForReturnedProducts (now : Time) (user : Option ℕ) (order : Order)
    (payment : Option Payment) (orderLines : List OrderLineInfo)
    (fulfillmentLines : List FulfillmentLineData) (refund : Bool) (amount : Option ℚ)
    (refundShippingCosts : Bool) (rest : Rest) : PaymentAction Unit :=
  Action.atomic
    ((if refund && payment.isSome then
        processRefund now user order payment (orderLines.filter (!·.replace))
          (fulfillmentLines.filter (!·.replace)) amount refundShippingCosts >>= fun _ => pure ()
      else pure ())
      >>= fun _ => rest.run order.pk)

/-- What `create_fulfillments_for_expired_orders` refunds: the lines that are not fulfilled. -/
def unfulfilledAmount (order : Order) : Amount :=
  ((order.lines.filter (·.quantityUnfulfilled > 0)).map fun line =>
    line.unitPriceGrossAmount * line.quantityUnfulfilled).sum

/-- `create_fulfillments_for_expired_orders`. -/
def createFulfillmentsForExpiredOrders (now : Time) (order : Order) (rest : Rest) :
    PaymentAction Unit :=
  commitOnErrors
    (get >>= fun db =>
      (match order.user with
      | none => pure ()
      | some user =>
        if unfulfilledAmount order > 0 then
          match getLastPayment db.payments order.pk with
          | none => throw (.other "AttributeError")
          | some payment =>
            refund now payment.pk (some (unfulfilledAmount order : ℚ)) (some user)
              >>= fun _ => pure ()
        else pure ())
      >>= fun _ => rest.run order.pk)

/-! ### The requests -/

/-- The class of an exception. -/
def exceptionName : PaymentException → String
  | .paymentError _ => "PaymentError"
  | .doesNotExist => "DoesNotExist"
  | .databaseError => "DatabaseError"
  | .other name => name

/-- `OrderRefund.perform_mutation`; `user` is `info.context.user`. -/
def orderRefund (now : Time) (requestor : Option Requestor) (user : Option ℕ)
    (channelAccess : Bool) (id : ℕ) (amount : ℚ) (rest : Rest) (db : Db) : Db × Outcome :=
  if ¬ hasOneOfPermissions requestor [.manageOrders] then (db, .denied)
  else if amount ≤ 0 then
    (db, .errors [⟨"amount", "Amount should be a positive number.", .zeroQuantity⟩])
  else
    match getNodeOrError "Order" id (db.orders.find? id) with
    | .error es => (db, .errors es)
    | .ok order =>
      if ¬ channelAccess then (db, .denied)
      else if order.hasGiftCardLines then
        (db, .errors [⟨"id", "Cannot refund order with gift card lines.", .cannotRefund⟩])
      else
        match getLastPayment db.payments order.pk with
        | none =>
          (db, .errors [⟨"payment", "There's no payment associated with the order.",
            .paymentMissing⟩])
        | some payment =>
          if ¬ payment.canRefund then
            (db, .errors [⟨"payment", "Payment cannot be refunded.", .cannotRefund⟩])
          else
            match user with
            | none => (db, .raised "AttributeError")
            | some user =>
              match (refund now payment.pk (some amount) (some user)).exec db with
              | (.error (.paymentError message), db) =>
                (db, .errors [⟨"payment", message, .paymentError⟩])
              | (.error e, db) => (db, .raised (exceptionName e))
              | (.ok _, db) =>
                -- the refund is committed before the rest is done
                match (rest.run order.pk).exec db with
                | (.ok _, db) => (db, .success)
                | (.error e, db) => (db, .raised (exceptionName e))

/-- `clean_order_payment`. -/
def cleanOrderPayment (payment : Option Payment) : Except (List ValidationError) Payment :=
  match payment.filter (·.canRefund) with
  | none => .error [⟨"order", "Order cannot be refunded.", .cannotRefund⟩]
  | some payment => .ok payment

/-- `clean_amount_to_refund`. -/
def cleanAmountToRefund (order : Order) (amountToRefund : Option ℚ) (chargedValue : Amount) :
    Except (List ValidationError) Unit :=
  match amountToRefund with
  | none => .ok ()
  | some amount =>
    if order.hasGiftCardLines then
      .error [⟨"amount_to_refund",
        "Cannot specified amount to refund when order has gift card lines.", .cannotRefund⟩]
    else if amount > chargedValue then
      .error [⟨"amount_to_refund",
        "The amountToRefund is greater than the maximal possible amount to refund.",
        .cannotRefund⟩]
    else .ok ()

/-- `get_node_or_error(…, field="order")`. -/
def orderOrError (id : ℕ) (db : Db) : Except (List ValidationError) Order :=
  match db.orders.find? id with
  | some order => .ok order
  | none =>
    .error [⟨"order", "Couldn't resolve to a node: " ++ toGlobalId "Order" id, .notFound⟩]

/-- `raise_error_for_payment_error`, which names no field: the response to a `PaymentError`. -/
def respond {α : Type} : Except PaymentException α × Db → Db × Outcome
  | (.ok _, db) => (db, .success)
  | (.error (.paymentError _), db) =>
    (db, .errors [⟨"", "The refund operation is not available yet.", .cannotRefund⟩])
  | (.error e, db) => (db, .raised (exceptionName e))

/-- What `clean_input` looks up before the lines: the order and the payment to refund, if one is to
be refunded. -/
def cleanRefund (id : ℕ) (refund : Bool) (amountToRefund : Option ℚ) (db : Db) :
    Except (List ValidationError) (Order × Option Payment) :=
  match orderOrError id db with
  | .error es => .error es
  | .ok order =>
    if ¬ refund then .ok (order, none)
    else
      match cleanOrderPayment (getLastPayment db.payments order.pk) with
      | .error es => .error es
      | .ok payment =>
        match cleanAmountToRefund order amountToRefund payment.capturedAmount with
        | .error es => .error es
        | .ok () => .ok (order, some payment)

/-- `FulfillmentRefundProducts.perform_mutation`. -/
def fulfillmentRefundProducts (now : Time) (requestor : Option Requestor) (channelAccess : Bool)
    (id : ℕ) (orderLines : List OrderLineInfo) (fulfillmentLines : List FulfillmentLineData)
    (amountToRefund : Option ℚ) (includeShippingCosts : Bool) (rest : Rest) (db : Db) :
    Db × Outcome :=
  if ¬ hasOneOfPermissions requestor [.manageOrders] then (db, .denied)
  else
    match cleanRefund id true amountToRefund db with
    | .error es => (db, .errors es)
    | .ok (order, payment) =>
      if ¬ channelAccess then (db, .denied)
      else
        respond
          ((createRefundFulfillment now order.user order payment orderLines fulfillmentLines
            amountToRefund includeShippingCosts rest).exec db)

/-- `FulfillmentReturnProducts.perform_mutation`; without `refund` the amount is not looked at. -/
def fulfillmentReturnProducts (now : Time) (requestor : Option Requestor) (channelAccess : Bool)
    (id : ℕ) (orderLines : List OrderLineInfo) (fulfillmentLines : List FulfillmentLineData)
    (refund : Bool) (amountToRefund : Option ℚ) (includeShippingCosts : Bool) (rest : Rest)
    (db : Db) : Db × Outcome :=
  if ¬ hasOneOfPermissions requestor [.manageOrders] then (db, .denied)
  else
    match cleanRefund id refund amountToRefund db with
    | .error es => (db, .errors es)
    | .ok (order, payment) =>
      if ¬ channelAccess then (db, .denied)
      else
        respond
          ((createFulfillmentsForReturnedProducts now order.user order payment orderLines
            fulfillmentLines refund (if refund then amountToRefund else none)
            includeShippingCosts rest).exec db)

/-- The statuses of an order that `_expire_orders` looks for. -/
def expirableStatuses : List OrderStatus := [.unconfirmed, .unfulfilled, .partiallyFulfilled]

/-- The order is saved as expired. -/
def markExpired (id : ℕ) (db : Db) : Db :=
  { db with orders := db.orders.modify id (fun o => { o with status := .expired }) fun _ => rfl }

/-- `_expire_orders`, of one order whose channel is `due`; an exception is logged. -/
def expireOrder (now : Time) (due : Bool) (id : ℕ) (rest : Rest) (db : Db) : Db :=
  match db.orders.find? id with
  | none => db
  | some order =>
    if due ∧ order.status ∈ expirableStatuses then
      ((Action.atomic
        (createFulfillmentsForExpiredOrders now order rest >>= fun _ =>
          modify (markExpired id))).exec db).2
    else db

end Refunds

end Aixinwu
