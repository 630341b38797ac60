import Aixinwu.Lib.Aggregates
import Aixinwu.Lib.Serial
import Aixinwu.Warehouse.Deallocate

/-!
# Fulfillments and their lines

An order line says how many items were ordered and how many of them are fulfilled; where these are
is said by fulfillment lines. `FulfillmentRefundProducts` and `FulfillmentReturnProducts` take lines
of both kinds, and what is asked of each line is checked here.

## What is deliberately absent

What the requests do to the lines then; events, notifications and gift cards, and the payment:
whether a refund goes through is an input, as only that matters to the lines. An id stands for one
object; that an order line can also be named by its old id is left out.

## Main definitions

* `OrderLine`, `Fulfillment`, `FulfillmentLine`, `FulfillmentLines`, `Db`
* `cleanLine`, `cleanFulfillmentLine`
-/

namespace Aixinwu

namespace Fulfillments

/-! ### The tables -/

/-- `FulfillmentStatus`. -/
inductive FulfillmentStatus where
  | fulfilled
  | refunded
  | returned
  | refundedAndReturned
  | replaced
  | canceled
  | waitingForApproval
deriving DecidableEq, Repr

/-- `order.models.Order`, as far as fulfilling is concerned; `isFullyPaid` says that its charge
status is `fully-charged`. -/
structure Order where
  pk : ℕ
  channelSlug : String := ""
  isFullyPaid : Bool := false
deriving DecidableEq, Repr

instance : HasPk Order ℕ := ⟨Order.pk⟩

/-- `order.models.OrderLine`, as far as fulfilling is concerned. -/
structure OrderLine where
  pk : ℕ
  order : ℕ
  variant : Option ℕ := none
  isGiftCard : Bool := false
  quantity : ℤ
  quantityFulfilled : ℤ := 0
deriving DecidableEq, Repr

instance : HasPk OrderLine ℕ := ⟨OrderLine.pk⟩

@[simp] theorem pk_orderLine (l : OrderLine) : HasPk.pk l = l.pk := rfl

/-- `quantity_unfulfilled`. -/
def OrderLine.quantityUnfulfilled (l : OrderLine) : ℤ := l.quantity - l.quantityFulfilled

/-- `order.models.Fulfillment`. -/
structure Fulfillment where
  pk : ℕ
  order : ℕ
  status : FulfillmentStatus
deriving DecidableEq, Repr

instance : HasPk Fulfillment ℕ := ⟨Fulfillment.pk⟩

@[simp] theorem pk_fulfillment (f : Fulfillment) : HasPk.pk f = f.pk := rfl

/-- `order.models.FulfillmentLine`, an instance or a row. -/
structure FulfillmentLine where
  pk : ℕ
  orderLine : ℕ
  fulfillment : ℕ
  stock : Option ℕ := none
  quantity : ℤ
deriving DecidableEq, Repr

instance : HasPk FulfillmentLine ℕ := ⟨FulfillmentLine.pk⟩

@[simp] theorem pk_fulfillmentLine (l : FulfillmentLine) : HasPk.pk l = l.pk := rfl

/-- The rows of `FulfillmentLine`: the column of the quantity takes no negative number. -/
structure FulfillmentLines extends Serial FulfillmentLine where
  quantity_nonneg : ∀ l ∈ rows, 0 ≤ l.quantity

namespace FulfillmentLines

instance : Membership FulfillmentLine FulfillmentLines := ⟨fun t l => l ∈ t.rows⟩

theorem mem_def {t : FulfillmentLines} {l : FulfillmentLine} : l ∈ t ↔ l ∈ t.rows := Iff.rfl

/-- The table without rows. -/
def empty : FulfillmentLines := ⟨Serial.empty, fun _ hl => absurd hl List.not_mem_nil⟩

end FulfillmentLines

/-- The tables. -/
structure Db where
  orders : Serial Order := .empty
  orderLines : Serial OrderLine := .empty
  fulfillments : Serial Fulfillment := .empty
  fulfillmentLines : FulfillmentLines := .empty
  stocks : Stocks.Db := {}

/-- `fulfillment.lines.all()`. -/
def Db.linesOf (db : Db) (fulfillment : ℕ) : List FulfillmentLine :=
  db.fulfillmentLines.rows.filter (·.fulfillment = fulfillment)

/-! ### Errors -/

/-- `OrderErrorCode`, as far as it is used here. -/
inductive OrderErrorCode where
  | cannotCancelFulfillment
  | cannotFulfillUnpaidOrder
  | duplicatedInputItem
  | fulfillOrderLine
  | giftCardLine
  | graphqlError
  | invalid
  | invalidQuantity
  | required
  | zeroQuantity
deriving DecidableEq, Repr

/-- How a request can fail. -/
inductive Failure where
  | validation (field : Option String) (message : String) (code : OrderErrorCode)
  | insufficientStock (items : List Stocks.InsufficientStockData)
  | stocks (e : Stocks.AllocateError)
  | cannotRefund
  | attributeError
  | integrityError
deriving DecidableEq, Repr

/-- An error unless the condition holds. -/
def ensure (condition : Bool) (e : Failure) : Except Failure Unit :=
  if condition then .ok () else .error e

@[simp] theorem ensure_eq_ok {condition : Bool} {e : Failure} {u : Unit} :
    ensure condition e = .ok u ↔ condition = true := by
  rw [ensure]
  cases condition <;> simp

/-- What is not there is an error. -/
def orFail {α : Type} (x : Option α) (e : Failure) : Except Failure α :=
  match x with
  | some a => .ok a
  | none => .error e

@[simp] theorem orFail_eq_ok {α : Type} {x : Option α} {e : Failure} {a : α} :
    orFail x e = .ok a ↔ x = some a := by
  cases x <;> simp [orFail]

/-- `get_node_or_error`. -/
def getNodeOrError {ρ : Type} [HasPk ρ ℕ] (t : Serial ρ) (id : ℕ) (field : Option String) :
    Except Failure ρ :=
  orFail (t.toTable.find? id) (.validation field "Couldn't resolve to a node" .graphqlError)

/-! ### What a request moves -/

/-- A line of `OrderRefundProductsInput` or `OrderReturnProductsInput`. -/
structure LineInput where
  id : ℕ
  quantity : ℤ
  replace : Bool := false
deriving DecidableEq, Repr

/-- What the payment comes to: the checks before anything is done, and the refund. -/
structure PaymentAnswers where
  checks : Except Failure Unit := .ok ()
  refund : Except Failure Unit := .ok ()

/-- `order.fetch.OrderLineInfo`. -/
structure OrderLineInfo where
  line : OrderLine
  quantity : ℤ
  replace : Bool := false
deriving DecidableEq, Repr

/-- `FulfillmentLineData`. -/
structure FulfillmentLineData where
  line : FulfillmentLine
  quantity : ℤ
  replace : Bool := false
deriving DecidableEq, Repr

/-- The value of a status. -/
def FulfillmentStatus.value : FulfillmentStatus → String
  | .fulfilled => "fulfilled"
  | .refunded => "refunded"
  | .returned => "returned"
  | .refundedAndReturned => "refunded_and_returned"
  | .replaced => "replaced"
  | .canceled => "canceled"
  | .waitingForApproval => "waiting_for_approval"

/-- The loop of `clean_lines`, for a line. -/
def cleanLine (line : OrderLine) (data : LineInput) : Except Failure OrderLineInfo := do
  ensure (!line.isGiftCard)
    (.validation (some "order_line_id") "Cannot refund or return gift card line." .giftCardLine)
  ensure (data.quantity ≤ line.quantity)
    (.validation (some "order_line_id") "Provided quantity is bigger than quantity from order line."
      .invalidQuantity)
  ensure (data.quantity ≤ line.quantityUnfulfilled)
    (.validation (some "order_line_id") "Provided quantity is bigger than unfulfilled quantity."
      .invalidQuantity)
  ensure (!data.replace || line.variant.isSome)
    (.validation (some "order_line_id")
      "Unable to replace line as the assigned product doesn't exist." .invalidQuantity)
  return { line := line, quantity := data.quantity, replace := data.replace }

/-- The loop of `clean_fulfillment_lines`, for a line. -/
def cleanFulfillmentLine (db : Db) (whitelistedStatuses : List FulfillmentStatus)
    (line : FulfillmentLine) (data : LineInput) : Except Failure FulfillmentLineData := do
  let orderLine ← orFail (db.orderLines.toTable.find? line.orderLine) .attributeError
  ensure (!orderLine.isGiftCard)
    (.validation (some "fulfillment_line_id") "Cannot refund or return gift card line."
      .giftCardLine)
  ensure (data.quantity ≤ line.quantity)
    (.validation (some "fulfillment_line_id")
      "Provided quantity is bigger than quantity from fulfillment line" .invalidQuantity)
  let fulfillment ← orFail (db.fulfillments.toTable.find? line.fulfillment) .attributeError
  ensure (fulfillment.status ∈ whitelistedStatuses)
    (.validation (some "fulfillment_line_id")
      ("Unable to process action for fulfillmentLine with different status than "
        ++ ", ".intercalate (whitelistedStatuses.map (·.value)) ++ ".") .invalid)
  ensure (!data.replace || orderLine.variant.isSome)
    (.validation (some "order_line_id")
      "Unable to replace line as the assigned product doesn't exist." .invalidQuantity)
  return { line := line, quantity := data.quantity, replace := data.replace }

/-! ### Channels -/

/-- `text.find(sub)`. -/
def find (text sub : List Char) : ℤ :=
  match text.tails.findIdx? (sub.isPrefixOf ·) with
  | some i => i
  | none => -1

end Fulfillments

end Aixinwu
