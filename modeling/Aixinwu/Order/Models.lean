import Aixinwu.Account.Models

/-!
# Orders and payments

The rows of `saleor/order/models.py` and `saleor/payment/models.py` that confirming and refunding
an order read or write: the order with its lines, and the payments made for it. The discounts,
addresses, channels and the transaction log of a payment are left out; no modelled function reads
them.

## Main definitions

* `OrderStatus`, `Order`, `OrderLine`
* `ChargeStatus`, `Payment`
* `getLastPayment` — the payment an operation on an order acts on
-/

namespace Aixinwu

/-- `OrderStatus`. -/
inductive OrderStatus where
  | draft
  | unconfirmed
  | unfulfilled
  | partiallyFulfilled
  | fulfilled
  | partiallyReturned
  | returned
  | canceled
  | expired
  | leased
  | refunded
deriving DecidableEq, Repr

/-- `ChargeStatus`, of a payment. -/
inductive ChargeStatus where
  | notCharged
  | pending
  | partiallyCharged
  | fullyCharged
  | partiallyRefunded
  | fullyRefunded
  | refused
  | cancelled
deriving DecidableEq, Repr

/-- The charge status of an order: one of `OrderChargeStatus`, or the status of a payment, which
is what confirming an order writes there. -/
inductive OrderChargeStatus where
  | none
  | partly
  | full
  | overcharged
  | ofPayment (s : ChargeStatus)
deriving DecidableEq, Repr

/-- `order.models.OrderLine`. -/
structure OrderLine where
  pk : ℕ
  quantity : ℤ
  quantityFulfilled : ℤ := 0
  unitPriceGrossAmount : Amount
  isGiftCard : Bool := false
deriving DecidableEq, Repr

/-- `quantity_unfulfilled`. -/
def OrderLine.quantityUnfulfilled (l : OrderLine) : ℤ := l.quantity - l.quantityFulfilled

/-- `order.models.Order`; `user` is the key of the owner. -/
structure Order where
  pk : ℕ
  user : Option ℕ
  status : OrderStatus
  chargeStatus : OrderChargeStatus := .none
  totalNetAmount : Amount
  totalGrossAmount : Amount := 0
  totalChargedAmount : Amount := 0
  shippingPriceGrossAmount : Amount := 0
  checkoutToken : String := ""
  lines : List OrderLine
deriving DecidableEq, Repr

instance : HasPk Order ℕ := ⟨Order.pk⟩

@[simp] theorem pk_order (o : Order) : HasPk.pk o = o.pk := rfl

/-- `order_has_gift_card_lines`. -/
def Order.hasGiftCardLines (o : Order) : Bool := o.lines.any (·.isGiftCard)

/-- `payment.models.Payment`; `isPartial` is the column `partial`. -/
structure Payment where
  pk : ℕ
  order : Option ℕ
  gateway : String
  isActive : Bool := true
  toConfirm : Bool := false
  isPartial : Bool := false
  total : Amount
  capturedAmount : Amount := 0
  chargeStatus : ChargeStatus := .notCharged
deriving DecidableEq, Repr

instance : HasPk Payment ℕ := ⟨Payment.pk⟩

@[simp] theorem pk_payment (p : Payment) : HasPk.pk p = p.pk := rfl

/-- `Payment.can_refund`. -/
def Payment.canRefund (p : Payment) : Bool :=
  p.chargeStatus ∈ [ChargeStatus.partiallyCharged, .fullyCharged, .partiallyRefunded]

/-- `Payment.is_manual`. -/
def Payment.isManual (p : Payment) : Bool := p.gateway = "manual"

/-- `max(payments, key=attrgetter("pk"))`: the payment with the largest key. -/
def maxByPk : List Payment → Option Payment
  | [] => none
  | p :: ps =>
    match maxByPk ps with
    | none => some p
    | some q => some (if p.pk < q.pk then q else p)

theorem maxByPk_mem : ∀ {ps : List Payment} {p : Payment}, maxByPk ps = some p → p ∈ ps
  | q :: ps, p, h => by
    rw [maxByPk] at h
    cases hps : maxByPk ps with
    | none => simp_all
    | some r =>
      have hr := maxByPk_mem hps
      simp only [hps] at h
      split at h <;> cases h
      · exact List.mem_cons_of_mem _ hr
      · exact List.mem_cons_self

/-- `Order.get_last_payment`: partly made payments are skipped. -/
def getLastPayment (payments : Table Payment) (order : ℕ) : Option Payment :=
  maxByPk (payments.rows.filter fun p => p.order = some order && !p.isPartial)

theorem getLastPayment_mem {payments : Table Payment} {order : ℕ} {p : Payment}
    (h : getLastPayment payments order = some p) : p ∈ payments ∧ p.order = some order := by
  have hmem := List.mem_filter.mp (maxByPk_mem h)
  exact ⟨hmem.1, by simpa using (Bool.and_eq_true_iff.mp hmem.2).1⟩

end Aixinwu
