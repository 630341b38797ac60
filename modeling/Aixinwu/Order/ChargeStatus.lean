import Aixinwu.Order.ConfirmRuns
import Aixinwu.Payment.Gateway
import Aixinwu.Lib.Runs
import Mathlib

/-!
# What an order says about its payment

The columns `total_charged_amount` and `charge_status` of an order summarize its payments, its
transactions and the refunds granted for it. `update_order_charge_data` computes them anew, and
every operation on money ends with it, except `OrderConfirm`, which writes both by itself. The two
writers use different words: `update_order_charge_status` those of `OrderChargeStatus`, and
`OrderConfirm` the `fully-charged` of a payment. `Order.is_fully_paid` knows only the latter, and
the filter of `_expire_orders` asks for a word of each.

`agrees_finish_iff` says when an operation leaves an order whose columns mean what their readers
take them for, and `agrees_reached` is the same of runs.

## Main definitions

* `ChargeDb`, `updateOrderChargeStatus`, `updateOrderChargeData`
* `updatePaymentChargeStatus`, `gatewayPostprocess`, `capture`
* `ChargeOp`, `write`, `exec` — the operations
* `Agrees` — the columns agree with the money
* `Sound` — the condition on an operation

## Main results

* `agrees_finish_iff` — one operation
* `agrees_reached` — every state of a run
-/

namespace Aixinwu

namespace Charges

open Account Payments Decimals

/-- `payment.models.TransactionItem`, of an order. -/
structure TransactionItem where
  pk : ℕ
  order : Option ℕ
  chargedValue : Amount := 0
deriving DecidableEq, Repr

instance : HasPk TransactionItem ℕ := ⟨TransactionItem.pk⟩

@[simp] theorem pk_transactionItem (t : TransactionItem) : HasPk.pk t = t.pk := rfl

/-- `order.models.OrderGrantedRefund`. -/
structure OrderGrantedRefund where
  pk : ℕ
  order : ℕ
  amountValue : Amount
deriving DecidableEq, Repr

instance : HasPk OrderGrantedRefund ℕ := ⟨OrderGrantedRefund.pk⟩

@[simp] theorem pk_orderGrantedRefund (r : OrderGrantedRefund) : HasPk.pk r = r.pk := rfl

/-- The tables. -/
structure ChargeDb where
  account : Db
  transactions : Table TransactionItem
  grantedRefunds : Table OrderGrantedRefund

/-- What the payments of an order have captured. -/
def ChargeDb.capturedFor (db : ChargeDb) (order : ℕ) : Amount :=
  (db.account.payments.rows.map fun p => if p.order = some order then p.capturedAmount else 0).sum

/-- What the transactions of an order have charged. -/
def ChargeDb.chargedValueFor (db : ChargeDb) (order : ℕ) : Amount :=
  (db.transactions.rows.map fun t => if t.order = some order then t.chargedValue else 0).sum

/-- Both together. -/
def ChargeDb.chargedFor (db : ChargeDb) (order : ℕ) : Amount :=
  db.capturedFor order + db.chargedValueFor order

/-- The refunds granted for an order. -/
def ChargeDb.grantedFor (db : ChargeDb) (order : ℕ) : Amount :=
  (db.grantedRefunds.rows.map fun r => if r.order = order then r.amountValue else 0).sum

/-! ### The columns of the order -/

/-- What is to be paid: the total less the granted refunds, and never less than nothing. -/
def currentTotalGross (order : Order) (grantedRefundAmount : Amount) : Amount :=
  max (order.totalGrossAmount - grantedRefundAmount) 0

/-- `update_order_charge_status`; the smallest amount of the currency is `unit`. -/
def updateOrderChargeStatus (unit : ℕ) (order : Order) (grantedRefundAmount : Amount) : Order :=
  let totalCharged := quantize unit order.totalChargedAmount
  let currentTotalGross := quantize unit (currentTotalGross order grantedRefundAmount)
  { order with
    chargeStatus :=
      if totalCharged = currentTotalGross then .full
      else if totalCharged ≤ 0 then .none
      else if totalCharged < currentTotalGross then .partly
      else .overcharged }

/-- `_update_order_total_charged`. -/
def updateOrderTotalCharged (db : ChargeDb) (order : Order) : Order :=
  { order with totalChargedAmount := db.chargedFor order.pk }

/-- The row that `update_order_charge_data` saves. -/
def chargeUpdated (unit : ℕ) (db : ChargeDb) (order : Order) : Order :=
  updateOrderChargeStatus unit (updateOrderTotalCharged db order) (db.grantedFor order.pk)

theorem pk_chargeUpdated (unit : ℕ) (db : ChargeDb) (order : Order) :
    HasPk.pk (chargeUpdated unit db order) = HasPk.pk order := by
  rw [chargeUpdated, updateOrderChargeStatus, updateOrderTotalCharged, pk_order, pk_order]

/-- `update_order_charge_data`. -/
def updateOrderChargeData (unit : ℕ) (order : ℕ) (db : ChargeDb) : ChargeDb where
  account := { db.account with
    orders := db.account.orders.modify order (chargeUpdated unit db) (pk_chargeUpdated unit db) }
  transactions := db.transactions
  grantedRefunds := db.grantedRefunds

/-- `Order.is_fully_paid`. -/
def isFullyPaid (order : Order) : Bool := order.chargeStatus = .ofPayment .fullyCharged

/-- The filter for unpaid orders in `_expire_orders`, without the deadline. -/
def isUnpaid (order : Order) : Bool :=
  order.chargeStatus ∈ [.ofPayment .notCharged, .none] && order.status = .unconfirmed

/-! ### Payments -/

/-- `TransactionKind`. -/
inductive TransactionKind where
  | external
  | auth
  | capture
  | captureFailed
  | actionToConfirm
  | void
  | pending
  | refund
  | refundOngoing
  | refundFailed
  | refundReversed
  | confirm
  | cancel
deriving DecidableEq, Repr

/-- `payment.models.Transaction`, as a gateway answers a capture. -/
structure GatewayTransaction where
  kind : TransactionKind
  isSuccess : Bool
  actionRequired : Bool := false
  alreadyProcessed : Bool := false
  amount : ℚ
  error : Option String := none
deriving DecidableEq, Repr

/-- `update_payment_charge_status`: the row that is saved, and whether `captured_amount` is among
the changed fields. That a captured payment is active again is not saved. -/
def updatePaymentChargeStatus (payment : Payment) (txn : GatewayTransaction) : Payment × Bool :=
  match txn.kind with
  | .capture | .refundReversed =>
    let capturedAmount : ℚ := payment.capturedAmount + txn.amount
    ({ payment with
        capturedAmount := toColumn capturedAmount
        chargeStatus :=
          if payment.total - capturedAmount ≤ 0 then .fullyCharged else .partiallyCharged }, true)
  | .void => ({ payment with isActive := false }, false)
  | .refund => (captureRefunded payment txn.amount, true)
  | .pending => ({ payment with chargeStatus := .pending }, false)
  | .cancel => ({ payment with chargeStatus := .cancelled, isActive := false }, false)
  | .captureFailed =>
    if payment.chargeStatus ∈ [ChargeStatus.partiallyCharged, .fullyCharged] then
      let capturedAmount : ℚ := payment.capturedAmount - txn.amount
      ({ payment with
          capturedAmount := toColumn capturedAmount
          chargeStatus := if capturedAmount ≤ 0 then .notCharged else .partiallyCharged }, true)
    else (payment, false)
  | _ => (payment, false)

/-- `gateway_postprocess`, before the charge data of the order is updated. -/
def postprocessed (payment : Payment) (txn : GatewayTransaction) : Payment × Bool :=
  if ¬ txn.isSuccess || txn.alreadyProcessed then (payment, false)
  else if txn.actionRequired then ({ payment with toConfirm := true }, false)
  else updatePaymentChargeStatus { payment with toConfirm := false } txn

/-- `clean_capture`. -/
def cleanCapture (payment : Payment) (amount : ℚ) : Except PaymentException Unit :=
  if amount ≤ 0 then .error (.paymentError "Amount should be a positive number.")
  else if ¬ (payment.isActive && payment.chargeStatus = .notCharged) then
    .error (.paymentError "This payment cannot be captured.")
  else if amount > payment.total ∨ amount > payment.total - payment.capturedAmount then
    .error (.paymentError "Unable to charge more than un-captured amount.")
  else .ok ()

/-! ### The operations -/

/-- What an operation has written when the order comes into it: its charge data is to be updated,
or `OrderConfirm` has written them, or no order is concerned. -/
inductive Written where
  | toUpdate (db : ChargeDb) (order : ℕ)
  | confirmed (db : ChargeDb) (order : ℕ)
  | noOrder (db : ChargeDb)

/-- The charge data of an order, if there is one, is to be updated. -/
def writtenFor (db : ChargeDb) : Option ℕ → Written
  | some order => .toUpdate db order
  | none => .noOrder db

/-- `payment.save()`. -/
def paymentSaved (db : ChargeDb) (payment : Payment) : ChargeDb :=
  { db with account := { db.account with payments := db.account.payments.save payment } }

/-- Save a payment, and update its order if the captured amount has changed. -/
def savePayment (db : ChargeDb) (payment : Payment × Bool) : Written :=
  if payment.2 then writtenFor (paymentSaved db payment.1) payment.1.order
  else .noOrder (paymentSaved db payment.1)

/-- `gateway.capture`, with the answer of the gateway, if it gives one. -/
def capture (payment : ℕ) (amount : Option ℚ) (response : Option GatewayTransaction)
    (db : ChargeDb) : Except PaymentException Written :=
  match db.account.payments.find? payment with
  | none => .error .doesNotExist
  | some payment =>
    if ¬ payment.isActive then .error (.paymentError "This payment is no longer active.")
    else
      match cleanCapture payment (amount.getD (payment.total - payment.capturedAmount)) with
      | .error e => .error e
      | .ok () =>
        match response with
        | none => .error (.paymentError errorMsg)
        | some txn =>
          if ¬ txn.isSuccess then
            .error (.paymentError
              (if txn.error.getD "" = "" then genericTransactionError else txn.error.getD ""))
          else .ok (savePayment db (postprocessed payment txn))

/-- `gateway.refund`. -/
def refund (now : Time) (payment : ℕ) (amount : Option ℚ) (customerId : Option ℕ)
    (db : ChargeDb) : Except PaymentException Written :=
  match (Payments.refund now payment amount customerId).exec db.account with
  | (.error e, _) => .error e
  | (.ok _, account) =>
    .ok (writtenFor { db with account := account }
      ((db.account.payments.find? payment).bind (·.order)))

/-- `clean_mark_order_as_paid`. -/
def cleanMarkOrderAsPaid (db : ChargeDb) (order : ℕ) : Except PaymentException Unit :=
  if db.account.payments.rows.any (·.order = some order) then
    .error (.paymentError "Orders with payments can not be manually marked as paid.")
  else if db.transactions.rows.any (·.order = some order) then
    .error (.paymentError "Orders with transactions can not be manually marked as paid.")
  else .ok ()

/-- The payment of `mark_order_as_paid_with_payment`. -/
def manualPayment (pk : ℕ) (order : Order) : Payment where
  pk := pk
  order := some order.pk
  gateway := "manual"
  total := order.totalGrossAmount
  capturedAmount := order.totalGrossAmount
  chargeStatus := .fullyCharged

/-- The transaction of `mark_order_as_paid_with_transaction`. -/
def markAsPaidTransaction (pk : ℕ) (order : Order) : TransactionItem where
  pk := pk
  order := some order.pk
  chargedValue := order.totalGrossAmount

/-- The operations; a new row brings its key. A transaction that is created or updated comes with
what has been charged with it, however that was found. -/
inductive ChargeOp where
  | confirm (now : Time) (user : Option ℕ) (id : ℕ)
  | capture (payment : ℕ) (amount : Option ℚ) (response : Option GatewayTransaction)
  | refund (now : Time) (payment : ℕ) (amount : Option ℚ) (customerId : Option ℕ)
  | createTransaction (transaction : TransactionItem)
  | updateTransaction (transaction : ℕ) (chargedValue : Amount)
  | createGrantedRefund (grantedRefund : OrderGrantedRefund)
  | updateGrantedRefund (grantedRefund : ℕ) (amountValue : Amount)
  | markAsPaidWithPayment (order : ℕ) (payment : ℕ)
  | markAsPaidWithTransaction (order : ℕ) (transaction : ℕ)

/-- The writes of an operation up to the charge data; `none` if it is refused. -/
def write (unit : ℕ) (db : ChargeDb) : ChargeOp → Option Written
  | .confirm now user id =>
    match orderConfirm unit now user id db.account with
    | (account, .success) => some (.confirmed { db with account := account } id)
    | _ => none
  | .capture payment amount response => (capture payment amount response db).toOption
  | .refund now payment amount customerId => (refund now payment amount customerId db).toOption
  | .createTransaction transaction =>
    (db.transactions.insert transaction).map fun transactions =>
      writtenFor { db with transactions := transactions } transaction.order
  | .updateTransaction transaction chargedValue =>
    (db.transactions.find? transaction).map fun t =>
      writtenFor
        { db with
          transactions := db.transactions.save { t with chargedValue := chargedValue } } t.order
  | .createGrantedRefund grantedRefund =>
    (db.grantedRefunds.insert grantedRefund).map fun grantedRefunds =>
      .toUpdate { db with grantedRefunds := grantedRefunds } grantedRefund.order
  | .updateGrantedRefund grantedRefund amountValue =>
    (db.grantedRefunds.find? grantedRefund).map fun r =>
      .toUpdate
        { db with grantedRefunds := db.grantedRefunds.save { r with amountValue := amountValue } }
        r.order
  | .markAsPaidWithPayment order payment =>
    match db.account.orders.find? order, cleanMarkOrderAsPaid db order with
    | some o, .ok () =>
      (db.account.payments.insert (manualPayment payment o)).map fun payments =>
        .toUpdate { db with account := { db.account with payments := payments } } order
    | _, _ => none
  | .markAsPaidWithTransaction order transaction =>
    match db.account.orders.find? order, cleanMarkOrderAsPaid db order with
    | some o, .ok () =>
      (db.transactions.insert (markAsPaidTransaction transaction o)).map fun transactions =>
        .toUpdate { db with transactions := transactions } order
    | _, _ => none

/-- The end of an operation. -/
def finish (unit : ℕ) : Written → ChargeDb
  | .toUpdate db order => updateOrderChargeData unit order db
  | .confirmed db _ => db
  | .noOrder db => db

/-- The tables after an operation, which leaves them alone if it is refused. -/
def step (unit : ℕ) (db : ChargeDb) (op : ChargeOp) : ChargeDb :=
  match write unit db op with
  | some w => finish unit w
  | none => db

/-- The tables an operation leaves before the charge data are updated. -/
def Written.tables : Written → ChargeDb
  | .toUpdate db _ => db
  | .confirmed db _ => db
  | .noOrder db => db

@[simp] theorem tables_writtenFor (db : ChargeDb) (order : Option ℕ) :
    (writtenFor db order).tables = db := by
  cases order <;> rfl

/-- The order whose charge data an operation has written. -/
def Written.order : Written → Option ℕ
  | .toUpdate _ order => some order
  | .confirmed _ order => some order
  | .noOrder _ => none

@[simp] theorem order_writtenFor (db : ChargeDb) (order : Option ℕ) :
    (writtenFor db order).order = order := by
  cases order <;> rfl

/-! ### What the columns are for -/

/-- The columns of an order agree with its money, as their readers take them. -/
structure Agrees (db : ChargeDb) (order : Order) : Prop where
  total : order.totalChargedAmount = db.chargedFor order.pk
  fullyPaid : isFullyPaid order
    ↔ currentTotalGross order (db.grantedFor order.pk) ≤ order.totalChargedAmount
  unpaid : isUnpaid order → order.totalChargedAmount = 0

/-- The order with this key, if it is there, agrees. -/
def AgreesAt (db : ChargeDb) (order : ℕ) : Prop :=
  ∀ o ∈ db.account.orders.find? order, Agrees db o

/-- **The condition** on the order whose charge data are written. When they are recomputed, the
order is not covered, and if it is unconfirmed nothing is charged that only rounding hides. When
`OrderConfirm` writes them, nothing but its last payment had been charged before, and the net total
covers it. -/
def SoundFor (unit : ℕ) (before : ChargeDb) : Written → Prop
  | .toUpdate db order => ∀ o ∈ db.account.orders.find? order,
      db.chargedFor order < currentTotalGross o (db.grantedFor order) ∧
        (o.status = .unconfirmed → quantize unit (db.chargedFor order) ≤ 0 →
          quantize unit (db.chargedFor order)
              ≠ quantize unit (currentTotalGross o (db.grantedFor order)) →
            db.chargedFor order = 0)
  | .confirmed _ order => ∀ o ∈ before.account.orders.find? order,
      ∀ p ∈ getLastPayment before.account.payments order,
        before.chargedFor order = p.capturedAmount ∧
          currentTotalGross o (before.grantedFor order) ≤ o.totalNetAmount
  | .noOrder _ => True

/-- An operation that is not refused meets it. -/
def Sound (unit : ℕ) (db : ChargeDb) (op : ChargeOp) : Prop :=
  ∀ w ∈ write unit db op, SoundFor unit db w

instance (unit : ℕ) (before : ChargeDb) : ∀ w, Decidable (SoundFor unit before w)
  | .toUpdate db order => inferInstanceAs (Decidable (∀ o ∈ db.account.orders.find? order, _))
  | .confirmed _ order => inferInstanceAs (Decidable (∀ o ∈ before.account.orders.find? order, _))
  | .noOrder _ => inferInstanceAs (Decidable True)

instance (unit : ℕ) (db : ChargeDb) (op : ChargeOp) : Decidable (Sound unit db op) :=
  inferInstanceAs (Decidable (∀ w ∈ write unit db op, SoundFor unit db w))

/-! ### What an operation leaves alone -/

section Frame

variable {unit : ℕ} {db db' : ChargeDb} {order : ℕ}

/-- The order with this key, and its money, are the same. -/
structure SameFor (order : ℕ) (db db' : ChargeDb) : Prop where
  row : db'.account.orders.find? order = db.account.orders.find? order
  captured : db'.capturedFor order = db.capturedFor order
  charged : db'.chargedValueFor order = db.chargedValueFor order
  granted : db'.grantedFor order = db.grantedFor order

theorem SameFor.chargedFor (h : SameFor order db db') :
    db'.chargedFor order = db.chargedFor order := by
  rw [ChargeDb.chargedFor, ChargeDb.chargedFor, h.captured, h.charged]

theorem AgreesAt.of_same (h : SameFor order db db') (hdb : AgreesAt db order) :
    AgreesAt db' order := by
  intro o ho
  rw [h.row] at ho
  obtain ⟨-, rfl⟩ := Table.find?_eq_some.mp ho
  obtain ⟨htotal, hpaid, hunpaid⟩ := hdb o ho
  rw [pk_order] at h
  exact ⟨by rw [h.chargedFor, htotal], by rw [h.granted, hpaid], hunpaid⟩

/-- Saving a row moves the sum of its own order only. -/
theorem sum_save_of_ne {ρ : Type} [HasPk ρ ℕ] (t : Table ρ) {r s : ρ} (hs : s ∈ t)
    (hpk : HasPk.pk r = HasPk.pk s) {p : ρ → Prop} [DecidablePred p] (hr : ¬ p r) (hs' : ¬ p s)
    (g : ρ → Amount) :
    ((t.save r).rows.map fun x => if p x then g x else 0).sum
      = (t.rows.map fun x => if p x then g x else 0).sum := by
  rw [Table.sum_save t hs hpk.symm fun x => if p x then g x else 0]
  simp [hr, hs']

theorem sum_insert_of_ne {ρ : Type} [HasPk ρ ℕ] {t u : Table ρ} {r : ρ} (h : t.insert r = some u)
    {p : ρ → Prop} [DecidablePred p] (hr : ¬ p r) (g : ρ → Amount) :
    (u.rows.map fun x => if p x then g x else 0).sum
      = (t.rows.map fun x => if p x then g x else 0).sum := by
  rw [(Table.insert_eq_some h).1, List.map_append, List.sum_append, List.map_singleton,
    List.sum_singleton, if_neg hr, add_zero]

theorem sameFor_updateOrderChargeData {k : ℕ} (h : k ≠ order) :
    SameFor order db (updateOrderChargeData unit k db) := by
  refine ⟨?_, rfl, rfl, rfl⟩
  exact (Table.find?_modify _ _ _ _ (pk_chargeUpdated unit db)).trans (if_neg h.symm)

theorem SameFor.trans {db'' : ChargeDb} (h : SameFor order db db') (h' : SameFor order db' db'') :
    SameFor order db db'' :=
  ⟨h'.row.trans h.row, h'.captured.trans h.captured, h'.charged.trans h.charged,
    h'.granted.trans h.granted⟩

theorem sameFor_savePayment {payment : Payment} {saved : Payment × Bool}
    (hpayment : payment ∈ db.account.payments) (hpk : saved.1.pk = payment.pk)
    (horder : saved.1.order = payment.order)
    (hcaptured : saved.2 = false → saved.1.capturedAmount = payment.capturedAmount)
    (hne : (savePayment db saved).order ≠ some order) :
    SameFor order db (savePayment db saved).tables := by
  have htables : (savePayment db saved).tables = paymentSaved db saved.1 := by
    rw [savePayment]
    split
    · exact tables_writtenFor _ _
    · rfl
  rw [htables]
  refine ⟨rfl, ?_, rfl, rfl⟩
  by_cases hother : payment.order = some order
  swap
  · exact sum_save_of_ne _ hpayment hpk (by rw [horder]; exact hother) hother _
  -- the captured amount is what it was, or the order would be updated
  rw [savePayment] at hne
  split at hne
  · exact absurd ((order_writtenFor _ _).trans (horder.trans hother)) hne
  · rename_i hsame
    have hsum := Table.sum_save db.account.payments hpayment hpk.symm
      fun p => if p.order = some order then p.capturedAmount else 0
    rw [horder, hcaptured (by simpa using hsame), sub_self, add_zero] at hsum
    exact hsum

/-- A gateway's answer changes what is captured only if it says so, and never the order. -/
theorem postprocessed_keeps (payment : Payment) (txn : GatewayTransaction) :
    (postprocessed payment txn).1.pk = payment.pk ∧
      (postprocessed payment txn).1.order = payment.order ∧
      ((postprocessed payment txn).2 = false →
        (postprocessed payment txn).1.capturedAmount = payment.capturedAmount) := by
  rw [postprocessed]
  split
  · exact ⟨rfl, rfl, fun _ => rfl⟩
  split
  · exact ⟨rfl, rfl, fun _ => rfl⟩
  rw [updatePaymentChargeStatus]
  split
  case h_4 =>
    -- a refund
    rw [captureRefunded]
    split
    · exact ⟨rfl, rfl, fun h => by cases h⟩
    · exact ⟨rfl, rfl, fun h => by cases h⟩
  case h_7 =>
    split
    · exact ⟨rfl, rfl, fun h => by cases h⟩
    · exact ⟨rfl, rfl, fun _ => rfl⟩
  all_goals
    refine ⟨rfl, rfl, ?_⟩
    first
    | exact fun _ => rfl
    | exact fun h => by cases h

/-- A capture that is not refused saves what the gateway's answer makes of the payment. -/
theorem capture_eq_ok {payment : ℕ} {amount : Option ℚ} {response : Option GatewayTransaction}
    {w : Written} (h : capture payment amount response db = .ok w) :
    ∃ p txn, p ∈ db.account.payments ∧ w = savePayment db (postprocessed p txn) := by
  rw [capture] at h
  rcases hp : db.account.payments.find? payment with _ | p
  · rw [hp] at h
    cases h
  simp only [hp] at h
  split at h
  · cases h
  split at h
  · cases h
  split at h
  · cases h
  split at h
  · cases h
  rename_i txn _
  exact ⟨p, txn, (Table.find?_eq_some.mp hp).1, (Except.ok.inj h).symm⟩

/-- A refund that is not refused leaves the orders and the other payments alone. -/
theorem refund_eq_ok {now : Time} {payment : ℕ} {amount : Option ℚ} {customerId : Option ℕ}
    {w : Written} (h : refund now payment amount customerId db = .ok w) :
    ∃ p p' account, p ∈ db.account.payments ∧ p'.pk = p.pk ∧ p'.order = p.order ∧
      account.orders = db.account.orders ∧ account.payments = db.account.payments.save p' ∧
      w = writtenFor { db with account := account } p.order := by
  rw [refund] at h
  rcases exec_refund_cases now payment amount customerId db.account with
    ⟨e, he⟩ | ⟨p, a, db', txn, hp, -, -, -, -, hmoves, hexec⟩
  · rw [he] at h
    cases h
  rw [hexec] at h
  have hw := (Except.ok.inj h).symm
  rw [hp, Option.bind_some] at hw
  have hpk : (captureRefunded { p with toConfirm := false } a).pk = p.pk := by
    rw [captureRefunded]
    split <;> rfl
  have horder : (captureRefunded { p with toConfirm := false } a).order = p.order := by
    rw [captureRefunded]
    split <;> rfl
  refine ⟨p, _, _, (Table.find?_eq_some.mp hp).1, hpk, horder, ?_, ?_, hw⟩
  · rcases hmoves with ⟨-, rfl⟩ | ⟨-, user, -, -, rfl⟩ <;> rfl
  · rcases hmoves with ⟨-, rfl⟩ | ⟨-, user, -, -, rfl⟩ <;> rfl

/-- Confirming an order touches the order and its payment. -/
theorem orderConfirm_eq_success {now : Time} {user : Option ℕ} {id : ℕ} {account : Db}
    (h : orderConfirm unit now user id db.account = (account, .success)) :
    ∃ u o p, o ∈ db.account.orders ∧ o.pk = id ∧
      getLastPayment db.account.payments id = some p ∧
      account = OrderConfirm.paid unit now u o p db.account := by
  rcases orderConfirm_cases unit now user id db.account with
    ⟨-, hnot⟩ | ⟨u, o, p, -, -, hget, hp, -, hpaid⟩
  · exact absurd (congrArg Prod.snd h) hnot
  · obtain ⟨hfind, -, -⟩ := getInstance_eq_ok hget
    obtain ⟨ho, rfl⟩ := Table.find?_eq_some.mp hfind
    rw [hpaid] at h
    exact ⟨u, o, p, ho, rfl, hp, (Prod.mk.inj h).1.symm⟩

/-- The row of the order that was confirmed. -/
def confirmedRow (o : Order) : Order :=
  { o with
    status := .unfulfilled
    chargeStatus := .ofPayment .fullyCharged
    totalChargedAmount := o.totalNetAmount }

theorem find?_paid {now : Time} {u : User} {o : Order} {p : Payment} {account : Db}
    (ho : o ∈ account.orders) (k : ℕ) :
    (OrderConfirm.paid unit now u o p account).orders.find? k
      = if k = o.pk then some (confirmedRow o) else account.orders.find? k := by
  have hfind : account.orders.find? o.pk = some o := Table.mem_iff_find?.mp ho
  rw [OrderConfirm.find?_orders_paid]
  by_cases hk : k = o.pk
  · rw [if_pos hk, if_pos hk, hk, hfind]
    rfl
  · rw [if_neg hk, if_neg hk]

/-- What confirming does to the payments of an order. -/
theorem capturedFor_paid (now : Time) (u : User) {o : Order} {p : Payment}
    (hp : getLastPayment db.account.payments o.pk = some p) (k : ℕ) :
    ({ db with account := OrderConfirm.paid unit now u o p db.account } : ChargeDb).capturedFor k
      = db.capturedFor k + if k = o.pk then o.totalNetAmount - p.capturedAmount else 0 := by
  obtain ⟨hmem, horder⟩ := getLastPayment_mem hp
  have hsum := Table.sum_modify db.account.payments hmem
    (fun p => { p with chargeStatus := .fullyCharged, capturedAmount := o.totalNetAmount })
    (fun _ => rfl) fun p => if p.order = some k then p.capturedAmount else 0
  refine hsum.trans ?_
  rw [ChargeDb.capturedFor]
  by_cases hk : k = o.pk
  · simp [horder, hk]
  · have hk' : ¬ o.pk = k := fun h => hk h.symm
    simp [horder, hk, hk']

/-- **The frame of an operation**: the orders whose charge data it does not write. -/
theorem sameFor_finish {op : ChargeOp} {w : Written} (h : write unit db op = some w)
    (hne : w.order ≠ some order) : SameFor order db (finish unit w) := by
  have hfinish (hsame : SameFor order db w.tables) : SameFor order db (finish unit w) := by
    cases w with
    | toUpdate db' k =>
      exact hsame.trans (sameFor_updateOrderChargeData fun hk => hne (congrArg some hk))
    | confirmed db' k => exact hsame
    | noOrder db' => exact hsame
  refine hfinish ?_
  cases op with
  | confirm now user id =>
    rw [write] at h
    split at h
    swap
    · cases h
    rename_i account hconfirm
    obtain rfl := Option.some.inj h
    obtain ⟨u, o, p, ho, rfl, hp, rfl⟩ := orderConfirm_eq_success hconfirm
    have hk : order ≠ o.pk := fun hk => hne (congrArg some hk.symm)
    refine ⟨?_, ?_, rfl, rfl⟩
    · exact (find?_paid ho order).trans (if_neg hk)
    · exact (capturedFor_paid now u hp order).trans (by rw [if_neg hk, add_zero])
  | capture payment amount response =>
    rw [write] at h
    rcases hcapture : capture payment amount response db with e | w'
    · rw [hcapture] at h
      cases h
    · rw [hcapture] at h
      obtain rfl := Option.some.inj h
      obtain ⟨p, txn, hp, rfl⟩ := capture_eq_ok hcapture
      obtain ⟨hpk, horder, hcaptured⟩ := postprocessed_keeps p txn
      exact sameFor_savePayment hp hpk horder hcaptured hne
  | refund now payment amount customerId =>
    rw [write] at h
    rcases hrefund : refund now payment amount customerId db with e | w'
    · rw [hrefund] at h
      cases h
    · rw [hrefund] at h
      obtain rfl := Option.some.inj h
      obtain ⟨p, p', account, hp, hpk, horder, horders, hpayments, rfl⟩ := refund_eq_ok hrefund
      rw [order_writtenFor] at hne
      rw [tables_writtenFor]
      refine ⟨congrArg (·.find? order) horders, ?_, rfl, rfl⟩
      rw [ChargeDb.capturedFor, hpayments]
      exact sum_save_of_ne _ hp hpk (by rw [horder]; exact hne) hne _
  | createTransaction transaction =>
    obtain ⟨transactions, hinsert, rfl⟩ := Option.map_eq_some_iff.mp h
    rw [order_writtenFor] at hne
    rw [tables_writtenFor]
    exact ⟨rfl, rfl, sum_insert_of_ne hinsert hne _, rfl⟩
  | updateTransaction transaction chargedValue =>
    obtain ⟨t, ht, rfl⟩ := Option.map_eq_some_iff.mp h
    rw [order_writtenFor] at hne
    rw [tables_writtenFor]
    have hpk : HasPk.pk { t with chargedValue := chargedValue } = HasPk.pk t := rfl
    refine ⟨rfl, rfl, ?_, rfl⟩
    exact sum_save_of_ne _ (Table.find?_eq_some.mp ht).1 hpk hne hne _
  | createGrantedRefund grantedRefund =>
    obtain ⟨grantedRefunds, hinsert, rfl⟩ := Option.map_eq_some_iff.mp h
    have hne' : ¬ grantedRefund.order = order := fun hk => hne (congrArg some hk)
    exact ⟨rfl, rfl, rfl, sum_insert_of_ne hinsert hne' _⟩
  | updateGrantedRefund grantedRefund amountValue =>
    obtain ⟨r, hr, rfl⟩ := Option.map_eq_some_iff.mp h
    have hne' : ¬ r.order = order := fun hk => hne (congrArg some hk)
    have hpk : HasPk.pk { r with amountValue := amountValue } = HasPk.pk r := rfl
    refine ⟨rfl, rfl, rfl, ?_⟩
    exact sum_save_of_ne _ (Table.find?_eq_some.mp hr).1 hpk hne' hne' _
  | markAsPaidWithPayment k payment =>
    rw [write] at h
    split at h
    swap
    · cases h
    rename_i o ho hclean
    obtain ⟨payments, hinsert, rfl⟩ := Option.map_eq_some_iff.mp h
    obtain ⟨-, rfl⟩ := Table.find?_eq_some.mp ho
    exact ⟨rfl, sum_insert_of_ne hinsert hne _, rfl, rfl⟩
  | markAsPaidWithTransaction k transaction =>
    rw [write] at h
    split at h
    swap
    · cases h
    rename_i o ho hclean
    obtain ⟨transactions, hinsert, rfl⟩ := Option.map_eq_some_iff.mp h
    obtain ⟨-, rfl⟩ := Table.find?_eq_some.mp ho
    exact ⟨rfl, rfl, sum_insert_of_ne hinsert hne _, rfl⟩

end Frame

/-! ### Agreement -/

section Agreement

variable {unit : ℕ} {db : ChargeDb}

/-- A row whose charge data were recomputed agrees exactly under the condition. -/
theorem agrees_chargeUpdated_iff (o : Order) :
    Agrees (updateOrderChargeData unit o.pk db) (chargeUpdated unit db o) ↔
      db.chargedFor o.pk < currentTotalGross o (db.grantedFor o.pk) ∧
        (o.status = .unconfirmed → quantize unit (db.chargedFor o.pk) ≤ 0 →
          quantize unit (db.chargedFor o.pk)
              ≠ quantize unit (currentTotalGross o (db.grantedFor o.pk)) →
            db.chargedFor o.pk = 0) := by
  have htotal : (chargeUpdated unit db o).totalChargedAmount = db.chargedFor o.pk := rfl
  have hpk : (chargeUpdated unit db o).pk = o.pk := rfl
  have hgross : currentTotalGross (chargeUpdated unit db o) (db.grantedFor o.pk)
      = currentTotalGross o (db.grantedFor o.pk) := rfl
  have hstatus : (chargeUpdated unit db o).status = o.status := rfl
  set charged := quantize unit (db.chargedFor o.pk)
  set due := quantize unit (currentTotalGross o (db.grantedFor o.pk))
  have hword : (chargeUpdated unit db o).chargeStatus
      = if charged = due then .full else if charged ≤ 0 then .none
        else if charged < due then .partly else .overcharged := rfl
  -- the word of a payment is never written
  have hpaid : isFullyPaid (chargeUpdated unit db o) = false := by
    rw [isFullyPaid, hword]
    split_ifs <;> rfl
  have hunpaid : isUnpaid (chargeUpdated unit db o)
      ↔ o.status = .unconfirmed ∧ charged ≤ 0 ∧ charged ≠ due := by
    rw [isUnpaid, hword, hstatus]
    split_ifs with hfull hnone hpartly
    · simp [hfull]
    · simp [hfull, hnone]
    · simp [hnone]
    · simp [hnone]
  constructor
  · rintro ⟨-, hcovered, hnothing⟩
    refine ⟨?_, fun h h' h'' => hnothing (hunpaid.mpr ⟨h, h', h''⟩)⟩
    by_contra hge
    have htrue := hcovered.mpr (not_lt.mp hge)
    rw [hpaid] at htrue
    cases htrue
  · rintro ⟨hlt, hnothing⟩
    refine ⟨htotal, ⟨fun htrue => ?_, fun hge => absurd hge (not_le.mpr hlt)⟩, fun h => ?_⟩
    · rw [hpaid] at htrue
      cases htrue
    · obtain ⟨h, h', h''⟩ := hunpaid.mp h
      exact hnothing h h' h''

/-- The order that was confirmed agrees exactly under the condition. -/
theorem agrees_confirmedRow_iff (now : Time) (u : User) {o : Order} {p : Payment}
    (hp : getLastPayment db.account.payments o.pk = some p) :
    Agrees { db with account := OrderConfirm.paid unit now u o p db.account } (confirmedRow o) ↔
      db.chargedFor o.pk = p.capturedAmount ∧
        currentTotalGross o (db.grantedFor o.pk) ≤ o.totalNetAmount := by
  have hcharged : ({ db with account := OrderConfirm.paid unit now u o p db.account } :
      ChargeDb).chargedFor o.pk
        = db.chargedFor o.pk + (o.totalNetAmount - p.capturedAmount) := by
    rw [ChargeDb.chargedFor, capturedFor_paid now u hp, if_pos rfl, ChargeDb.chargedFor,
      ChargeDb.chargedValueFor, ChargeDb.chargedValueFor]
    exact add_right_comm _ _ _
  have hpaid : isFullyPaid (confirmedRow o) = true := rfl
  have hunpaid : isUnpaid (confirmedRow o) = false := rfl
  have hgross : currentTotalGross (confirmedRow o) (db.grantedFor o.pk)
      = currentTotalGross o (db.grantedFor o.pk) := rfl
  constructor
  · rintro ⟨htotal, hcovered, -⟩
    refine ⟨?_, hcovered.mp hpaid⟩
    have htotal' : o.totalNetAmount = db.chargedFor o.pk + (o.totalNetAmount - p.capturedAmount) :=
      htotal.trans hcharged
    linarith
  · rintro ⟨hbefore, hle⟩
    refine ⟨?_, iff_of_true hpaid hle, fun h => ?_⟩
    · have htotal : o.totalNetAmount
          = db.chargedFor o.pk + (o.totalNetAmount - p.capturedAmount) := by linarith
      exact htotal.trans hcharged.symm
    · rw [hunpaid] at h
      cases h

/-- Only `OrderConfirm` writes the charge data by itself. -/
theorem written_confirmed {op : ChargeOp} {db' : ChargeDb} {order : ℕ}
    (h : write unit db op = some (.confirmed db' order)) :
    ∃ now u o p, o ∈ db.account.orders ∧ o.pk = order ∧
      getLastPayment db.account.payments order = some p ∧
      db' = { db with account := OrderConfirm.paid unit now u o p db.account } := by
  have hnot (db'' : ChargeDb) (k : Option ℕ) : writtenFor db'' k ≠ .confirmed db' order := by
    cases k <;> exact nofun
  cases op with
  | confirm now user id =>
    rw [write] at h
    split at h
    swap
    · cases h
    rename_i account hconfirm
    obtain ⟨rfl, rfl⟩ := Written.confirmed.inj (Option.some.inj h)
    obtain ⟨u, o, p, ho, hpk, hp, rfl⟩ := orderConfirm_eq_success hconfirm
    exact ⟨now, u, o, p, ho, hpk, hp, rfl⟩
  | capture payment amount response =>
    rw [write] at h
    rcases hcapture : capture payment amount response db with e | w
    · rw [hcapture] at h
      cases h
    · rw [hcapture] at h
      obtain ⟨p, txn, -, rfl⟩ := capture_eq_ok hcapture
      have hw := Option.some.inj h
      rw [savePayment] at hw
      split at hw
      · exact absurd hw (hnot _ _)
      · cases hw
  | refund now payment amount customerId =>
    rw [write] at h
    rcases hrefund : refund now payment amount customerId db with e | w
    · rw [hrefund] at h
      cases h
    · rw [hrefund] at h
      obtain ⟨p, p', account, -, -, -, -, -, rfl⟩ := refund_eq_ok hrefund
      exact absurd (Option.some.inj h) (hnot _ _)
  | createTransaction transaction =>
    obtain ⟨transactions, -, hw⟩ := Option.map_eq_some_iff.mp h
    exact absurd hw (hnot _ _)
  | updateTransaction transaction chargedValue =>
    obtain ⟨t, -, hw⟩ := Option.map_eq_some_iff.mp h
    exact absurd hw (hnot _ _)
  | createGrantedRefund grantedRefund =>
    obtain ⟨grantedRefunds, -, hw⟩ := Option.map_eq_some_iff.mp h
    cases hw
  | updateGrantedRefund grantedRefund amountValue =>
    obtain ⟨r, -, hw⟩ := Option.map_eq_some_iff.mp h
    cases hw
  | markAsPaidWithPayment k payment =>
    rw [write] at h
    split at h
    · obtain ⟨payments, -, hw⟩ := Option.map_eq_some_iff.mp h
      cases hw
    · cases h
  | markAsPaidWithTransaction k transaction =>
    rw [write] at h
    split at h
    · obtain ⟨transactions, -, hw⟩ := Option.map_eq_some_iff.mp h
      cases hw
    · cases h

/-- **One operation** leaves the order whose charge data it writes in agreement exactly under the
condition. -/
theorem agreesAt_finish_iff {op : ChargeOp} {w : Written} (h : write unit db op = some w) {k : ℕ}
    (hk : w.order = some k) : AgreesAt (finish unit w) k ↔ SoundFor unit db w := by
  cases w with
  | toUpdate db' order =>
    obtain rfl := Option.some.inj hk
    have hfind : (updateOrderChargeData unit order db').account.orders.find? order
        = (db'.account.orders.find? order).map (chargeUpdated unit db') :=
      (Table.find?_modify _ _ _ _ (pk_chargeUpdated unit db')).trans (if_pos rfl)
    constructor
    · intro hagrees o ho
      obtain ⟨-, rfl⟩ := Table.find?_eq_some.mp ho
      exact (agrees_chargeUpdated_iff o).mp (hagrees _ (by rw [finish, hfind, ho]; rfl))
    · intro hsound o' ho'
      rw [finish, hfind] at ho'
      obtain ⟨o, ho, rfl⟩ := Option.map_eq_some_iff.mp ho'
      obtain ⟨-, rfl⟩ := Table.find?_eq_some.mp ho
      exact (agrees_chargeUpdated_iff o).mpr (hsound o ho)
  | confirmed db' order =>
    obtain rfl := Option.some.inj hk
    obtain ⟨now, u, o, p, ho, rfl, hp, rfl⟩ : ∃ now u o p, o ∈ db.account.orders ∧ o.pk = order ∧
        getLastPayment db.account.payments order = some p ∧
        db' = { db with account := OrderConfirm.paid unit now u o p db.account } :=
      written_confirmed h
    have hfind : db.account.orders.find? o.pk = some o := Table.mem_iff_find?.mp ho
    have hrow : (OrderConfirm.paid unit now u o p db.account).orders.find? o.pk
        = some (confirmedRow o) := (find?_paid ho o.pk).trans (if_pos rfl)
    constructor
    · intro hagrees o' ho' p' hp'
      obtain rfl := Option.some.inj (hfind.symm.trans ho')
      obtain rfl := Option.some.inj (hp.symm.trans hp')
      exact (agrees_confirmedRow_iff now u hp).mp (hagrees _ hrow)
    · intro hsound o' ho'
      obtain rfl := Option.some.inj (hrow.symm.trans ho')
      exact (agrees_confirmedRow_iff now u hp).mpr (hsound o hfind p hp)
  | noOrder db' => cases hk

/-- An operation that meets the condition keeps what agrees, and makes agree what it writes. -/
theorem agreesAt_step {op : ChargeOp} (hsound : Sound unit db op) {k : ℕ}
    (h : AgreesAt db k ∨ ∃ w ∈ write unit db op, w.order = some k) :
    AgreesAt (step unit db op) k := by
  rw [step]
  rcases hw : write unit db op with _ | w
  · refine h.resolve_right ?_
    rintro ⟨w, hw', -⟩
    rw [hw] at hw'
    cases hw'
  dsimp only
  by_cases hk : w.order = some k
  · exact (agreesAt_finish_iff hw hk).mpr (hsound w hw)
  · refine AgreesAt.of_same (sameFor_finish hw hk) (h.resolve_right ?_)
    rintro ⟨w', hw', hk'⟩
    obtain rfl := Option.some.inj (hw.symm.trans hw')
    exact hk hk'

end Agreement

/-! ### Runs -/

variable {unit : ℕ}

/-- Some operation of the run has written the charge data of the order. -/
def WrittenIn (unit : ℕ) (order : ℕ) : ChargeDb → List ChargeOp → Prop
  | _, [] => False
  | db, op :: ops =>
    (∃ w ∈ write unit db op, w.order = some order) ∨ WrittenIn unit order (step unit db op) ops

theorem agreesAt_run {db : ChargeDb} {ops : List ChargeOp}
    (hsound : Runs.EachStep (step unit) (Sound unit) db ops) {k : ℕ}
    (h : AgreesAt db k ∨ WrittenIn unit k db ops) : AgreesAt (Runs.run (step unit) db ops) k := by
  induction ops generalizing db with
  | nil => exact h.resolve_right id
  | cons op ops ih =>
    obtain ⟨hop, hops⟩ := (Runs.eachStep_cons ..).mp hsound
    refine ih hops ?_
    rcases h with hdb | hwritten | hlater
    · exact Or.inl (agreesAt_step hop (Or.inl hdb))
    · exact Or.inl (agreesAt_step hop (Or.inr hwritten))
    · exact Or.inr hlater

/-- **The columns agree with the money** in every state that a run of sound operations reaches:
those of every order whose charge data have been written so far, or that agreed at the start. -/
theorem agrees_reached {db : ChargeDb} {ops : List ChargeOp}
    (hsound : Runs.EachStep (step unit) (Sound unit) db ops) :
    ∀ ops' rest, ops = ops' ++ rest → ∀ k, AgreesAt db k ∨ WrittenIn unit k db ops' →
      AgreesAt (Runs.run (step unit) db ops') k := by
  rintro ops' rest rfl k h
  exact agreesAt_run ((Runs.eachStep_append ..).mp hsound).1 h

/-- An unconfirmed order of 60 without taxes, its payment, and its owner with a balance of 100. -/
def unpaidOrderDb (payments : Table Payment) : ChargeDb :=
  let user : User :=
    { pk := 1, email := "a@sjtu.edu.cn", balance := 100000, code := "517", lastLogin := 0 }
  let order : Order :=
    { pk := 3, user := some 1, status := .unconfirmed, totalNetAmount := 60000
      totalGrossAmount := 60000
      lines := [{ pk := 4, quantity := 1, unitPriceGrossAmount := 60000 }] }
  { account :=
      { users := Table.singleton user
        donations := Table.empty
        orders := Table.singleton order
        payments := payments }
    transactions := Table.empty
    grantedRefunds := Table.empty }

/-- The payment of the order. -/
def unpaidOrderPayments : Table Payment :=
  Table.singleton
    { pk := 5, order := some 3, gateway := "aixinwu.payments.balance", total := 60000 }

/-- The order is confirmed, and a third of it is refunded. -/
theorem agrees_reached_unpaidOrderDb :
    AgreesAt (Runs.run (step 10) (unpaidOrderDb unpaidOrderPayments)
      [.confirm 5 (some 1) 3, .refund 6 5 (some 20000) (some 1)]) 3 := by
  have hsound : Runs.EachStep (step 10) (Sound 10) (unpaidOrderDb unpaidOrderPayments)
      [.confirm 5 (some 1) 3, .refund 6 5 (some 20000) (some 1)] := by
    refine (Runs.eachStep_cons ..).mpr ⟨?_, (Runs.eachStep_cons ..).mpr ⟨?_, trivial⟩⟩
    · decide +kernel
    · decide +kernel
  exact agrees_reached hsound _ [] (List.append_nil _).symm 3 (Or.inr (Or.inl ⟨_, rfl, rfl⟩))

/-- The order is marked as paid: all of it is charged, and it is not fully paid. -/
theorem not_agrees_reached :
    ¬ ∀ (unit : ℕ) (db : ChargeDb) (ops : List ChargeOp) (k : ℕ), WrittenIn unit k db ops →
      AgreesAt (Runs.run (step unit) db ops) k := by
  intro h
  have hagrees := h 10 (unpaidOrderDb Table.empty) [.markAsPaidWithPayment 3 5] 3
    (Or.inl ⟨_, rfl, rfl⟩) _ rfl
  exact absurd hagrees.fullyPaid (by decide +kernel)

end Charges

end Aixinwu
