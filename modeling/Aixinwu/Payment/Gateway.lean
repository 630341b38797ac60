import Aixinwu.Payment.BalanceGateway

/-!
# Refunding a payment

`refund` of `saleor/payment/gateway.py` under its decorators. The payment is read again and locked
in a transaction, the amount is checked against what is captured, the plugin of the payment's
gateway moves the money, and what is captured is reduced; all of that is undone by an exception. A
plugin that fails with a `PaymentError` leaves an unsuccessful transaction instead, which becomes a
`PaymentError` after the commit.

The account that is credited is only passed on: `customerId` goes from the caller through
`create_payment_information` to the plugin, and nothing compares it with the order.

The balance plugin is the payment plugin the settings install; any other gateway is inaccessible.
The rows that log transactions, and their tokens, are left out.

## Main definitions

* `validateRefundAmount`, `createPaymentInformation`, `fetchGatewayResponse`
* `captureRefunded` — what postprocessing makes of the payment
* `refund`

## Main results

* `exec_refund_cases` — a refund raises and changes nothing, or moves money
-/

namespace Aixinwu

open Account

namespace Payments

/-- `BalanceGatewayPlugin.PLUGIN_ID`. -/
def balancePluginId : String := "aixinwu.payments.balance"

/-- `ERROR_MSG`. -/
def errorMsg : String := "Oops! Something went wrong."

/-- `GENERIC_TRANSACTION_ERROR`. -/
def genericTransactionError : String := "Transaction was unsuccessful."

/-- `payment.models.Transaction`, of a refund: what the code around it reads. -/
structure Transaction where
  isSuccess : Bool
  actionRequired : Bool
  amount : ℚ
  error : Option String
deriving DecidableEq, Repr

/-- `_validate_refund_amount`. -/
def validateRefundAmount (payment : Payment) (amount : ℚ) : Except PaymentException Unit :=
  if amount ≤ 0 then .error (.paymentError "Amount should be a positive number.")
  else if amount > payment.capturedAmount then
    .error (.paymentError "Cannot refund more than captured.")
  else .ok ()

/-- `create_payment_information`; an amount of zero counts as none. -/
def createPaymentInformation (payment : Payment) (amount : Option ℚ) (customerId : Option ℕ) :
    PaymentData where
  gateway := payment.gateway
  amount := if amount.getD 0 = 0 then payment.total else amount.getD 0
  customerId := customerId

/-- `PluginsManager.refund_payment`. -/
def managerRefundPayment (now : Time) (gateway : String) (data : PaymentData) :
    PaymentAction GatewayResponse :=
  if gateway = balancePluginId then refundPayment now data else throw (.other "Exception")

/-- `_fetch_gateway_response`: a `PaymentError` is an error text, anything else goes on. -/
def fetchGatewayResponse (fn : PaymentAction GatewayResponse) :
    PaymentAction (Option GatewayResponse × Option String) :=
  tryCatch (fn >>= fun response => pure (some response, none)) fun e =>
    match e with
    | .paymentError _ => pure (none, some errorMsg)
    | e => throw e

/-- `create_transaction`. -/
def createTransaction (data : PaymentData) (response : Option GatewayResponse)
    (error : Option String) (isSuccess : Bool) : Transaction :=
  match response with
  | some r =>
    { isSuccess := r.isSuccess, actionRequired := false, amount := r.amount, error := r.error }
  | none => { isSuccess, actionRequired := false, amount := data.amount, error }

/-- `gateway.refund` without its decorators, of the payment that was read under the lock. -/
def refundTransaction (now : Time) (payment : Payment) (amount : Option ℚ)
    (customerId : Option ℕ) : PaymentAction Transaction :=
  let amount := amount.getD payment.capturedAmount
  match validateRefundAmount payment amount with
  | .error e => throw e
  | .ok () =>
    if ¬ payment.canRefund then throw (.paymentError "This payment cannot be refunded.")
    else
      let data := createPaymentInformation payment (some amount) customerId
      if payment.isManual then
        -- a manual payment is only marked as refunded
        pure (createTransaction data none none true)
      else
        fetchGatewayResponse (managerRefundPayment now payment.gateway data) >>= fun r =>
          pure (createTransaction data r.1 r.2 false)

/-- `update_payment_charge_status`, of a refund. -/
def captureRefunded (payment : Payment) (amount : ℚ) : Payment :=
  let capturedAmount : ℚ := payment.capturedAmount - amount
  if capturedAmount ≤ 0 then
    { payment with capturedAmount := 0, chargeStatus := .fullyRefunded, isActive := false }
  else
    { payment with capturedAmount := toColumn capturedAmount, chargeStatus := .partiallyRefunded }

/-- `gateway_postprocess`. -/
def gatewayPostprocess (txn : Transaction) (payment : Payment) : Payment :=
  if ¬ txn.isSuccess then payment
  else if txn.actionRequired then { payment with toConfirm := true }
  else captureRefunded { payment with toConfirm := false } txn.amount

/-- `gateway.refund`, of the payment with the given key. -/
def refund (now : Time) (payment : ℕ) (amount : Option ℚ) (customerId : Option ℕ) :
    PaymentAction Transaction :=
  Action.atomic
    (get >>= fun db =>
      match db.payments.find? payment with
      | none => throw .doesNotExist
      | some payment =>
        refundTransaction now payment amount customerId >>= fun txn =>
          modify (fun db => { db with payments := db.payments.save (gatewayPostprocess txn payment) })
            >>= fun _ => pure txn)
  >>= fun txn =>
    if txn.isSuccess then pure txn
    else
      throw (.paymentError
        (if txn.error.getD "" = "" then genericTransactionError else txn.error.getD ""))

section Specs

variable {now : Time} {db : Db} {p : Payment} {amount : Option ℚ} {customerId : Option ℕ}

theorem validateRefundAmount_eq_ok {a : ℚ} :
    validateRefundAmount p a = .ok () ↔ 0 < a ∧ a ≤ p.capturedAmount := by
  rw [validateRefundAmount]
  by_cases hpos : a ≤ 0
  · simp [hpos, not_lt.mpr hpos]
  · by_cases hle : a > p.capturedAmount
    · simp [hpos, hle, not_le.mpr hle]
    · simp [hpos, hle, not_le.mp hpos, not_lt.mp hle]

/-- An amount that was checked is the amount the plugin gets. -/
theorem createPaymentInformation_amount {a : ℚ} (h : 0 < a) :
    (createPaymentInformation p (some a) customerId).amount = a := by
  rw [createPaymentInformation, Option.getD_some, if_neg h.ne']

/-- What a plugin that is reached does: it raises and changes nothing, or credits the customer. -/
theorem exec_fetchGatewayResponse_cases (now : Time) (gateway : String) (data : PaymentData)
    (db : Db) :
    (∃ e, (fetchGatewayResponse (managerRefundPayment now gateway data)).exec db = (.error e, db)) ∨
      gateway = balancePluginId ∧ ∃ user ∈ db.users, data.customerId = some user.pk ∧
        (fetchGatewayResponse (managerRefundPayment now gateway data)).exec db
          = (.ok (some { isSuccess := true, actionRequired := false, amount := data.amount,
                         error := none }, none),
            refundWrites now user data.amount db) := by
  rw [fetchGatewayResponse, managerRefundPayment]
  by_cases hgateway : gateway = balancePluginId
  · rw [if_pos hgateway]
    rcases huser : data.customerId.bind db.users.find? with _ | user
    · refine Or.inl ⟨.doesNotExist, ?_⟩
      rw [Action.exec_tryCatch,
        Action.exec_bind_of_error (exec_refundPayment_of_none huser)]
      rfl
    · obtain ⟨k, hk, hfind⟩ := Option.bind_eq_some_iff.mp huser
      obtain ⟨hmem, rfl⟩ := Table.find?_eq_some.mp hfind
      refine Or.inr ⟨hgateway, user, hmem, hk, ?_⟩
      rw [Action.exec_tryCatch, Action.exec_bind_of_ok (exec_refundPayment_of_some huser)]
      rfl
  · rw [if_neg hgateway]
    exact Or.inl ⟨.other "Exception", rfl⟩

/-- What moving `a` from the payment to the customer does: the credit is that of the plugin, and a
manual payment has none. -/
def Moves (now : Time) (db : Db) (p : Payment) (a : ℚ) (customerId : Option ℕ) (db' : Db) : Prop :=
  (p.isManual ∧ db' = db) ∨
    p.gateway = balancePluginId ∧ ∃ user ∈ db.users, customerId = some user.pk ∧
      db' = refundWrites now user a db

theorem exec_refundTransaction_cases (now : Time) (p : Payment) (amount : Option ℚ)
    (customerId : Option ℕ) (db : Db) :
    (∃ e, (refundTransaction now p amount customerId).exec db = (.error e, db)) ∨
      ∃ a db' txn, amount.getD p.capturedAmount = a ∧ 0 < a ∧ a ≤ p.capturedAmount ∧ p.canRefund ∧
        Moves now db p a customerId db' ∧ txn.isSuccess = true ∧ txn.actionRequired = false ∧
          txn.amount = a ∧ (refundTransaction now p amount customerId).exec db = (.ok txn, db') := by
  rw [refundTransaction]
  rcases hvalid : validateRefundAmount p (amount.getD p.capturedAmount) with e | ⟨⟨⟩⟩
  · exact Or.inl ⟨e, rfl⟩
  obtain ⟨hpos, hle⟩ := validateRefundAmount_eq_ok.mp hvalid
  dsimp only
  by_cases hcan : p.canRefund
  swap
  · rw [if_pos hcan]
    exact Or.inl ⟨_, rfl⟩
  rw [if_neg (not_not.mpr hcan)]
  by_cases hmanual : p.isManual
  · rw [if_pos hmanual]
    have hamount : (createPaymentInformation p (some _) customerId).amount = _ :=
      createPaymentInformation_amount hpos
    exact Or.inr ⟨_, db, _, rfl, hpos, hle, hcan, Or.inl ⟨hmanual, rfl⟩, rfl, rfl, hamount, rfl⟩
  rw [if_neg hmanual]
  rcases exec_fetchGatewayResponse_cases now p.gateway
    (createPaymentInformation p (some (amount.getD p.capturedAmount)) customerId) db with
    ⟨e, he⟩ | ⟨hgateway, user, hmem, huser, hok⟩
  · exact Or.inl ⟨e, Action.exec_bind_of_error he⟩
  · rw [createPaymentInformation_amount hpos] at hok
    refine Or.inr ⟨_, _, _, rfl, hpos, hle, hcan, Or.inr ⟨hgateway, user, hmem, huser, rfl⟩,
      ?_, ?_, ?_, Action.exec_bind_of_ok hok⟩ <;> rfl

/-- **A refund** raises and changes nothing, or moves an amount that was captured. -/
theorem exec_refund_cases (now : Time) (k : ℕ) (amount : Option ℚ) (customerId : Option ℕ)
    (db : Db) :
    (∃ e, (refund now k amount customerId).exec db = (.error e, db)) ∨
      ∃ p a db' txn, db.payments.find? k = some p ∧ amount.getD p.capturedAmount = a ∧ 0 < a ∧
        a ≤ p.capturedAmount ∧ p.canRefund ∧ Moves now db p a customerId db' ∧
        (refund now k amount customerId).exec db
          = (.ok txn, { db' with
              payments := db'.payments.save (captureRefunded { p with toConfirm := false } a) }) := by
  rw [refund]
  rcases hp : db.payments.find? k with _ | p
  · refine Or.inl ⟨.doesNotExist, Action.exec_bind_of_error (Action.exec_atomic_of_error
      (?_ : _ = (_, db)))⟩
    rw [Action.exec_bind_of_ok (Action.exec_get db), hp]
    rfl
  rcases exec_refundTransaction_cases now p amount customerId db with
    ⟨e, he⟩ | ⟨a, db', txn, ha, hpos, hle, hcan, hmoves, hsuccess, haction, rfl, htxn⟩
  · refine Or.inl ⟨e, Action.exec_bind_of_error (Action.exec_atomic_of_error (?_ : _ = (_, db)))⟩
    rw [Action.exec_bind_of_ok (Action.exec_get db), hp]
    exact Action.exec_bind_of_error he
  · refine Or.inr ⟨p, _, db', txn, rfl, ha, hpos, hle, hcan, hmoves, ?_⟩
    have hpost : gatewayPostprocess txn p = captureRefunded { p with toConfirm := false } txn.amount := by
      rw [gatewayPostprocess, hsuccess, haction]
      rfl
    refine (Action.exec_bind_of_ok (Action.exec_atomic_of_ok (?_ : _ = (Except.ok txn,
      { db' with payments := db'.payments.save (gatewayPostprocess txn p) })))).trans ?_
    · rw [Action.exec_bind_of_ok (Action.exec_get db), hp]
      exact Action.exec_bind_of_ok htxn
    · rw [if_pos hsuccess, hpost]
      rfl

end Specs

end Payments

end Aixinwu
