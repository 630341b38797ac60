import Aixinwu.Database
import Aixinwu.Lib.Transactions

/-!
# Refunding to the account balance

`refund_payment` of `saleor/payment/gateways/balance/plugin.py`: the customer that the payment data
names is read, the amount added to its balance and all columns saved, in one transaction. An amount
is a decimal of any precision. It is added before it is rounded, the event rounds it alone, and
the two can differ at a tie.

## Main definitions

* `PaymentData`, `GatewayResponse`
* `refundWrites`, `refundPayment`

## Main results

* `exec_refundPayment_of_some`, `exec_refundPayment_of_none`
* `refundWrites_eq` — a refund to a fresh instance is a credit
-/

namespace Aixinwu

open Account

namespace Payments

/-- The exceptions of a payment operation. -/
inductive PaymentException where
  /-- `PaymentError`, with its text. -/
  | paymentError (message : String)
  /-- A `DoesNotExist`. -/
  | doesNotExist
  /-- A `DatabaseError`. -/
  | databaseError
  /-- Anything else, by its class. -/
  | other (exception : String)
deriving DecidableEq, Repr

/-- Code over the tables that may raise one of them. -/
abbrev PaymentAction := Action Db PaymentException

/-- `payment.interface.PaymentData`, what the gateway reads of it. -/
structure PaymentData where
  gateway : String
  amount : ℚ
  customerId : Option ℕ
deriving DecidableEq, Repr

/-- `payment.interface.GatewayResponse`; its kind is always a refund here. -/
structure GatewayResponse where
  isSuccess : Bool
  actionRequired : Bool
  amount : ℚ
  error : Option String
deriving DecidableEq, Repr

/-- What the transaction of `refund_payment` writes, with the instance in memory: all columns of
the user, and the event. -/
def refundWrites (now : Time) (user : User) (amount : ℚ) (db : Db) : Db :=
  { db with
    users := db.users.save { user with balance := toColumn (user.balance + amount) }
    balanceEvents := db.balanceEvents
      ++ [refundedBalanceEvent now user.pk (user.balance + amount) amount] }

/-- `BalanceGatewayPlugin.refund_payment`. -/
def refundPayment (now : Time) (paymentInformation : PaymentData) :
    PaymentAction GatewayResponse :=
  Action.atomic do
    let db ← get
    match paymentInformation.customerId.bind db.users.find? with
    | none => throw .doesNotExist
    | some user =>
      modify (refundWrites now user paymentInformation.amount)
      pure { isSuccess := true, actionRequired := false, amount := paymentInformation.amount,
             error := none }

section Specs

variable {now : Time} {db : Db} {data : PaymentData} {user : User}

theorem exec_refundPayment_of_none (h : data.customerId.bind db.users.find? = none) :
    (refundPayment now data).exec db = (.error .doesNotExist, db) := by
  refine Action.exec_atomic_of_error (?_ : _ = (_, db))
  rw [Action.exec_bind, Action.exec_get]
  simp only [h, Action.exec_throw]

theorem exec_refundPayment_of_some (h : data.customerId.bind db.users.find? = some user) :
    (refundPayment now data).exec db
      = (.ok { isSuccess := true, actionRequired := false, amount := data.amount, error := none },
        refundWrites now user data.amount db) := by
  refine Action.exec_atomic_of_ok ?_
  rw [Action.exec_bind, Action.exec_get]
  simp only [h, Action.exec_bind, Action.exec_modify, Action.exec_pure]

/-- What a refund adds to a balance column. -/
def refundCredit (balance : Amount) (amount : ℚ) : Amount := toColumn (balance + amount) - balance

/-- A refund to an instance that is what the row says is a credit. -/
theorem refundWrites_users (h : user ∈ db.users) (amount : ℚ) :
    (refundWrites now user amount db).users
      = credit db.users user.pk (refundCredit user.balance amount) := by
  rw [← save_eq_credit h, refundCredit, add_sub_cancel]
  rfl

theorem deltaSum_refundWrites (user : User) (amount : ℚ) (k : ℕ) :
    deltaSum k (refundWrites now user amount db).balanceEvents
      = deltaSum k db.balanceEvents + if k = user.pk then toColumn amount else 0 := by
  have hevents : (refundWrites now user amount db).balanceEvents = db.balanceEvents
      ++ [refundedBalanceEvent now user.pk (user.balance + amount) amount] := rfl
  rw [hevents, deltaSum_append, deltaSum_cons, deltaSum_nil, add_zero]
  exact congrArg _ (if_congr eq_comm rfl rfl)

end Specs

end Payments

end Aixinwu
