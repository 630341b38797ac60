import Aixinwu.Core.Mutations
import Aixinwu.Database
import Aixinwu.Lib.Decimals

/-!
# Confirming an order

`OrderConfirm` of `saleor/graphql/order/mutations/order_confirm.py`. It is the user of the request
who pays, whoever owns the order: the balance is that of the instance the request was
authenticated with. The order is saved once before the balance is looked at, with the status it was
read with, and once more in the transaction that takes the money.

The balance that is written is quantized to the currency's precision, with the smallest amount
`unit`; the amount that is captured and the balance event are not.

## Main definitions

* `OrderConfirm.getInstance`, `OrderConfirm.saveStatus`, `OrderConfirm.pay`
* `orderConfirm`

## Main results

* `orderConfirm_cases` — it either changes nothing or pays
* `balanceOf_paid`, `balanceIn_paid`, `deltaSum_paid`
-/

namespace Aixinwu

open Account Decimals

/-- `Order.is_unconfirmed`. -/
def Order.isUnconfirmed (o : Order) : Bool := o.status = .unconfirmed

namespace OrderConfirm

/-- `OrderConfirm.get_instance`. -/
def getInstance (db : Db) (id : ℕ) : Except (List ValidationError) Order :=
  match getNodeOrError "Order" id (db.orders.find? id) with
  | .error es => .error es
  | .ok order =>
    if ¬ order.isUnconfirmed then
      .error [⟨"id", "Provided order id belongs to an order with status different than unconfirmed.",
        .invalid⟩]
    else if order.lines.isEmpty then
      .error [⟨"id", "Provided order id belongs to an order without products.", .invalid⟩]
    else .ok order

/-- `order.save(update_fields=["status", …])`, before the balance is looked at. -/
def saveStatus (db : Db) (order : Order) : Db :=
  { db with
    orders := db.orders.modify order.pk (fun o => { o with status := order.status }) fun _ => rfl }

/-- The instance of the user after paying. -/
def debited (unit : ℕ) (user : User) (order : Order) : User :=
  { user with balance := quantize unit (user.balance - order.totalNetAmount) }

/-- What the transaction writes. -/
def paid (unit : ℕ) (now : Time) (user : User) (order : Order) (payment : Payment) (db : Db) : Db :=
  let user := debited unit user order
  let db := { db with
    orders := db.orders.modify order.pk
      (fun o => { o with
        status := .unfulfilled
        chargeStatus := .ofPayment .fullyCharged
        totalChargedAmount := order.totalNetAmount })
      fun _ => rfl }
  let db := db.saveUser [.balance] user
  let db := { db with
    payments := db.payments.modify payment.pk
      (fun p => { p with
        chargeStatus := .fullyCharged
        capturedAmount := order.totalNetAmount })
      fun _ => rfl }
  { db with
    balanceEvents := db.balanceEvents
      ++ [consumptionBalanceEvent now user order.totalNetAmount] }

/-- The transaction, with the instances in memory. An order without a payment is an
`AttributeError`, which rolls it back. -/
def pay (unit : ℕ) (now : Time) (user : User) (order : Order) (db : Db) : Db × Outcome :=
  match getLastPayment db.payments order.pk with
  | none => (db, .raised "AttributeError")
  | some payment => (paid unit now user order payment db, .success)

end OrderConfirm

open OrderConfirm

/-- `OrderConfirm.perform_mutation`; `user` is the user of the request. -/
def orderConfirm (unit : ℕ) (now : Time) (user : Option ℕ) (id : ℕ) (db : Db) : Db × Outcome :=
  match user.bind db.users.find? with
  | none => (db, .errors [⟨"user", "User not found.", .invalid⟩])
  | some user =>
    match getInstance db id with
    | .error es => (db, .errors es)
    | .ok order =>
      let db := saveStatus db order
      if user.balance ≥ order.totalNetAmount then pay unit now user order db
      else (db, .errors [⟨"balance", "You need to have enough balance", .balanceCheckError⟩])

section Specs

variable {unit : ℕ} {now : Time} {db : Db} {id : ℕ}

theorem getInstance_eq_ok {order : Order} (h : getInstance db id = .ok order) :
    db.orders.find? id = some order ∧ order.status = .unconfirmed ∧ order.lines ≠ [] := by
  rw [getInstance] at h
  rcases hfind : db.orders.find? id with _ | o
  · rw [hfind] at h
    cases h
  · simp only [hfind, getNodeOrError] at h
    split at h
    · cases h
    · split at h
      · cases h
      · rename_i hstatus hlines
        cases h
        exact ⟨rfl, by simpa [Order.isUnconfirmed] using hstatus, by simpa using hlines⟩

/-- Saving the status that was just read changes nothing. -/
theorem saveStatus_self {order : Order} (h : order ∈ db.orders) : saveStatus db order = db := by
  have hsame := (Table.modify_eq_self_iff h (fun o => { o with status := order.status })
    fun _ => rfl).mpr rfl
  rw [pk_order] at hsame
  rw [saveStatus, hsame]

/-- **Confirming an order** pays for it, or changes nothing. -/
theorem orderConfirm_cases (unit : ℕ) (now : Time) (user : Option ℕ) (id : ℕ) (db : Db) :
    ((orderConfirm unit now user id db).1 = db ∧ (orderConfirm unit now user id db).2 ≠ .success) ∨
      ∃ u order payment, user = some u.pk ∧ u ∈ db.users ∧ getInstance db id = .ok order ∧
        getLastPayment db.payments order.pk = some payment ∧ order.totalNetAmount ≤ u.balance ∧
        orderConfirm unit now user id db = (paid unit now u order payment db, .success) := by
  rw [orderConfirm]
  rcases huser : user.bind db.users.find? with _ | u
  · exact Or.inl ⟨rfl, nofun⟩
  obtain ⟨k, rfl, hk⟩ := Option.bind_eq_some_iff.mp huser
  obtain ⟨hu, rfl⟩ := Table.find?_eq_some.mp hk
  rcases horder : getInstance db id with es | order
  · exact Or.inl ⟨rfl, nofun⟩
  obtain ⟨hfind, -, -⟩ := getInstance_eq_ok horder
  simp only [saveStatus_self (Table.find?_eq_some.mp hfind).1]
  by_cases hbalance : u.balance ≥ order.totalNetAmount
  · rw [if_pos hbalance, pay]
    rcases hpayment : getLastPayment db.payments order.pk with _ | payment
    · exact Or.inl ⟨rfl, nofun⟩
    · exact Or.inr ⟨u, order, payment, rfl, hu, rfl, hpayment, hbalance, rfl⟩
  · rw [if_neg hbalance]
    exact Or.inl ⟨rfl, nofun⟩

/-- Paying sets the balance of the row to that of the instance. -/
theorem balanceOf_paid (user : User) (order : Order) (payment : Payment) (k : ℕ) :
    balanceOf (paid unit now user order payment db).users k
      = (balanceOf db.users k).map fun b =>
          if k = user.pk then quantize unit (user.balance - order.totalNetAmount) else b := by
  refine (balanceOf_saveUser { db with orders := _ } [.balance] (debited unit user order) k).trans ?_
  simp [debited]

/-- From a fresh instance, and without rounding, it takes the total. -/
theorem balanceIn_paid {user : User} {order : Order} {payment : Payment} (hfresh : Fresh db user)
    (hunit : 0 < unit) (hdvd : (unit : ℤ) ∣ user.balance - order.totalNetAmount) (k : ℕ) :
    balanceIn (paid unit now user order payment db) k
      = balanceIn db k + if k = user.pk then -order.totalNetAmount else 0 := by
  rw [balanceIn_of_write hfresh (balanceOf_paid user order payment),
    (quantize_eq_self_iff hunit).mpr hdvd]
  refine congrArg _ (if_congr Iff.rfl ?_ rfl)
  abel

theorem deltaSum_paid (user : User) (order : Order) (payment : Payment) (k : ℕ) :
    deltaSum k (paid unit now user order payment db).balanceEvents
      = deltaSum k db.balanceEvents + if k = user.pk then -order.totalNetAmount else 0 := by
  have hevents : (paid unit now user order payment db).balanceEvents = db.balanceEvents
      ++ [consumptionBalanceEvent now (debited unit user order) order.totalNetAmount] := rfl
  rw [hevents, deltaSum_append, deltaSum_cons, deltaSum_nil, add_zero]
  exact congrArg _ (if_congr eq_comm rfl rfl)

end Specs

end Aixinwu
