import Aixinwu.Account.BalanceUpdate
import Aixinwu.Account.OidcLogin
import Aixinwu.Donation.BulkComplete
import Aixinwu.Order.Confirm
import Aixinwu.Payment.BalanceGateway

/-!
# Balances and their audit trail

Every operation that changes a balance also writes a `BalanceEvent` with the difference, on its
own. The ledger agrees when every balance is the sum of its events, and it goes on agreeing over a
run of operations exactly as long as each of them records what it does: `gap` is the distance
between the two, and a recorded operation leaves it alone.

Five of the operations record something else under some circumstances, and
`LedgerRequest.Recorded` says for each when it does not happen: setting a balance by hand records
no change at all; completing donations in bulk records all of them but grants each donor the first;
confirming an order quantizes the balance but not the event; a refund of more than three decimals
can be rounded differently in the sum and alone; a login can create a user without events, or
events without a user.

## Main definitions

* `LedgerRequest`, `serve`
* `LedgerRequest.Recorded`

## Main results

* `gap_serve` — a recorded operation
* `ledger_agrees` — every run of recorded operations
-/

namespace Aixinwu

namespace Account

open Runs Donation Payments Decimals Keyed OrderConfirm

/-- The donations that `DonationBulkComplete.perform_mutation` hands to `bulk_action`; an error is
what it ends with instead. -/
def bulkQueryset (db : Db) (requestor : Option Requestor) (ids : List ℕ) :
    Except Outcome db.donations.Queryset :=
  if ¬ hasOneOfPermissions requestor [.manageDonations] then .error .denied
  else if ids.isEmpty then .error .success
  else
    let queryset := db.donations.filter (·.pk ∈ ids)
    if queryset.rows.isEmpty then
      .error (.errors [⟨"id", "Could not resolve to a node with the global id list of '"
        ++ toString (ids.map (toGlobalId "Donation")) ++ "'.", .graphqlError⟩])
    else if ids.any fun id => (db.donations.find? id).isNone then .error (.raised "AssertionError")
    else .ok queryset

/-- `DonationBulkComplete`. -/
def donationBulkComplete (requestor : Option Requestor) (now : Time) (ids : List ℕ)
    (accepted : Bool) (db : Db) : Db × Outcome :=
  match bulkQueryset db requestor ids with
  | .error outcome => (db, outcome)
  | .ok queryset => ((bulkAction db now queryset accepted).1, .success)

/-- An operation that changes balances, with what it reads from its surroundings. -/
inductive LedgerRequest where
  | login (r : LoginRequest)
  | donationComplete (requestor : Option Requestor) (now : Time) (id : ℕ) (accepted : Bool)
  | donationBulkComplete (requestor : Option Requestor) (now : Time) (ids : List ℕ)
    (accepted : Bool)
  | orderConfirm (now : Time) (user : Option ℕ) (id : ℕ)
  | refundPayment (now : Time) (paymentInformation : PaymentData)
  | balanceUpdate (now : Time) (requestor : Option Requestor) (userId : ℕ) (balance : ℚ)

/-- The state after an operation. `date` is the calendar and `unit` the smallest amount of the
currency. -/
def serve (date : Time → ℤ) (unit : ℕ) (db : Db) : LedgerRequest → Db
  | .login r => login date r db
  | .donationComplete requestor now id accepted =>
    (Donation.donationComplete db requestor now id accepted).1
  | .donationBulkComplete requestor now ids accepted =>
    (Account.donationBulkComplete requestor now ids accepted db).1
  | .orderConfirm now user id => (Aixinwu.orderConfirm unit now user id db).1
  | .refundPayment now paymentInformation =>
    ((Payments.refundPayment now paymentInformation).exec db).2
  | .balanceUpdate now requestor userId balance =>
    (Account.balanceUpdate now requestor userId balance db).1

/-- When an operation records what it does. -/
def LedgerRequest.Recorded (unit : ℕ) (db : Db) : LedgerRequest → Prop
  | .login r => r.Recorded db
  | .donationComplete .. => True
  | .donationBulkComplete requestor _ ids accepted =>
    -- the donations of a donor after the first add up to nothing
    ∀ queryset, bulkQueryset db requestor ids = .ok queryset → ∀ u ∈ db.users,
      (valuesAt u.pk (bulkCredits db.users accepted queryset.rows)).tail.sum = 0
  | .orderConfirm _ user id =>
    -- what is left is a multiple of the smallest amount
    ∀ u ∈ db.users, user = some u.pk → ∀ order, getInstance db id = .ok order →
      (getLastPayment db.payments order.pk).isSome → order.totalNetAmount ≤ u.balance →
        (unit : ℤ) ∣ u.balance - order.totalNetAmount
  | .refundPayment _ paymentInformation =>
    -- no tie that changes sign
    ∀ u ∈ db.users, paymentInformation.customerId = some u.pk → IsTie paymentInformation.amount →
      (0 ≤ (u.balance : ℚ) + paymentInformation.amount ↔ 0 ≤ paymentInformation.amount)
  | .balanceUpdate _ requestor userId balance =>
    -- no change
    hasOneOfPermissions requestor [.manageUsers] → ∀ u ∈ db.users, u.pk = userId →
      toColumn balance = u.balance

/-! ### One operation -/

variable {date : Time → ℤ} {unit : ℕ} {db db' : Db}

/-- How the gap changes when balances are moved and events are written. -/
theorem gap_eq (c e : ℕ → Amount)
    (hbalance : ∀ k, balanceOf db'.users k = (balanceOf db.users k).map (· + c k))
    (hevents : ∀ k, deltaSum k db'.balanceEvents = deltaSum k db.balanceEvents + e k)
    (hagree : ∀ k, (if (balanceOf db.users k).isSome then c k else 0) = e k) :
    gap db' = gap db := by
  funext k
  rw [gap, gap, balanceIn, balanceIn, hbalance, hevents, ← hagree]
  rcases balanceOf db.users k with _ | b
  · simp
  · simp only [Option.map_some, Option.getD_some, Option.isSome_some, if_true]
    abel

/-- A credit to one user, recorded. -/
theorem gap_credit {u : User} (hu : u ∈ db.users) {δ : Amount}
    (hbalance : ∀ k, balanceOf db'.users k
      = (balanceOf db.users k).map (· + if k = u.pk then δ else 0))
    (hevents : ∀ k, deltaSum k db'.balanceEvents
      = deltaSum k db.balanceEvents + if k = u.pk then δ else 0) : gap db' = gap db := by
  refine gap_eq _ _ hbalance hevents fun k => ?_
  by_cases hk : k = u.pk
  · subst hk
    rw [if_pos rfl, (fresh_of_mem hu : balanceOf db.users u.pk = some u.balance)]
    rfl
  · rw [if_neg hk, ite_self]

theorem gap_donationComplete (requestor : Option Requestor) (now : Time) (id : ℕ)
    (accepted : Bool) :
    gap (Donation.donationComplete db requestor now id accepted).1 = gap db := by
  rcases hd : db.donations.find? id with _ | d
  · rw [donationComplete_error (Or.inl hd)]
  rcases hperm : validateCompletePermission requestor with es | ⟨⟨⟩⟩
  · rw [donationComplete_error (Or.inr ⟨es, hperm⟩)]
  obtain ⟨users, events, heq, husers, hevents⟩ := donationComplete_eq hd hperm now accepted
  rw [heq]
  refine gap_eq (creditedTo (donorOf db.users d) (grant d accepted)) _ (fun k => ?_) hevents
    fun k => ?_
  · rw [husers]
    exact balanceOf_creditDonor _ _ _ k
  · rcases hdonor : donorOf db.users d with _ | u
    · exact ite_self 0
    · by_cases hk : u.pk = k
      · subst hk
        rw [(fresh_of_mem (donorOf_mem hdonor).1 : balanceOf db.users u.pk = some u.balance)]
        rfl
      · simp [creditedTo, hk]

theorem gap_donationBulkComplete {requestor : Option Requestor} {now : Time} {ids : List ℕ}
    {accepted : Bool}
    (h : (LedgerRequest.donationBulkComplete requestor now ids accepted).Recorded unit db) :
    gap (Account.donationBulkComplete requestor now ids accepted db).1 = gap db := by
  rw [Account.donationBulkComplete]
  rcases hqueryset : bulkQueryset db requestor ids with outcome | queryset
  · rfl
  refine gap_eq _ _ (balanceOf_bulkAction now queryset accepted)
    (fun k => deltaSum_append k db.balanceEvents _) fun k => ?_
  rw [deltaSum_bulkUpdates]
  rcases hfind : db.users.find? k with _ | u
  · -- a donor is a user
    rw [balanceOf, hfind]
    refine (sumAt_of_not_mem fun hk => ?_).symm
    obtain ⟨⟨j, δ⟩, hmem, rfl⟩ := List.mem_map.mp hk
    obtain ⟨d, -, hd⟩ := List.mem_filterMap.mp hmem
    split at hd
    · obtain ⟨u, hu, hpair⟩ := Option.map_eq_some_iff.mp hd
      obtain ⟨rfl, -⟩ := Prod.mk.inj hpair
      exact Table.find?_eq_none.mp hfind u (donorOf_mem hu).1 rfl
    · cases hd
  · obtain ⟨hu, rfl⟩ := Table.find?_eq_some.mp hfind
    rw [balanceOf, hfind]
    exact firstAt_eq_sumAt_iff.mpr (h queryset hqueryset u hu)

theorem gap_orderConfirm (hunit : 0 < unit) {now : Time} {user : Option ℕ} {id : ℕ}
    (h : (LedgerRequest.orderConfirm now user id).Recorded unit db) :
    gap (Aixinwu.orderConfirm unit now user id db).1 = gap db := by
  rcases orderConfirm_cases unit now user id db with
    ⟨hsame, -⟩ | ⟨u, order, payment, huser, hu, horder, hpayment, hbalance, hpaid⟩
  · rw [hsame]
  have hquantize : quantize unit (u.balance - order.totalNetAmount)
      = u.balance - order.totalNetAmount :=
    (quantize_eq_self_iff hunit).mpr
      (h u hu huser order horder (Option.isSome_iff_exists.mpr ⟨payment, hpayment⟩) hbalance)
  rw [hpaid]
  refine gap_credit hu (fun k => ?_) fun k => deltaSum_paid u order payment k
  rw [balanceOf_paid, hquantize]
  by_cases hk : k = u.pk
  · subst hk
    rw [(fresh_of_mem hu : balanceOf db.users u.pk = some u.balance)]
    simp [sub_eq_add_neg]
  · simp [hk]

theorem gap_refundPayment {now : Time} {data : PaymentData}
    (h : (LedgerRequest.refundPayment now data).Recorded unit db) :
    gap ((Payments.refundPayment now data).exec db).2 = gap db := by
  rcases huser : data.customerId.bind db.users.find? with _ | u
  · rw [exec_refundPayment_of_none huser]
  obtain ⟨k, hk, hfind⟩ := Option.bind_eq_some_iff.mp huser
  obtain ⟨hu, rfl⟩ := Table.find?_eq_some.mp hfind
  have hcredit : refundCredit u.balance data.amount = toColumn data.amount := by
    rw [refundCredit, toColumn, (roundHalfAway_intCast_add_iff _ _).mpr (h u hu hk),
      add_sub_cancel_left]
    rfl
  rw [exec_refundPayment_of_some huser]
  refine gap_credit hu (fun k => ?_) fun k => deltaSum_refundWrites u data.amount k
  rw [refundWrites_users hu, hcredit]
  exact balanceOf_credit _ _ _ _

theorem gap_balanceUpdate {now : Time} {requestor : Option Requestor} {userId : ℕ} {balance : ℚ}
    (h : (LedgerRequest.balanceUpdate now requestor userId balance).Recorded unit db) :
    gap (Account.balanceUpdate now requestor userId balance db).1 = gap db := by
  by_cases hperm : hasOneOfPermissions requestor [.manageUsers]
  swap
  · rw [Account.balanceUpdate, if_pos hperm]
  rcases balanceUpdate_cases now requestor userId balance db with hsame | ⟨u, hu, rfl, heq⟩
  · rw [hsame]
  · rw [heq, h hperm u hu rfl, sub_self, credit_zero]
    refine gap_eq 0 _ (fun k => ?_) (fun k => deltaSum_append k db.balanceEvents _) fun k => ?_
    · simp
    · rw [deltaSum_cons, changeBalanceEvent_delta]
      simp

/-- **A recorded operation** leaves every balance as far from its events as it was. -/
theorem gap_serve (hunit : 0 < unit) {r : LedgerRequest} (h : r.Recorded unit db) :
    gap (serve date unit db r) = gap db := by
  cases r with
  | login r => exact gap_login h
  | donationComplete requestor now id accepted => exact gap_donationComplete requestor now id accepted
  | donationBulkComplete requestor now ids accepted => exact gap_donationBulkComplete h
  | orderConfirm now user id => exact gap_orderConfirm hunit h
  | refundPayment now data => exact gap_refundPayment h
  | balanceUpdate now requestor userId balance => exact gap_balanceUpdate h

/-! ### Runs -/

/-- **The ledger agrees** over every run of recorded operations: each changes every balance by what
it records, and balances that agreed with their events at the start agree in every state
reached. -/
theorem ledger_agrees (date : Time → ℤ) {unit : ℕ} (hunit : 0 < unit) {db : Db}
    {requests : List LedgerRequest}
    (h : EachStep (serve date unit) (fun db r => r.Recorded unit db) db requests) :
    EachStep (serve date unit)
      (fun db r => ∀ k, balanceIn (serve date unit db r) k - balanceIn db k
        = deltaSum k (serve date unit db r).balanceEvents - deltaSum k db.balanceEvents)
      db requests ∧
    ((∀ k, balanceIn db k = deltaSum k db.balanceEvents) →
      ∀ db', Reached (serve date unit) db requests db' →
        ∀ k, balanceIn db' k = deltaSum k db'.balanceEvents) := by
  refine ⟨h.mono fun db r hr k => ?_, fun hagree db' hreached k => ?_⟩
  · have hgap : gap (serve date unit db r) k = gap db k := congrFun (gap_serve hunit hr) k
    exact sub_eq_sub_iff_sub_eq_sub.mp hgap
  · have hzero : gap db' = 0 := by
      have hstart : gap db = 0 := funext fun k => sub_eq_zero.mpr (hagree k)
      have hstep : ∀ db r, gap db = 0 → LedgerRequest.Recorded unit db r →
          gap (serve date unit db r) = 0 := fun db r hdb hr => (gap_serve hunit hr).trans hdb
      exact h.inv_reached hstep hstart hreached
    exact sub_eq_zero.mp (congrFun hzero k)

/-- A first login and a refund of 10. -/
theorem ledger_agrees_loginRefund :
    let requests : List LedgerRequest :=
      [.login { sub := some "a", code := "517", emailDomain := "@sjtu.edu.cn", oauthUrl := "jaccount",
                newPk := 1, joined := 5, now := 5, loginTime := 5 },
       .refundPayment 6 ⟨"aixinwu.payments.balance", 10000, some 1⟩]
    ∀ db', Reached (serve id 10) { users := Table.empty } requests db' →
      ∀ k, balanceIn db' k = deltaSum k db'.balanceEvents := by
  intro requests
  have hrun : EachStep (serve id 10) (fun db r => r.Recorded 10 db) { users := Table.empty }
      requests := by
    rw [eachStep_cons, eachStep_cons]
    refine ⟨?_, ?_, eachStep_nil _⟩
    · rintro account ⟨⟩
      exact fun u hu => nomatch hu
    · intro u _ _ htie
      norm_num [IsTie] at htie
  exact (ledger_agrees id (by decide) hrun).2 fun k => rfl

/-- Staff sets a balance from 0 to 10, and nothing says so. -/
theorem ledger_disagrees_balanceUpdate :
    ¬ ∀ (date : Time → ℤ) (unit : ℕ) (db : Db) (requests : List LedgerRequest), 0 < unit →
      (∀ k, balanceIn db k = deltaSum k db.balanceEvents) →
      ∀ db', Reached (serve date unit) db requests db' →
        ∀ k, balanceIn db' k = deltaSum k db'.balanceEvents := by
  intro h
  let user : User := { pk := 1, email := "a@sjtu.edu.cn", balance := 0, lastLogin := 0 }
  let db : Db := { users := Table.singleton user }
  have hstart : ∀ k, balanceIn db k = deltaSum k db.balanceEvents := by
    intro k
    rw [balanceIn, balanceOf]
    rcases hfind : db.users.find? k with _ | u
    · rfl
    · obtain rfl : u = user := List.mem_singleton.mp (Table.find?_eq_some.mp hfind).1
      rfl
  have hend := h id 10 db [.balanceUpdate 5 (some ⟨[.manageUsers]⟩) 1 10000] (by decide) hstart _
    (reached_run _ _) 1
  revert hend
  decide +kernel

end Account

end Aixinwu
