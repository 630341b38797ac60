import Aixinwu.Account.OidcLogin
import Aixinwu.Donation.Mutations
import Aixinwu.Lib.Interleaving
import Aixinwu.Lib.KeyedSums
import Aixinwu.Order.Confirm
import Aixinwu.Payment.BalanceGateway

/-!
# Requests that touch one balance at the same time

Confirming an order, completing a donation, refunding to the balance and logging in all read a
user, compute a balance from the instance in memory and write it back; none of them locks the row.
Each is cut here at its reads and writes, under `READ COMMITTED`: a read sees what is committed, a
transaction's writes appear together when it commits.

Over an interleaving the balances are what the effects of the requests add up to as long as every
write finds the balance that was read before it, and an order still unconfirmed (`Undisturbed`).
The save of the order before its balance check is one of those writes: it puts back the status that
was read.

A login is the login of a user who is found by subject.

## Main definitions

* `Thread`, `advance` — the requests, step by step
* `Undisturbed` — the write finds what was read
* `Conserved` — what the interleaving should keep

## Main results

* `alone_confirm`, `alone_complete`, `alone_refund` — a request that is not interrupted is the one
  of the handler
* `conserved_advance` — one step
* `requests_conserved` — every interleaving
-/

namespace Aixinwu

namespace Account

open Runs Interleaving Payments OrderConfirm Donation Decimals Keyed

/-- What the requests are given: the calendar and the smallest amount of the currency. -/
structure Surroundings where
  date : Time → ℤ
  unit : ℕ

/-- A request and what it has in memory. -/
inductive Thread where
  /-- `OrderConfirm`, before anything is read. -/
  | confirm (now : Time) (user : Option ℕ) (id : ℕ)
  /-- The user of the request is read. -/
  | confirmUser (now : Time) (user : User) (id : ℕ)
  /-- The order is read, and may be confirmed. -/
  | confirmOrder (now : Time) (user : User) (order : Order)
  /-- The order is saved with the status it was read with. -/
  | confirmSaved (now : Time) (user : User) (order : Order)
  /-- `DonationComplete`, before anything is read. -/
  | complete (requestor : Option Requestor) (now : Time) (id : ℕ) (accepted : Bool)
  /-- The donation is read and has its new status in memory. -/
  | completeRead (now : Time) (d : Donation) (previous : Option DonationStatus)
  /-- The donation is saved. -/
  | completeSaved (now : Time) (d : Donation) (previous : Option DonationStatus)
  /-- The donor is read; `granted` tells a grant from its withdrawal. -/
  | completeUser (now : Time) (user : User) (price : Amount) (granted : Bool)
  /-- `refund_payment`, before anything is read. -/
  | refund (now : Time) (data : PaymentData)
  /-- The customer is read. -/
  | refundUser (now : Time) (user : User) (amount : ℚ)
  /-- A login, before anything is read. -/
  | login (r : LoginRequest)
  /-- The user is read. -/
  | loginUser (r : LoginRequest) (account : String) (user : User)
  /-- The request has ended. -/
  | done (outcome : Outcome)

/-- What a request has done to the balance of a user, and the order it has charged for it. -/
structure Effect where
  user : ℕ
  amount : Amount
  order : Option ℕ := none

/-- A balance change of a donation, signed. -/
def signedPrice (price : Amount) (granted : Bool) : Amount := if granted then price else -price

/-- The write of `DonationComplete` with the instance in memory. -/
def completeWrites (now : Time) (user : User) (price : Amount) (granted : Bool) (db : Db) : Db :=
  let user := { user with balance := user.balance + signedPrice price granted }
  let db := db.saveUser [.balance] user
  { db with
    balanceEvents := db.balanceEvents ++
      [if granted then donationGrantedBalanceEvent now user price
       else donationRejectedBalanceEvent now user (some price)] }

/-- The read of `DonationComplete.post_save_action`. -/
def completeReadUser (db : Db) (now : Time) (d : Donation) (granted : Bool) : Thread :=
  match db.users.get (·.code = d.donator.getD "") with
  | .error _ => .done .success
  | .ok user =>
    match d.priceAmount with
    | none => .done (.raised "TypeError")
    | some price => .completeUser now user price granted

/-- The daily reward a login is about to save, if it gets that far. -/
def loginReward (date : Time → ℤ) (r : LoginRequest) (account : String) (db : Db) (user : User) :
    Option Amount :=
  match updateIdentity r account db user with
  | none => none
  | some (u, fields) =>
    match updateContinuousDays CONTINUOUS_BALANCE_ADD date r.now u r.loginTime fields with
    | none => none
    | some (u', _, fields') => if .balance ∈ fields' then some (u'.balance - u.balance) else none

/-- The next read or write of a request. -/
def advance (env : Surroundings) (db : Db) : Thread → Db × Thread × Option Effect
  | .confirm now user id =>
    match user.bind db.users.find? with
    | none => (db, .done (.errors [⟨"user", "User not found.", .invalid⟩]), none)
    | some user => (db, .confirmUser now user id, none)
  | .confirmUser now user id =>
    match getInstance db id with
    | .error es => (db, .done (.errors es), none)
    | .ok order => (db, .confirmOrder now user order, none)
  | .confirmOrder now user order => (saveStatus db order, .confirmSaved now user order, none)
  | .confirmSaved now user order =>
    if user.balance ≥ order.totalNetAmount then
      match getLastPayment db.payments order.pk with
      | none => (db, .done (.raised "AttributeError"), none)
      | some payment =>
        (paid env.unit now user order payment db, .done .success,
          some ⟨user.pk, -order.totalNetAmount, some order.pk⟩)
    else
      (db, .done (.errors [⟨"balance", "You need to have enough balance", .balanceCheckError⟩]),
        none)
  | .complete requestor now id accepted =>
    match getNodeOrError "Donation" id (db.donations.find? id) with
    | .error es => (db, .done (.errors es), none)
    | .ok d =>
      match validateCompletePermission requestor with
      | .error es => (db, .done (.errors es), none)
      | .ok () =>
        match { d.toInstance with status := some (completedStatus accepted) }.fullClean with
        | .error es => (db, .done (.errors es), none)
        | .ok row => (db, .completeRead now row d.status, none)
  | .completeRead now d previous =>
    ({ db with donations := db.donations.save d }, .completeSaved now d previous, none)
  | .completeSaved now d previous =>
    if previous ≠ some .completed ∧ d.status = some .completed ∧ d.donator.getD "" ≠ "" then
      (db, completeReadUser db now d true, none)
    else if previous = some .completed ∧ d.status = some .rejected ∧ d.donator.getD "" ≠ "" then
      (db, completeReadUser db now d false, none)
    else (db, .done .success, none)
  | .completeUser now user price granted =>
    (completeWrites now user price granted db, .done .success,
      some ⟨user.pk, signedPrice price granted, none⟩)
  | .refund now data =>
    match data.customerId.bind db.users.find? with
    | none => (db, .done (.raised "DoesNotExist"), none)
    | some user => (db, .refundUser now user data.amount, none)
  | .refundUser now user amount =>
    (refundWrites now user amount db, .done .success, some ⟨user.pk, toColumn amount, none⟩)
  | .login r =>
    match r.sub with
    | none => (db, .done (.raised "AssertionError"), none)
    | some account =>
      match r.getUser db.users account with
      | .error _ => (db, .done (.raised "not found"), none)
      | .ok user =>
        if ¬ user.canLogin r.confirmationRequired then
          (db, .done (.raised "AuthenticationError"), none)
        else (db, .loginUser r account user, none)
  | .loginUser r account user =>
    match updateUserDetails env.date r account db user with
    | .error _ => (db, .done (.raised "IndexError"), none)
    | .ok db' =>
      (db', .done .success,
        (loginReward env.date r account db user).map fun reward => ⟨user.pk, reward, none⟩)
  | .done outcome => (db, .done outcome, none)

-- a request that is done does nothing more
example (env : Surroundings) (db : Db) (outcome : Outcome) :
    advance env db (.done outcome) = (db, .done outcome, none) := by
  rw [advance]

/-- The order is still unconfirmed. -/
def StillUnconfirmed (db : Db) (order : ℕ) : Prop :=
  (db.orders.find? order).map (·.status) = some .unconfirmed

instance (db : Db) (order : ℕ) : Decidable (StillUnconfirmed db order) :=
  inferInstanceAs (Decidable (_ = _))

/-- A write finds what was read before it, and loses nothing to rounding. -/
def Undisturbed (env : Surroundings) (db : Db) : Thread → Prop
  | .confirmOrder _ _ order => StillUnconfirmed db order.pk
  | .confirmSaved _ user order =>
    order.totalNetAmount ≤ user.balance → (getLastPayment db.payments order.pk).isSome →
      Fresh db user ∧ StillUnconfirmed db order.pk ∧
        (env.unit : ℤ) ∣ user.balance - order.totalNetAmount
  | .completeUser _ user _ _ => Fresh db user
  | .refundUser _ user amount =>
    Fresh db user ∧ (IsTie amount → (0 ≤ (user.balance : ℚ) + amount ↔ 0 ≤ amount))
  | .loginUser r account user =>
    (loginReward env.date r account db user).isSome → Fresh db user
  | _ => True

/-- The effects on the balance of user `k`, added up. -/
def effectSum (k : ℕ) (log : List Effect) : Amount := sumAt k (log.map fun e => (e.user, e.amount))

/-- The orders that were charged. -/
def charged (log : List Effect) : List ℕ := log.filterMap (·.order)

/-- What an interleaving should keep: balances are what they were plus the effects, and no order
is charged twice. An order that was charged is not unconfirmed any more. -/
structure Conserved (base : ℕ → Amount) (db : Db) (log : List Effect) : Prop where
  balance : ∀ k, balanceIn db k = base k + effectSum k log
  nodup : (charged log).Nodup
  confirmed : ∀ o ∈ charged log, ¬ StillUnconfirmed db o

/-! ### What a write does to the balances -/

variable {env : Surroundings} {base : ℕ → Amount} {db db' : Db} {log : List Effect}

theorem balanceIn_completeWrites {now : Time} {user : User} {price : Amount} {granted : Bool}
    (hfresh : Fresh db user) (k : ℕ) :
    balanceIn (completeWrites now user price granted db) k
      = balanceIn db k + if k = user.pk then signedPrice price granted else 0 := by
  have hwrite : ∀ j, balanceOf (completeWrites now user price granted db).users j
      = (balanceOf db.users j).map fun b =>
          if j = user.pk then user.balance + signedPrice price granted else b := by
    intro j
    refine (balanceOf_saveUser db [.balance] { user with balance := _ } j).trans ?_
    simp
  rw [balanceIn_of_write hfresh hwrite, add_sub_cancel_left]

theorem balanceOf_save (users : Table User) (user : User) (k : ℕ) :
    balanceOf (users.save user) k
      = (balanceOf users k).map fun b => if k = user.pk then user.balance else b := by
  rw [balanceOf, Table.find?_save, balanceOf]
  by_cases hk : k = user.pk <;> simp [hk, Function.comp_def]

theorem balanceIn_refundWrites {now : Time} {user : User} {amount : ℚ} (hfresh : Fresh db user)
    (htie : IsTie amount → (0 ≤ (user.balance : ℚ) + amount ↔ 0 ≤ amount)) (k : ℕ) :
    balanceIn (refundWrites now user amount db) k
      = balanceIn db k + if k = user.pk then toColumn amount else 0 := by
  have hsum : toColumn (user.balance + amount) - user.balance = toColumn amount := by
    rw [toColumn, (roundHalfAway_intCast_add_iff _ _).mpr htie, add_sub_cancel_left]
    rfl
  rw [← hsum]
  exact balanceIn_of_write hfresh (balanceOf_save db.users _) k

/-- A login writes its reward, and no balance without one. -/
theorem balanceIn_updateUserDetails {date : Time → ℤ} {r : LoginRequest} {account : String}
    {user : User} (h : updateUserDetails date r account db user = .ok db')
    (hfresh : (loginReward date r account db user).isSome → Fresh db user) (k : ℕ) :
    balanceIn db' k = balanceIn db k
      + if k = user.pk then (loginReward date r account db user).getD 0 else 0 := by
  rw [updateUserDetails] at h
  rw [loginReward] at hfresh ⊢
  rcases hidentity : updateIdentity r account db user with _ | ⟨u, fields⟩
  · simp only [hidentity] at h
    cases h
    simp
  obtain ⟨hpk, hbalance⟩ := updateIdentity_eq_some hidentity
  rcases hdays : updateContinuousDays CONTINUOUS_BALANCE_ADD date r.now u r.loginTime fields
    with _ | ⟨u', events, fields'⟩
  · simp only [hidentity, hdays] at h
    cases h
  obtain ⟨hpk', -, -⟩ := updateContinuousDays_recorded hdays
  obtain ⟨hnamespk, hnamesbalance, hnamesfields⟩ := updateNames_spec r u' fields'
  simp only [hidentity, hdays] at h hfresh ⊢
  cases h
  have hwrite : ∀ j, balanceOf ({ db with balanceEvents := db.balanceEvents ++ events }.saveUser
      (updateNames r u' fields').2 (updateNames r u' fields').1).users j
      = (balanceOf db.users j).map fun b =>
          if j = user.pk ∧ .balance ∈ fields' then u'.balance else b := by
    intro j
    refine (balanceOf_saveUser { db with balanceEvents := _ } _ _ j).trans ?_
    rw [hnamesbalance, hnamespk, hpk', hpk]
    simp only [hnamesfields]
  by_cases hmem : .balance ∈ fields'
  · simp only [hmem, and_true, if_true, Option.isSome_some, forall_const, Option.getD_some]
      at hwrite hfresh ⊢
    rw [balanceIn_of_write hfresh hwrite, hbalance]
  · simp only [hmem, and_false, if_false, Option.getD_none, ite_self, add_zero] at hwrite ⊢
    rw [balanceIn, hwrite, balanceIn]
    simp

/-- Nothing but users and events. -/
theorem orders_updateUserDetails {date : Time → ℤ} {r : LoginRequest} {account : String}
    {user : User} (h : updateUserDetails date r account db user = .ok db') :
    db'.orders = db.orders := by
  rw [updateUserDetails] at h
  split at h
  · cases h
    rfl
  · split at h
    · cases h
    · cases h
      rfl

/-! ### What a write does to the orders -/

/-- Putting back a status that the row still has, or writing to another row. -/
theorem stillUnconfirmed_saveStatus {order : Order} {o : ℕ}
    (hstill : StillUnconfirmed db order.pk) (h : StillUnconfirmed (saveStatus db order) o) :
    StillUnconfirmed db o := by
  by_cases ho : o = order.pk
  · rwa [ho]
  · rw [StillUnconfirmed, saveStatus, Table.find?_modify, if_neg ho] at h
    exact h

theorem stillUnconfirmed_paid {now : Time} {user : User} {order : Order} {payment : Payment}
    {o : ℕ} : StillUnconfirmed (paid env.unit now user order payment db) o
      ↔ o ≠ order.pk ∧ StillUnconfirmed db o := by
  have horders : (paid env.unit now user order payment db).orders.find? o = _ :=
    Table.find?_modify db.orders order.pk o
      (fun row => { row with
        status := .unfulfilled
        chargeStatus := .ofPayment .fullyCharged
        totalChargedAmount := order.totalNetAmount })
      fun _ => rfl
  rw [StillUnconfirmed, horders]
  by_cases ho : o = order.pk
  · simp [ho]
  · simp [ho, StillUnconfirmed]

/-! ### One step -/

@[simp] theorem effectSum_append (k : ℕ) (l l' : List Effect) :
    effectSum k (l ++ l') = effectSum k l + effectSum k l' := by
  simp [effectSum]

@[simp] theorem effectSum_singleton (k : ℕ) (e : Effect) :
    effectSum k [e] = if k = e.user then e.amount else 0 := by
  simp [effectSum, sumAt_cons, eq_comm]

/-- A step that moves balances by its effect, charges an unconfirmed order only, and makes no order
unconfirmed again. -/
theorem Conserved.extend (h : Conserved base db log) {effect : Option Effect}
    (hbalance : ∀ k, balanceIn db' k = balanceIn db k + effectSum k effect.toList)
    (hcharged : ∀ o ∈ charged effect.toList, StillUnconfirmed db o ∧ ¬ StillUnconfirmed db' o)
    (horders : ∀ o, StillUnconfirmed db' o → StillUnconfirmed db o) :
    Conserved base db' (log ++ effect.toList) := by
  have happend : charged (log ++ effect.toList) = charged log ++ charged effect.toList :=
    List.filterMap_append
  constructor
  · intro k
    rw [hbalance, h.balance, effectSum_append, add_assoc]
  · rw [happend]
    refine h.nodup.append ?_ fun o hlog heffect => h.confirmed o hlog (hcharged o heffect).1
    -- a step has one effect at most
    rcases effect with _ | ⟨user, amount, _ | o⟩
    · exact List.nodup_nil
    · exact List.nodup_nil
    · exact List.nodup_singleton o
  · intro o ho
    rw [happend] at ho
    rcases List.mem_append.mp ho with hlog | heffect
    · exact fun hunconfirmed => h.confirmed o hlog (horders o hunconfirmed)
    · exact (hcharged o heffect).2

/-- A step that reads, or ends a request without an effect. -/
theorem Conserved.idle (h : Conserved base db log) (husers : db'.users = db.users)
    (horders : db'.orders = db.orders) :
    Conserved base db' (log ++ (none : Option Effect).toList) := by
  refine h.extend (fun k => ?_) (fun o ho => nomatch ho) fun o ho => ?_
  · rw [balanceIn, balanceIn, husers]
    exact (add_zero _).symm
  · rwa [StillUnconfirmed, horders] at ho

/-- A step that moves one balance and no order. -/
theorem Conserved.move (h : Conserved base db log) {user : ℕ} {amount : Amount}
    (hbalance : ∀ k, balanceIn db' k = balanceIn db k + if k = user then amount else 0)
    (horders : db'.orders = db.orders) :
    Conserved base db' (log ++ (some (⟨user, amount, none⟩ : Effect)).toList) := by
  refine h.extend (fun k => ?_) (fun o ho => nomatch ho) fun o ho => ?_
  · rw [hbalance, Option.toList_some, effectSum_singleton]
  · rwa [StillUnconfirmed, horders] at ho

/-- **One step** that finds what was read. -/
theorem conserved_advance (hunit : 0 < env.unit) (h : Conserved base db log) {t : Thread}
    (hok : Undisturbed env db t) :
    Conserved base (advance env db t).1 (log ++ (advance env db t).2.2.toList) := by
  cases t with
  | confirm now user id =>
    rw [advance]
    split <;> exact h.idle rfl rfl
  | confirmUser now user id =>
    rw [advance]
    split <;> exact h.idle rfl rfl
  | confirmOrder now user order =>
    refine h.extend (fun k => ?_) (fun o ho => nomatch ho) fun o ho => ?_
    · exact (add_zero _).symm
    · exact stillUnconfirmed_saveStatus hok ho
  | confirmSaved now user order =>
    rw [advance]
    split
    · rename_i hbalance
      split
      · exact h.idle rfl rfl
      · rename_i payment hpayment
        obtain ⟨hfresh, hstill, hdvd⟩ := hok hbalance (Option.isSome_iff_exists.mpr ⟨_, hpayment⟩)
        refine h.extend (fun k => ?_) (fun o ho => ?_) fun o ho => ?_
        · rw [Option.toList_some, effectSum_singleton]
          exact balanceIn_paid hfresh hunit hdvd k
        · obtain rfl : o = order.pk := List.mem_singleton.mp ho
          exact ⟨hstill, fun hpaid => (stillUnconfirmed_paid.mp hpaid).1 rfl⟩
        · exact (stillUnconfirmed_paid.mp ho).2
    · exact h.idle rfl rfl
  | complete requestor now id accepted =>
    rw [advance]
    split
    · exact h.idle rfl rfl
    · split
      · exact h.idle rfl rfl
      · split <;> exact h.idle rfl rfl
  | completeRead now d previous => exact h.idle rfl rfl
  | completeSaved now d previous =>
    rw [advance]
    split
    · exact h.idle rfl rfl
    · split <;> exact h.idle rfl rfl
  | completeUser now user price granted =>
    exact h.move (balanceIn_completeWrites hok) rfl
  | refund now data =>
    rw [advance]
    split <;> exact h.idle rfl rfl
  | refundUser now user amount =>
    exact h.move (balanceIn_refundWrites hok.1 hok.2) rfl
  | login r =>
    rw [advance]
    split
    · exact h.idle rfl rfl
    · split
      · exact h.idle rfl rfl
      · split <;> exact h.idle rfl rfl
  | loginUser r account user =>
    rw [advance]
    split
    · exact h.idle rfl rfl
    · rename_i db' hupdate
      have hbalance := balanceIn_updateUserDetails hupdate hok
      have horders := orders_updateUserDetails hupdate
      dsimp only
      rcases hreward : loginReward env.date r account db user with _ | reward
      · refine h.extend (fun k => ?_) (fun o ho => nomatch ho) fun o ho => ?_
        · rw [hbalance, hreward, Option.getD_none, ite_self]
          rfl
        · rwa [StillUnconfirmed, horders] at ho
      · rw [hreward] at hbalance
        exact h.move hbalance horders
  | done outcome => exact h.idle rfl rfl

/-- Only a request that reports success has an effect. -/
theorem advance_effect {t : Thread} {e : Effect} (h : (advance env db t).2.2 = some e) :
    (advance env db t).2.1 = .done .success := by
  cases t with
  | confirmSaved now user order =>
    rw [advance] at h ⊢
    by_cases hbalance : user.balance ≥ order.totalNetAmount
    · rw [if_pos hbalance] at h ⊢
      rcases hpayment : getLastPayment db.payments order.pk with _ | payment
      · simp only [hpayment] at h
        cases h
      · rfl
    · rw [if_neg hbalance] at h
      cases h
  | completeUser now user price granted => rfl
  | refundUser now user amount => rfl
  | loginUser r account user =>
    rw [advance] at h ⊢
    rcases hupdate : updateUserDetails env.date r account db user with e | db'
    · simp only [hupdate] at h
      cases h
    · rfl
  | _ =>
    simp only [advance] at h
    repeat' split at h
    all_goals cases h

/-- Paying for an order leaves no debt, when the write finds what was read. -/
theorem balance_nonneg_of_charged (hunit : 0 < env.unit) {t : Thread} (hok : Undisturbed env db t)
    {e : Effect} (h : (advance env db t).2.2 = some e) (horder : e.order.isSome) :
    0 ≤ balanceIn (advance env db t).1 e.user := by
  cases t with
  | confirmSaved now user order =>
    rw [advance] at h ⊢
    by_cases hbalance : user.balance ≥ order.totalNetAmount
    · rw [if_pos hbalance] at h ⊢
      rcases hpayment : getLastPayment db.payments order.pk with _ | payment
      · simp only [hpayment] at h
        cases h
      · simp only [hpayment, Option.some.injEq] at h
        subst h
        obtain ⟨hfresh, -, hdvd⟩ := hok hbalance (Option.isSome_iff_exists.mpr ⟨_, hpayment⟩)
        have hrow : balanceIn db user.pk = user.balance := by
          rw [Fresh] at hfresh
          rw [balanceIn, hfresh, Option.getD_some]
        simp only
        rw [balanceIn_paid hfresh hunit hdvd, if_pos rfl, hrow]
        exact sub_nonneg.mpr hbalance
    · rw [if_neg hbalance] at h
      cases h
  | completeUser now user price granted =>
    cases h
    cases horder
  | refundUser now user amount =>
    cases h
    cases horder
  | loginUser r account user =>
    rw [advance] at h
    split at h
    · cases h
    · obtain ⟨reward, -, rfl⟩ := Option.map_eq_some_iff.mp h
      cases horder
  | _ =>
    simp only [advance] at h
    repeat' split at h
    all_goals cases h

/-! ### A request that is not interrupted -/

theorem alone_confirm (now : Time) (user : Option ℕ) (id : ℕ) :
    alone (advance env) 4 db (.confirm now user id)
      = ((orderConfirm env.unit now user id db).1,
          .done (orderConfirm env.unit now user id db).2) := by
  rw [orderConfirm]
  rcases huser : user.bind db.users.find? with _ | u
  · simp only [alone, advance, huser]
  rcases horder : getInstance db id with es | order
  · simp only [alone, advance, huser, horder]
  simp only [alone, advance, huser, horder, pay]
  by_cases hbalance : u.balance ≥ order.totalNetAmount
  · simp only [if_pos hbalance]
    rcases getLastPayment (saveStatus db order).payments order.pk with _ | payment <;> rfl
  · simp only [if_neg hbalance]

/-- The action after saving, from the read of the donor on. -/
theorem alone_completeReadUser (db : Db) (now : Time) (d : Donation) (granted : Bool) :
    alone (advance env) 1 db (completeReadUser db now d granted)
      = ((DonationComplete.changeBalance db (d.donator.getD "") d.priceAmount
            (signedPrice · granted)
            fun user price =>
              if granted then donationGrantedBalanceEvent now user price
              else donationRejectedBalanceEvent now user (some price)).1,
          .done (DonationComplete.changeBalance db (d.donator.getD "") d.priceAmount
            (signedPrice · granted)
            fun user price =>
              if granted then donationGrantedBalanceEvent now user price
              else donationRejectedBalanceEvent now user (some price)).2) := by
  rw [completeReadUser, DonationComplete.changeBalance]
  rcases db.users.get (·.code = d.donator.getD "") with e | user
  · rfl
  rcases d.priceAmount with _ | price
  · rfl
  · rfl

theorem alone_complete (requestor : Option Requestor) (now : Time) (id : ℕ) (accepted : Bool) :
    alone (advance env) 4 db (.complete requestor now id accepted)
      = ((donationComplete db requestor now id accepted).1,
          .done (donationComplete db requestor now id accepted).2) := by
  rw [donationComplete]
  rcases hd : getNodeOrError "Donation" id (db.donations.find? id) with es | d
  · simp only [alone, advance, hd]
  rcases hperm : validateCompletePermission requestor with es | ⟨⟨⟩⟩
  · simp only [alone, advance, hd, hperm]
  rcases hclean : { d.toInstance with status := some (completedStatus accepted) }.fullClean
    with es | row
  · simp only [alone, advance, hd, hperm, hclean]
  have hread : advance env db (.complete requestor now id accepted)
      = (db, .completeRead now row d.status, none) := by
    simp only [advance, hd, hperm, hclean]
  simp only [hclean]
  rw [alone_succ hread, alone_succ (rfl : advance env db (.completeRead now row d.status) = _),
    DonationComplete.postSaveAction]
  by_cases hgrant : d.status ≠ some .completed ∧ row.status = some .completed ∧
      row.donator.getD "" ≠ ""
  · rw [alone_succ (if_pos hgrant : advance env _ (.completeSaved now row d.status) = _),
      if_pos hgrant]
    exact alone_completeReadUser _ now row true
  rw [if_neg hgrant]
  by_cases hreject : d.status = some .completed ∧ row.status = some .rejected ∧
      row.donator.getD "" ≠ ""
  · rw [alone_succ ((if_neg hgrant).trans (if_pos hreject) :
      advance env _ (.completeSaved now row d.status) = _), if_pos hreject]
    exact alone_completeReadUser _ now row false
  · rw [alone_succ ((if_neg hgrant).trans (if_neg hreject) :
      advance env _ (.completeSaved now row d.status) = _), if_neg hreject]
    rfl

theorem alone_refund (now : Time) (data : PaymentData) :
    (alone (advance env) 2 db (.refund now data)).1 = ((refundPayment now data).exec db).2 := by
  rcases huser : data.customerId.bind db.users.find? with _ | u
  · rw [exec_refundPayment_of_none huser]
    simp only [alone, advance, huser]
  · rw [exec_refundPayment_of_some huser]
    simp only [alone, advance, huser]

/-- The login of a user who is found. -/
theorem alone_login {r : LoginRequest} {account : String} {user : User} (hsub : r.sub = some account)
    (huser : r.getUser db.users account = .ok user) :
    (alone (advance env) 2 db (.login r)).1 = login env.date r db := by
  simp only [Account.login, getOrCreateUserFromPayload, findUser, hsub, huser]
  by_cases hlogin : ¬ user.canLogin r.confirmationRequired
  · simp only [alone, advance, hsub, huser, if_pos hlogin]
  · have hread : advance env db (.login r) = (db, .loginUser r account user, none) := by
      simp only [advance, hsub, huser, if_neg hlogin]
    rw [alone_succ hread, if_neg hlogin, alone, alone, advance]
    rcases updateUserDetails env.date r account db user with e | db' <;> rfl

/-! ### Every interleaving -/

/-- **Every interleaving** of requests whose writes find what was read: in every configuration
reached the balances are what they were plus the effects, no order is charged twice, and no step
that charges for an order leaves a debt. -/
theorem requests_conserved {ι : Type*} [DecidableEq ι] (hunit : 0 < env.unit)
    {c : Config ι Db Thread Effect} (hlog : c.log = []) {schedule : List ι}
    (h : EachStep (step (advance env)) (Allowed (Undisturbed env)) c schedule) :
    (∀ c', Reached (step (advance env)) c schedule c' →
      (∀ k, balanceIn c'.shared k = balanceIn c.shared k + effectSum k c'.log) ∧
        (charged c'.log).Nodup) ∧
    EachStep (step (advance env))
      (fun c i => ∀ e, (advance env c.shared (c.threads i)).2.2 = some e → e.order.isSome →
        0 ≤ balanceIn (step (advance env) c i).shared e.user)
      c schedule := by
  constructor
  · intro c' hreached
    have hstart : Conserved (balanceIn c.shared) c.shared c.log := by
      rw [hlog]
      exact ⟨fun k => (add_zero _).symm, List.nodup_nil, fun o ho => nomatch ho⟩
    have hstep : ∀ db t log, Conserved (balanceIn c.shared) db log → Undisturbed env db t →
        Conserved (balanceIn c.shared) (advance env db t).1
          (log ++ (advance env db t).2.2.toList) :=
      fun db t log hinv hok => conserved_advance hunit hinv hok
    have hend := Interleaving.inv_reached hstep h hstart hreached
    exact ⟨hend.balance, hend.nodup⟩
  · exact h.mono fun c i hok e he horder => balance_nonneg_of_charged hunit hok he horder

/-- A buyer with a balance of 100, an unconfirmed order of 60 and a donation. -/
def buyerDb : Db :=
  let buyer : User :=
    { pk := 1, email := "a@sjtu.edu.cn", balance := 100000, code := "517", lastLogin := 0 }
  let donation : Donation :=
    { pk := 7, donator := some "517", barcode := some "690", title := some "lamp",
      description := some "", currency := some "AXB", priceAmount := some 5000,
      status := some .unreviewed, quantity := 1 }
  let order : Order :=
    { pk := 3, user := some 1, status := .unconfirmed, totalNetAmount := 60000,
      lines := [{ pk := 4, quantity := 1, unitPriceGrossAmount := 60000 }] }
  let payment : Payment :=
    { pk := 5, order := some 3, gateway := "aixinwu.payments.balance", total := 60000 }
  { users := Table.singleton buyer
    donations := Table.singleton donation
    orders := Table.singleton order
    payments := Table.singleton payment }

/-- The order is confirmed while a donation of the buyer is on its way; the donor is read
afterwards. -/
theorem requests_conserved_confirmDonation :
    let env : Surroundings := { date := id, unit := 10 }
    let staff : Option Requestor := some ⟨[.manageDonations]⟩
    let c : Config Bool Db Thread Effect :=
      { shared := buyerDb
        threads := fun b => if b then .confirm 5 (some 1) 3 else .complete staff 6 7 true
        log := [] }
    ∀ c', Reached (step (advance env)) c [true, false, true, true, false, true, false, false] c' →
      (∀ k, balanceIn c'.shared k = balanceIn c.shared k + effectSum k c'.log) ∧
        (charged c'.log).Nodup := by
  intro env staff c
  have hrun : EachStep (step (advance env)) (Allowed (Undisturbed env)) c
      [true, false, true, true, false, true, false, false] := by
    simp only [eachStep_cons, Allowed]
    refine ⟨trivial, trivial, trivial, ?_, trivial, ?_, trivial, ?_, eachStep_nil _⟩
    · rfl
    · exact fun _ _ => ⟨by decide +kernel, by decide +kernel, by decide +kernel⟩
    · change Fresh _ _
      decide +kernel
  exact (requests_conserved (by decide) rfl hrun).1

/-- The order is confirmed twice at the same time: it is paid twice, and the balance falls once. -/
theorem requests_conserved_twoConfirms :
    ¬ ∀ (env : Surroundings) (db : Db) (now now' : Time) (user : Option ℕ) (id id' : ℕ)
      (schedule : List Bool) (c' : Config Bool Db Thread Effect), 0 < env.unit →
      Reached (step (advance env))
        ⟨db, fun b => if b then .confirm now user id else .confirm now' user id', []⟩ schedule c' →
      (∀ k, balanceIn c'.shared k = balanceIn db k + effectSum k c'.log) ∧
        (charged c'.log).Nodup := by
  intro h
  have hend := h { date := id, unit := 10 } buyerDb 5 6 (some 1) 3 3
    [true, false, true, false, true, false, true, false] _ (by decide) (reached_run _ _)
  exact absurd hend.2 (by decide +kernel)

end Account

end Aixinwu
